import Gridfill.Proofs.Workbook.Backed
import Mathlib.Data.List.Pairwise

/-!
# Live documents in step with the package

A substitution writes the documents that it changed, and nothing else. When no two documents of a workbook share a
part, every live document stands in its part after every run, and a sheet that has not been opened has the parts
that it had when the workbook was loaded (`InStep`, `inStep_of_run`).
-/

namespace Gridfill

open Archive (Entry)
open Markup (Element)

namespace Workbook

/-! ### The parts of a workbook -/

/-- The parts of the sheets of a workbook and of their tables. -/
def sheetParts (w : Workbook) : List String := w.sheets.flatMap fun info => Sheet.listedParts w.package info.path

/-- The parts of the documents of a workbook: its own, its relationships, the texts, the sheets and the tables. -/
def documentParts (w : Workbook) : List String := w.path :: w.relationshipsPath :: w.stringsPath :: w.sheetParts

/-- The parts with the relationships of the package and of the sheets. -/
def linkParts (w : Workbook) : List String :=
  Vocabulary.rootRelationshipsPart :: w.sheets.map fun info => PartName.relationships info.path

/-- The parts that relationships give for the order of calculation. -/
def chainTargets (w : Workbook) : List String :=
  (chainLinks w.relationships).map fun r => PartName.resolve w.directory (r.attributeOr "Target" "")

/-- All parts that a workbook is read from or names. -/
def allParts (w : Workbook) : List String := w.documentParts ++ w.linkParts ++ w.chainTargets

/-- No part of a workbook has two uses. -/
structure PartsApart (w : Workbook) : Prop where
  documents : w.documentParts.Nodup
  links : ∀ name ∈ w.linkParts, name ∉ w.documentParts
  chains : ∀ name ∈ w.chainTargets, name ∉ w.documentParts ∧ name ∉ w.linkParts

/-- It is enough that all parts are different. -/
theorem partsApart_of_nodup {w : Workbook} (h : w.allParts.Nodup) : PartsApart w := by
  obtain ⟨pair, -, apart⟩ := List.nodup_append'.mp h
  obtain ⟨documents, -, links⟩ := List.nodup_append'.mp pair
  refine ⟨documents, fun name hn hd => links hd hn, fun name hn => ⟨fun hd => ?_, fun hl => ?_⟩⟩
  · exact apart (List.mem_append_left _ hd) hn
  · exact apart (List.mem_append_right _ hl) hn

section
variable {w : Workbook} {info : SheetInfo}

theorem mem_sheetParts {name : String} (hi : info ∈ w.sheets) (hn : name ∈ Sheet.listedParts w.package info.path) :
    name ∈ w.sheetParts := List.mem_flatMap.mpr ⟨info, hi, hn⟩

theorem mem_documentParts {name : String} (h : name ∈ w.sheetParts) : name ∈ w.documentParts :=
  List.mem_cons_of_mem _ (List.mem_cons_of_mem _ (List.mem_cons_of_mem _ h))

theorem mem_linkParts (hi : info ∈ w.sheets) : PartName.relationships info.path ∈ w.linkParts :=
  List.mem_cons_of_mem _ (List.mem_map_of_mem hi)

/-- The order of calculation of a workbook that was loaded is one that a relationship gives. -/
theorem mem_chainTargets {p : Package} {c : String} (h : Loaded p w) (hc : w.calcChain = some c) :
    c ∈ w.chainTargets := by
  rw [h.calcChain] at hc
  obtain ⟨r, hr, rfl⟩ := Option.map_eq_some_iff.mp hc
  unfold findRelationship at hr
  have type := List.find?_some hr
  exact List.mem_map_of_mem (List.mem_filter.mpr ⟨List.mem_of_find?_eq_some hr, type⟩)

namespace PartsApart

variable (h : PartsApart w)
include h

theorem sheets : w.sheetParts.Nodup :=
  (List.nodup_cons.mp (List.nodup_cons.mp (List.nodup_cons.mp h.documents).2).2).2

theorem listed (hi : info ∈ w.sheets) : (Sheet.listedParts w.package info.path).Nodup :=
  (List.nodup_flatMap.mp h.sheets).1 info hi

/-- Sheets that have a part in common are the same. -/
theorem eq_of_mem {other : SheetInfo} {name : String} (hi : info ∈ w.sheets) (ho : other ∈ w.sheets)
    (hn : name ∈ Sheet.listedParts w.package info.path) (hn' : name ∈ Sheet.listedParts w.package other.path) :
    info = other := by
  by_contra hne
  have apart := (List.nodup_flatMap.mp h.sheets).2
  have : Std.Symm (Function.onFun List.Disjoint fun i : SheetInfo => Sheet.listedParts w.package i.path) :=
    ⟨fun _ _ d _ ha hb => d hb ha⟩
  exact apart.forall hi ho hne hn hn'

theorem eq_of_path_eq {other : SheetInfo} (hi : info ∈ w.sheets) (ho : other ∈ w.sheets)
    (path : info.path = other.path) : info = other :=
  h.eq_of_mem hi ho (Sheet.mem_listedParts _ _) (path ▸ Sheet.mem_listedParts _ _)

theorem path_notMem : w.path ∉ w.relationshipsPath :: w.stringsPath :: w.sheetParts :=
  (List.nodup_cons.mp h.documents).1

theorem relationshipsPath_notMem : w.relationshipsPath ∉ w.stringsPath :: w.sheetParts :=
  (List.nodup_cons.mp (List.nodup_cons.mp h.documents).2).1

theorem stringsPath_notMem : w.stringsPath ∉ w.sheetParts :=
  (List.nodup_cons.mp (List.nodup_cons.mp (List.nodup_cons.mp h.documents).2).2).1

end PartsApart

end

/-! ### What a substitution leaves alone -/

section
variable {w w' ready dropped : Workbook} {key : SheetKey} {data : Bindings} {sheet : Sheet} {o : Outcome}
  {strings : Element} {name : String}

/-- The parts that go or change with the order of calculation, when it goes. -/
def chainTouched (w : Workbook) (moved : Bool) : List String :=
  if moved then
    ((w.calcChain.filter (· ≠ "")).toList).flatMap fun c =>
      [c, w.relationshipsPath, Vocabulary.contentTypesPart]
  else []

theorem mem_chainTouched {c : String} (hc : w.calcChain = some c) (hne : c ≠ "")
    (hn : name ∈ [c, w.relationshipsPath, Vocabulary.contentTypesPart]) : name ∈ w.chainTouched true := by
  rw [chainTouched, if_pos rfl, hc, Option.filter_some, if_pos (decide_eq_true hne)]
  simpa using hn

/-- Dropping the order of calculation leaves the other parts alone. -/
theorem Drops.leaves {moved : Bool} (h : Drops w moved w') (hn : name ∉ w.chainTouched moved) :
    Package.Leaves name w.package w'.package := by
  cases h with
  | kept => exact .refl _ _
  | @dropped part package moves chain named override =>
      subst moves
      have apart : ∀ other ∈ [part, w.relationshipsPath, Vocabulary.contentTypesPart], name ≠ other :=
        fun other ho e => hn (mem_chainTouched chain named (e ▸ ho))
      have unchained := (Package.leaves_remove w.package (apart part (by simp))).trans
        (Package.leaves_writeDocument _ (withoutCalcChain w.relationships) (apart w.relationshipsPath (by simp)))
      cases override with
      | absent => exact unchained
      | present => exact unchained.trans (Package.leaves_writeDocument _ _ (apart _ (by simp)))

/-- Dropping the order of calculation leaves the relationships in their part. -/
theorem Drops.holds_links {moved : Bool} (h : Drops w moved w')
    (held : w.package.Holds w.relationshipsPath w.relationships)
    (apart : w.relationshipsPath ≠ Vocabulary.contentTypesPart) :
    w'.package.Holds w.relationshipsPath w'.relationships := by
  cases h with
  | kept => exact held
  | @dropped part _ moves chain named override =>
      have own := Package.holds_writeDocument (w.package.remove part) w.relationshipsPath
        (withoutCalcChain w.relationships)
      cases override with
      | absent => exact own
      | present => exact own.leaves (Package.leaves_writeDocument _ _ apart)

end

/-! ### The invariant -/

/-- The workbook has the parts and lists the sheets of the one that it came from. -/
structure Reaches (w₀ w : Workbook) : Prop where
  path : w.path = w₀.path
  relationshipsPath : w.relationshipsPath = w₀.relationshipsPath
  stringsPath : w.stringsPath = w₀.stringsPath
  sheets : w.sheets = w₀.sheets
  chain : w.relationships = w₀.relationships ∧ w.calcChain = w₀.calcChain ∨
    w.relationships = withoutCalcChain w₀.relationships ∧ w.calcChain = none
  listed : (w.document.descendants [Vocabulary.sheets, Vocabulary.sheet]).mapM
    (sheetInfo w₀.directory w.relationships) = .ok w₀.sheets

/-- The workbook, which came from a loaded one, is in step with its package. -/
structure InStep (w₀ w : Workbook) : Prop extends Reaches w₀ w where
  document : w.package.Holds w₀.path w.document
  links : w.package.Holds w₀.relationshipsPath w.relationships
  strings : w.package.Holds w₀.stringsPath w.stringsRoot
  texts : (Pool.ofRoot w.stringsRoot).texts = w.pool.texts
  /-- The opened sheets stand in their parts. -/
  opened : ∀ s ∈ w.opened, s.info ∈ w₀.sheets ∧ s.parts = Sheet.listedParts w₀.package s.info.path ∧
    s.Backed w.package
  /-- The other sheets have the parts that they had. -/
  closed : ∀ info ∈ w₀.sheets, w.openedAt? info.path = none → ∀ name ∈ Sheet.listedParts w₀.package info.path,
    w.package.find? name = w₀.package.find? name
  linkParts : ∀ name ∈ w₀.linkParts, w.package.find? name = w₀.package.find? name

theorem inStep_of_load {entries : List Entry} {w₀ : Workbook} (h : load entries = .ok w₀) : InStep w₀ w₀ := by
  have loaded := ofPackage_eq_ok_iff.mp h
  have package := loaded.package
  refine ⟨⟨rfl, rfl, rfl, rfl, Or.inl ⟨rfl, rfl⟩, loaded.sheets⟩, Or.inl ?_, Or.inl ?_, Or.inl ?_, ?_, ?_,
    fun _ _ _ _ _ => rfl, fun _ _ => rfl⟩
  · rw [package]
    exact loaded.document
  · rw [package]
    exact loaded.relationships
  · rw [package]
    exact loaded.stringsRoot
  · rw [loaded.pool]
  · rw [loaded.opened]
    exact fun _ h => nomatch h

section
variable {w₀ w w' ready dropped : Workbook} {key : SheetKey} {data : Bindings} {sheet : Sheet} {o : Outcome}
  {strings : Element}

/-- The parts of a sheet that has not been opened are the same as before. -/
theorem InStep.listedParts_eq (h : InStep w₀ w) {info : SheetInfo} (hi : info ∈ w₀.sheets)
    (hn : w.openedAt? info.path = none) :
    Sheet.listedParts w.package info.path = Sheet.listedParts w₀.package info.path := by
  have own := h.closed info hi hn _ (Sheet.mem_listedParts _ _)
  have links := h.linkParts _ (mem_linkParts hi)
  rw [Sheet.listedParts, Sheet.listedParts]
  simp only [Package.readDocument, Package.read, own, links]

theorem InStep.openSheet (h : InStep w₀ w) (hopen : w.openSheet key = .ok (sheet, w')) : InStep w₀ w' := by
  rcases opened_or_load_of_openSheet hopen with ⟨-, rfl⟩ | ⟨hi, hn, hload, rfl⟩
  · exact h
  · rw [h.sheets] at hi
    obtain ⟨-, backed, parts⟩ := Sheet.backed_of_load hload
    refine { h with opened := ?_, closed := ?_ }
    · intro s hs
      rcases List.mem_append.mp hs with hs | hs
      · exact h.opened s hs
      · obtain rfl := List.mem_singleton.mp hs
        exact ⟨hi, parts.trans (h.listedParts_eq hi hn), backed⟩
    · intro info hinfo hnone
      refine h.closed info hinfo ?_
      have all : (w.opened ++ [sheet]).find? (fun s => s.info.path = info.path) = none := hnone
      rw [List.find?_append] at all
      exact (Option.or_eq_none_iff.mp all).1

/-- The order of calculation is that of the loaded workbook as long as it has not been dropped. -/
theorem Reaches.relationships_eq (h : Reaches w₀ w) {c : String} (hc : w.calcChain = some c) :
    w.relationships = w₀.relationships ∧ w₀.calcChain = some c := by
  rcases h.chain with ⟨same, chain⟩ | ⟨-, none⟩
  · exact ⟨same, chain.symm.trans hc⟩
  · rw [none] at hc
    cases hc

/-- Filling a sheet leaves the list of sheets. -/
theorem Reaches.putOutcome (h : Reaches w₀ w) (hfill : w.fillSheet sheet data = .ok o) :
    Reaches w₀ (w.putOutcome o) := by
  refine { h with listed := ?_ }
  show (o.workbook.descendants _).mapM _ = _
  rw [(descendants_of_fillSheet hfill).2]
  exact h.listed

/-- Dropping the order of calculation leaves the list of sheets, as no sheet is an order of calculation. -/
theorem Reaches.drops (h : Reaches w₀ w) (apart : PartsApart w₀) {moved : Bool} (hd : Drops w moved w') :
    Reaches w₀ w' := by
  cases hd with
  | kept => exact h
  | dropped moves chain named override =>
      obtain ⟨same, -⟩ := h.relationships_eq chain
      refine { h with chain := Or.inr ⟨congrArg withoutCalcChain same, rfl⟩, listed := ?_ }
      refine sheets_withoutCalcChain h.listed fun r hr info hi e => ?_
      have target : info.path ∈ w₀.chainTargets := List.mem_map.mpr ⟨r, same ▸ hr, e⟩
      exact (apart.chains _ target).1 (mem_documentParts (mem_sheetParts hi (Sheet.mem_listedParts _ _)))

/-- What goes with the order of calculation is neither a sheet nor a table, and no relationships of one. -/
theorem InStep.chainTouched_notMem {entries : List Entry} (h : InStep w₀ w) (hload : load entries = .ok w₀)
    (apart : PartsApart w₀) {moved : Bool}
    (types : ∀ c, moved = true → w₀.calcChain = some c → c ≠ "" → Vocabulary.contentTypesPart ∉ w₀.sheetParts) :
    ∀ name ∈ w.chainTouched moved, name ∉ w₀.sheetParts ∧ name ∉ w₀.linkParts := by
  intro name hname
  unfold chainTouched at hname
  split at hname
  · next moves =>
    obtain ⟨c, hc, hname⟩ := List.mem_flatMap.mp hname
    obtain ⟨hc, hne⟩ := Option.filter_eq_some_iff.mp (Option.mem_toList.mp hc)
    obtain ⟨-, chain⟩ := h.relationships_eq hc
    simp only [List.mem_cons, List.not_mem_nil, or_false] at hname
    rcases hname with rfl | rfl | rfl
    · have target := mem_chainTargets (ofPackage_eq_ok_iff.mp hload) chain
      exact ⟨mt mem_documentParts (apart.chains name target).1, (apart.chains name target).2⟩
    · rw [h.relationshipsPath]
      refine ⟨fun hm => apart.relationshipsPath_notMem (List.mem_cons_of_mem _ hm), fun hm => ?_⟩
      exact apart.links _ hm (List.mem_cons_of_mem _ List.mem_cons_self)
    · refine ⟨types c moves chain (of_decide_eq_true hne), fun hm => ?_⟩
      rcases List.mem_cons.mp hm with hm | hm
      · exact absurd hm (by decide)
      · obtain ⟨info, -, hm⟩ := List.mem_map.mp hm
        exact PartName.relationships_ne_contentTypesPart _ hm
  · cases hname

/-- A substitution leaves the parts that it neither writes nor drops. -/
theorem Stages.leaves (h : Stages w key data sheet ready o dropped strings w') (info : o.sheet.info = sheet.info)
    (paths : o.sheet.tables.map (·.path) = sheet.tables.map (·.path)) {name : String}
    (hc : name ∉ w.chainTouched o.stats.moved) (hn : name ∉ w.path :: w.stringsPath :: sheet.parts) :
    Package.Leaves name w.package w'.package := by
  have opened := eq_of_openSheet h.open_eq
  have package : (ready.putOutcome o).package = w.package := by
    show ready.package = _
    rw [opened]
  have touched : (ready.putOutcome o).chainTouched o.stats.moved = w.chainTouched o.stats.moved := by
    show chainTouched ready _ = _
    rw [opened]
    rfl
  have drops := h.drops.leaves (touched ▸ hc)
  rw [package] at drops
  rw [h.eq]
  refine drops.trans (Package.leaves_writeDocuments _ ?_)
  rw [names_documents h info paths]
  simp only [Sheet.parts, List.mem_cons] at hn ⊢
  tauto

/-- The documents that a substitution writes are different parts, so each of them stands in its part. -/
theorem InStep.holds (h : InStep w₀ ready) (apart : PartsApart w₀) (hopen : w.openSheet key = .ok (sheet, ready))
    {documents : List (String × Element)}
    (names : documents.map (·.1) = sheet.info.path :: w₀.path :: w₀.stringsPath :: sheet.tables.map (·.path))
    {name : String} {root : Element} (hd : (name, root) ∈ documents) (p : Package) :
    (p.writeDocuments documents).Holds name root := by
  obtain ⟨hi, parts, -⟩ := h.opened sheet (mem_opened_of_openSheet hopen)
  have own : ∀ other, other ∈ sheet.parts → other ∈ w₀.sheetParts :=
    fun other ho => mem_sheetParts hi (parts ▸ ho)
  refine Package.holds_writeDocuments ?_ hd p
  have path : w₀.path ∉ w₀.stringsPath :: sheet.parts := fun hm =>
    apart.path_notMem (List.mem_cons_of_mem _ ((List.mem_cons.mp hm).elim (fun e => e ▸ List.mem_cons_self)
      fun hm => List.mem_cons_of_mem _ (own _ hm)))
  have distinct : (w₀.path :: w₀.stringsPath :: sheet.parts).Nodup :=
    List.nodup_cons.mpr ⟨path, List.nodup_cons.mpr ⟨fun hm => apart.stringsPath_notMem (own _ hm),
      parts ▸ apart.listed hi⟩⟩
  rw [names]
  exact (@List.perm_middle _ _ [w₀.path, w₀.stringsPath] _).nodup_iff.mp distinct

/-- A filled sheet stands in its parts once its documents are written. -/
theorem backed_of_fillSheet (backed : sheet.Backed w.package) (info : o.sheet.info = sheet.info)
    (paths : o.sheet.tables.map (·.path) = sheet.tables.map (·.path)) (hfill : ready.fillSheet sheet data = .ok o)
    {q : Package} (held : ∀ d ∈ (o.sheet.info.path, o.sheet.root) :: o.sheet.tables.map (fun t => (t.path, t.root)),
      q.Holds d.1 d.2)
    (links : q.readDocument (PartName.relationships sheet.info.path) =
      w.package.readDocument (PartName.relationships sheet.info.path)) : o.sheet.Backed q := by
  have entries : Sheet.tableEntries o.sheet.root = Sheet.tableEntries sheet.root := (descendants_of_fillSheet hfill).1
  refine ⟨held _ List.mem_cons_self, ?_, ?_⟩
  · intro t ht
    exact held _ (List.mem_cons_of_mem _ (List.mem_map.mpr ⟨t, ht, rfl⟩))
  · rw [entries, info, links]
    rcases backed.listed with ⟨hn, hts⟩ | ⟨links', hne, hlinks, leads⟩
    · rw [hts] at paths
      exact Or.inl ⟨hn, List.map_eq_nil_iff.mp paths⟩
    · refine Or.inr ⟨links', hne, hlinks, ?_⟩
      have same : List.Forall₂ (fun t u : Table => u.path = t.path) sheet.tables o.sheet.tables := by
        rw [← List.forall₂_eq_eq_eq, List.forall₂_map_left_iff, List.forall₂_map_right_iff] at paths
        exact paths.flip
      exact forall₂_comp (fun _ _ _ lead path => ⟨lead.1, path.trans lead.2⟩) leads same

/-- The relationships and the parts of all sheets but one are left alone. -/
structure LeavesOthers (w₀ : Workbook) (info : SheetInfo) (p q : Package) : Prop where
  links : ∀ name ∈ w₀.linkParts, Package.Leaves name p q
  sheets : ∀ i ∈ w₀.sheets, i.path ≠ info.path → ∀ name ∈ Sheet.listedParts w₀.package i.path, Package.Leaves name p q

theorem InStep.leavesOthers {entries : List Entry} (h : InStep w₀ w) (hload : load entries = .ok w₀)
    (apart : PartsApart w₀) (hs : Stages w key data sheet ready o dropped strings w')
    (info : o.sheet.info = sheet.info) (paths : o.sheet.tables.map (·.path) = sheet.tables.map (·.path))
    (types : ∀ c, o.stats.moved = true → w₀.calcChain = some c → c ≠ "" →
      Vocabulary.contentTypesPart ∉ w₀.sheetParts) : LeavesOthers w₀ sheet.info w.package w'.package := by
  obtain ⟨hi, parts, -⟩ := (h.openSheet hs.open_eq).opened sheet (mem_opened_of_openSheet hs.open_eq)
  have touched := h.chainTouched_notMem hload apart types
  have written {name : String} (hm : name ∈ w.path :: w.stringsPath :: sheet.parts) :
      name = w₀.path ∨ name = w₀.stringsPath ∨ name ∈ Sheet.listedParts w₀.package sheet.info.path := by
    rw [h.path, h.stringsPath, parts] at hm
    simpa only [List.mem_cons] using hm
  constructor
  · intro name hname
    refine hs.leaves info paths (fun ht => (touched _ ht).2 hname) fun hm => ?_
    have free := apart.links name hname
    rcases written hm with rfl | rfl | hm
    · exact free List.mem_cons_self
    · exact free (by simp [documentParts])
    · exact free (mem_documentParts (mem_sheetParts hi hm))
  · intro i hi' hne name hname
    have mem := mem_sheetParts hi' hname
    refine hs.leaves info paths (fun ht => (touched _ ht).1 mem) fun hm => ?_
    rcases written hm with rfl | rfl | hm
    · exact apart.path_notMem (List.mem_cons_of_mem _ (List.mem_cons_of_mem _ mem))
    · exact apart.stringsPath_notMem mem
    · exact hne (congrArg _ (apart.eq_of_mem hi' hi hname hm))

/-- The relationships of the workbook stand in their part, as no document is written there. -/
theorem InStep.links_substitute {entries : List Entry} (h : InStep w₀ ready) (hload : load entries = .ok w₀)
    (apart : PartsApart w₀) {moved : Bool} (hd : Drops (ready.putOutcome o) moved dropped) (hs : sheet ∈ ready.opened)
    {documents : List (String × Element)}
    (names : documents.map (·.1) = sheet.info.path :: w₀.path :: w₀.stringsPath :: sheet.tables.map (·.path)) :
    (dropped.package.writeDocuments documents).Holds w₀.relationshipsPath dropped.relationships := by
  have place : (ready.putOutcome o).relationshipsPath = w₀.relationshipsPath := h.relationshipsPath
  have types : w₀.relationshipsPath ≠ Vocabulary.contentTypesPart := by
    rw [(ofPackage_eq_ok_iff.mp hload).relationshipsPath]
    exact PartName.relationships_ne_contentTypesPart _
  have links := hd.holds_links (place.symm ▸ h.links) (place.symm ▸ types)
  rw [place] at links
  refine links.leaves (Package.leaves_writeDocuments _ ?_)
  obtain ⟨hi, parts, -⟩ := h.opened sheet hs
  have strings := apart.relationshipsPath_notMem
  have path := apart.path_notMem
  have own : w₀.relationshipsPath ∉ sheet.parts := fun hm =>
    strings (List.mem_cons_of_mem _ (mem_sheetParts hi (parts ▸ hm)))
  rw [names]
  simp only [Sheet.parts, List.mem_cons, not_or] at strings path own ⊢
  exact ⟨own.1, fun e => path.1 e.symm, strings.1, own.2⟩

/-- The filled sheet stands in its parts, and so do the other opened sheets. -/
theorem InStep.opened_putSheet (h : InStep w₀ ready) (hs : sheet ∈ ready.opened) {q : Package}
    (left : LeavesOthers w₀ sheet.info ready.package q) (info : o.sheet.info = sheet.info)
    (paths : o.sheet.tables.map (·.path) = sheet.tables.map (·.path)) (hfill : ready.fillSheet sheet data = .ok o)
    (held : ∀ d ∈ (o.sheet.info.path, o.sheet.root) :: o.sheet.tables.map (fun t => (t.path, t.root)),
      q.Holds d.1 d.2) :
    ∀ s ∈ (ready.putSheet o.sheet).opened, s.info ∈ w₀.sheets ∧
      s.parts = Sheet.listedParts w₀.package s.info.path ∧ s.Backed q := by
  intro s hs'
  rcases mem_putSheet hs' with rfl | ⟨hs', hne⟩
  · obtain ⟨hi, parts, backed⟩ := h.opened sheet hs
    refine ⟨info ▸ hi, ?_, ?_⟩
    · rw [Sheet.parts, paths, info]
      exact parts
    · exact backed_of_fillSheet backed info paths hfill held (left.links _ (mem_linkParts hi)).readDocument
  · obtain ⟨hi, parts, backed⟩ := h.opened s hs'
    rw [info] at hne
    refine ⟨hi, parts, backed.leaves ?_ (left.links _ (mem_linkParts hi))⟩
    exact parts ▸ left.sheets s.info hi hne

/-- The sheets that were not opened keep their parts. -/
theorem InStep.closed_putSheet (h : InStep w₀ ready) (hs : ready.openedAt? sheet.info.path = some sheet) {q : Package}
    (left : LeavesOthers w₀ sheet.info ready.package q) (s : Sheet) :
    ∀ i ∈ w₀.sheets, (ready.putSheet s).openedAt? i.path = none →
      ∀ name ∈ Sheet.listedParts w₀.package i.path, q.find? name = w₀.package.find? name := by
  intro i hi hn name hname
  rw [openedAt?_putSheet] at hn
  have still := Option.map_eq_none_iff.mp hn
  have hne : i.path ≠ sheet.info.path := by
    intro e
    rw [← e, still] at hs
    cases hs
  exact (left.sheets i hi hne name hname).find.trans (h.closed i hi still name hname)

/-- A substitution that goes through leaves the workbook in step with its package. -/
theorem InStep.substitute {entries : List Entry} (h : InStep w₀ w) (hload : load entries = .ok w₀)
    (apart : PartsApart w₀) (hw : w.Live) (hs : Stages w key data sheet ready o dropped strings w')
    (types : ∀ c, o.stats.moved = true → w₀.calcChain = some c → c ≠ "" →
      Vocabulary.contentTypesPart ∉ w₀.sheetParts) : InStep w₀ w' := by
  have started := h.openSheet hs.open_eq
  have eq := eq_of_openSheet hs.open_eq
  have pool : ready.pool = w.pool := by rw [eq]
  have package : ready.package = w.package := by rw [eq]
  obtain ⟨info, paths, steps⟩ := follows_of_fillSheet (pool ▸ hw.sound) hs.fill_eq
  have left := h.leavesOthers hload apart hs info paths types
  rw [← package] at left
  have names := names_documents hs info paths
  rw [h.path, h.stringsPath] at names
  have held : ∀ d ∈ dropped.documents o.sheet strings, w'.package.Holds d.1 d.2 := by
    intro d hd
    rw [hs.eq]
    exact started.holds apart hs.open_eq names hd dropped.package
  have sheetHeld : ∀ d ∈ (o.sheet.info.path, o.sheet.root) :: o.sheet.tables.map (fun t => (t.path, t.root)),
      w'.package.Holds d.1 d.2 := by
    intro d hd
    refine held d ?_
    rw [documents]
    rcases List.mem_cons.mp hd with rfl | hd
    · exact List.mem_cons_self
    · exact List.mem_cons_of_mem _ (List.mem_cons_of_mem _ (List.mem_cons_of_mem _ hd))
  have reached := (started.toReaches.putOutcome hs.fill_eq).drops apart hs.drops
  have opened : w'.opened = (ready.putSheet o.sheet).opened := by rw [hs.eq, hs.drops.eq_with]; rfl
  refine ⟨?_, ?_, ?_, ?_, ?_, ?_, ?_, ?_⟩
  · rw [hs.eq]
    exact ⟨reached.path, reached.relationshipsPath, reached.stringsPath, reached.sheets, reached.chain,
      reached.listed⟩
  · have own := held (dropped.path, dropped.document) (by simp [documents])
    rw [hs.eq] at own ⊢
    exact reached.path ▸ own
  · rw [hs.eq]
    exact started.links_substitute hload apart hs.drops (mem_opened_of_openSheet hs.open_eq) names
  · have own := held (dropped.stringsPath, strings) (by simp [documents])
    rw [hs.eq] at own ⊢
    exact reached.stringsPath ▸ own
  · have built : dropped.pool.Built := by
      rw [hs.drops.eq_with]
      exact steps.built (pool ▸ hw.built)
    rw [hs.eq]
    exact (Pool.texts_of_writeTo built hs.strings_eq).trans (Pool.texts_movedTo _ _).symm
  · rw [opened]
    exact started.opened_putSheet (mem_opened_of_openSheet hs.open_eq) left info paths hs.fill_eq sheetHeld
  · intro i hi hn
    rw [hs.openedAt?_eq] at hn
    exact started.closed_putSheet (openedAt?_of_openSheet hs.open_eq) left o.sheet i hi hn
  · intro name hname
    exact (left.links name hname).find.trans (started.linkParts name hname)

end

/-- A run keeps the workbook in step with its package. When the order of calculation is dropped, no sheet may have
the content types as its part. -/
theorem inStep_of_run {entries : List Entry} {w₀ w : Workbook} {fs : List Filling} (hload : load entries = .ok w₀)
    (apart : PartsApart w₀) (h : Run w₀ fs w)
    (types : ∀ c ∈ lostParts w₀ fs, c ≠ "" → Vocabulary.contentTypesPart ∉ w₀.sheetParts) : InStep w₀ w := by
  induction h with
  | start => exact inStep_of_load hload
  | openSheet _ hopen ih => exact (ih types).openSheet hopen
  | @substitute fs w w' ready key data stats sheet run hopen hsub ih =>
      obtain ⟨sheet', ready', o, dropped, strings, stages, rfl⟩ := exists_stages hsub
      have before := ih fun c hc => types c (lostParts_subset_append hc)
      refine before.substitute hload apart (run.live (.load hload)) stages fun c moved chain => types c ?_
      exact @mem_lostParts_append _ fs ⟨sheet, o.stats⟩ c moved chain

end Workbook
end Gridfill

import Gridfill.Proofs.Package.PartName
import Gridfill.Proofs.Workbook.Run

/-!
# Parts that are carried through

A run of substitutions writes only under names that the container had, and it removes nothing but the order of
calculation (`Carried`). So the container that is written has the entries of the source in their order, and every
entry outside of a few named parts is there as it was (`generate_untouched`). What can go wrong is a written part
without a name for its entry (`generate_nameless`), and an entry whose name does not fit into its header, be it
written or carried through (`generate_overlong`).
-/

namespace Gridfill

open Archive (Entry Method)
open Markup (Element)

/-- A sheet that was read has parts for itself and its tables. -/
theorem Sheet.has_of_load {p : Package} {info : SheetInfo} {sheet : Sheet} (h : Sheet.load p info = .ok sheet) :
    ∀ name ∈ sheet.parts, p.has name = true := by
  obtain ⟨root, hroot, h⟩ := bind_eq_ok_iff.mp h
  obtain ⟨tables, htables, h⟩ := bind_eq_ok_iff.mp h
  obtain rfl := Except.ok.inj h
  intro name hname
  rcases List.mem_cons.mp hname with rfl | hname
  · exact Package.has_of_readDocument hroot
  · obtain ⟨t, ht, rfl⟩ := List.mem_map.mp hname
    unfold openTables at htables
    split at htables
    · obtain rfl := Except.ok.inj htables
      cases ht
    · obtain ⟨relationships, -, htables⟩ := bind_eq_ok_iff.mp htables
      obtain ⟨entry, -, hentry⟩ := exists_of_mem_right (mapM_eq_ok_iff.mp htables) ht
      unfold openTable at hentry
      simp only at hentry
      split at hentry
      · cases hentry
      · obtain ⟨root, hroot, hentry⟩ := bind_eq_ok_iff.mp hentry
        obtain rfl := Except.ok.inj hentry
        exact Package.has_of_readDocument hroot

namespace Package

theorem mem_written_writeDocuments {documents : List (String × Element)} {name : String} :
    ∀ {p : Package}, name ∈ p.written ∨ name ∈ documents.map (·.1) → name ∈ (p.writeDocuments documents).written := by
  induction documents with
  | nil => exact fun h => h.elim id fun h => nomatch h
  | cons d ds ih =>
      intro p h
      refine ih (p := p.writeDocument d.1 d.2) ?_
      rw [List.map_cons, List.mem_cons] at h
      rcases h with h | rfl | h
      · exact Or.inl (mem_written_write.mpr (Or.inl h))
      · exact Or.inl (mem_written_write.mpr (Or.inr rfl))
      · exact Or.inr h

theorem has_writeDocuments {documents : List (String × Element)} {name : String} :
    ∀ {p : Package}, p.has name = true ∨ name ∈ documents.map (·.1) → (p.writeDocuments documents).has name = true := by
  induction documents with
  | nil => exact fun h => h.elim id fun h => nomatch h
  | cons d ds ih =>
      intro p h
      refine ih (p := p.writeDocument d.1 d.2) ?_
      rw [List.map_cons, List.mem_cons] at h
      by_cases same : name = d.1
      · left
        rw [has, same, writeDocument, find?_write]
        rfl
      · rw [has, writeDocument, find?_write_ne _ _ same]
        exact h.imp id fun h => h.resolve_left same

theorem Since.writeDocuments {entries : List Entry} {put lost : List String} {documents : List (String × Element)}
    (hn : ∀ d ∈ documents, d.1 ∈ entries.map (·.name)) (hp : ∀ d ∈ documents, d.1 ∈ put) :
    ∀ {p : Package}, Since entries put lost p → Since entries put lost (p.writeDocuments documents) := by
  induction documents with
  | nil => exact fun h => h
  | cons d ds ih =>
      intro p h
      exact ih (fun e he => hn e (List.mem_cons_of_mem d he)) (fun e he => hp e (List.mem_cons_of_mem d he))
        (h.writeDocument (hn d List.mem_cons_self) (hp d List.mem_cons_self) d.2)

end Package

namespace Workbook

/-! ### The parts that a run changes -/

/-- The parts that the filled sheets are written to: their own and those of their tables, the workbook's
document and the texts. -/
def filledParts (w₀ : Workbook) (fs : List Filling) : List String :=
  fs.flatMap fun f => w₀.path :: w₀.stringsPath :: f.sheet.parts

/-- The order of calculation, once cells have moved. -/
def lostParts (w₀ : Workbook) (fs : List Filling) : List String :=
  if fs.any (·.stats.moved) then w₀.calcChain.toList else []

/-- The parts that name the order of calculation, once it goes. -/
def chainParts (w₀ : Workbook) (fs : List Filling) : List String :=
  (lostParts w₀ fs).flatMap fun _ => [w₀.relationshipsPath, Vocabulary.contentTypesPart]

/-- The parts that a run may change. -/
def changedParts (w₀ : Workbook) (fs : List Filling) : List String :=
  filledParts w₀ fs ++ chainParts w₀ fs ++ lostParts w₀ fs

section
variable {w₀ : Workbook} {fs : List Filling} {f : Filling}

theorem filledParts_append :
    filledParts w₀ (fs ++ [f]) = filledParts w₀ fs ++ (w₀.path :: w₀.stringsPath :: f.sheet.parts) := by
  simp [filledParts]

theorem lostParts_subset_append : lostParts w₀ fs ⊆ lostParts w₀ (fs ++ [f]) := by
  unfold lostParts
  cases hf : fs.any (·.stats.moved) with
  | true => simp [hf]
  | false => simp

theorem chainParts_subset_append : chainParts w₀ fs ⊆ chainParts w₀ (fs ++ [f]) := by
  intro name hn
  obtain ⟨c, hc, hn⟩ := List.mem_flatMap.mp hn
  exact List.mem_flatMap.mpr ⟨c, lostParts_subset_append hc, hn⟩

/-- The order of calculation goes with the first substitution that moves cells. -/
theorem mem_lostParts_append {c : String} (moved : f.stats.moved = true) (hc : w₀.calcChain = some c) :
    c ∈ lostParts w₀ (fs ++ [f]) := by
  simp [lostParts, moved, hc]

theorem mem_chainParts {c name : String} (hc : c ∈ lostParts w₀ fs)
    (hn : name ∈ [w₀.relationshipsPath, Vocabulary.contentTypesPart]) : name ∈ chainParts w₀ fs :=
  List.mem_flatMap.mpr ⟨c, hc, hn⟩

end

/-! ### What a run keeps -/

/-- What a run keeps of the workbook that it started from, which was loaded from the entries. -/
structure Carried (entries : List Entry) (w₀ : Workbook) (fs : List Filling) (w : Workbook) : Prop where
  path : w.path = w₀.path
  stringsPath : w.stringsPath = w₀.stringsPath
  relationshipsPath : w.relationshipsPath = w₀.relationshipsPath
  calcChain : ∀ c, w.calcChain = some c → w₀.calcChain = some c
  known : ∀ name ∈ [w₀.path, w₀.stringsPath, w₀.relationshipsPath], name ∈ entries.map (·.name)
  opened : ∀ sheet ∈ w.opened, ∀ name ∈ sheet.parts, name ∈ entries.map (·.name)
  package : w.package.Since entries (filledParts w₀ fs ++ chainParts w₀ fs) (lostParts w₀ fs)

section
variable {entries : List Entry} {w₀ w w' : Workbook} {fs : List Filling}

theorem carried_of_load (distinct : (entries.map (·.name)).Nodup) (h : load entries = .ok w₀) :
    Carried entries w₀ [] w₀ := by
  have loaded := ofPackage_eq_ok_iff.mp h
  have since := Package.Since.ofEntries distinct
  refine ⟨rfl, rfl, rfl, fun _ hc => hc, ?_, ?_, ?_⟩
  · intro name hname
    simp only [List.mem_cons, List.not_mem_nil, or_false] at hname
    rcases hname with rfl | rfl | rfl
    · exact since.mem_of_readDocument loaded.document
    · exact since.mem_of_readDocument loaded.stringsRoot
    · exact since.mem_of_readDocument loaded.relationships
  · rw [loaded.opened]
    exact fun _ h => nomatch h
  · rw [loaded.package]
    exact since.mono (List.nil_subset _) (List.nil_subset _)

theorem Carried.openSheet {key : SheetKey} {sheet : Sheet} (h : Carried entries w₀ fs w)
    (hopen : w.openSheet key = .ok (sheet, w')) : Carried entries w₀ fs w' := by
  rcases opened_or_load_of_openSheet hopen with ⟨-, rfl⟩ | ⟨-, -, hload, rfl⟩
  · exact h
  · refine { h with opened := fun s hs name hname => ?_ }
    rcases List.mem_append.mp hs with hs | hs
    · exact h.opened s hs name hname
    · obtain rfl := List.mem_singleton.mp hs
      exact h.package.known name (Sheet.has_of_load hload name hname)

/-- The package without the order of calculation, the filling being the one that moved cells. -/
theorem Carried.drops {f : Filling} {dropped : Workbook} (h : Carried entries w₀ fs w)
    (hd : Drops w f.stats.moved dropped) :
    dropped.package.Since entries (filledParts w₀ (fs ++ [f]) ++ chainParts w₀ (fs ++ [f]))
      (lostParts w₀ (fs ++ [f])) := by
  have package : w.package.Since entries (filledParts w₀ (fs ++ [f]) ++ chainParts w₀ (fs ++ [f]))
      (lostParts w₀ (fs ++ [f])) := by
    refine h.package.mono ?_ lostParts_subset_append
    rw [filledParts_append, List.append_assoc]
    refine List.append_subset.mpr ⟨List.subset_append_left _ _, ?_⟩
    exact fun name hn => List.mem_append_right _ (List.mem_append_right _ (chainParts_subset_append hn))
  cases hd with
  | kept => exact package
  | @dropped part p moves chain named override =>
      have lost : part ∈ lostParts w₀ (fs ++ [f]) := mem_lostParts_append moves (h.calcChain part chain)
      have links : w.relationshipsPath ∈ filledParts w₀ (fs ++ [f]) ++ chainParts w₀ (fs ++ [f]) := by
        rw [h.relationshipsPath]
        exact List.mem_append_right _ (mem_chainParts lost (by simp))
      have unchained := (package.remove lost).writeDocument (by
        rw [h.relationshipsPath]
        exact h.known _ (by simp)) links (withoutCalcChain w.relationships)
      cases override with
      | absent => exact unchained
      | present htypes =>
          exact unchained.writeDocument (unchained.mem_of_readDocument htypes)
            (List.mem_append_right _ (mem_chainParts lost (by simp))) _

theorem Carried.substitute {ready dropped : Workbook} {key : SheetKey} {data : Bindings} {sheet : Sheet}
    {o : Outcome} {strings : Element} (h : Carried entries w₀ fs w) (hp : w.pool.Sound)
    (hs : Stages w key data sheet ready o dropped strings w') :
    Carried entries w₀ (fs ++ [⟨sheet, o.stats⟩]) w' := by
  have opened := h.openSheet hs.open_eq
  have pool : ready.pool = w.pool := by rw [eq_of_openSheet hs.open_eq]
  obtain ⟨info, paths, -⟩ := follows_of_fillSheet (pool ▸ hp) hs.fill_eq
  have parts : o.sheet.parts = sheet.parts := by rw [Sheet.parts, info, paths, Sheet.parts]
  have mine := opened.opened sheet (mem_opened_of_openSheet hs.open_eq)
  have put : Carried entries w₀ fs (ready.putOutcome o) := by
    refine { opened with opened := fun s hs' name hname => ?_ }
    rcases mem_putSheet hs' with rfl | ⟨hs', -⟩
    · exact mine name (parts ▸ hname)
    · exact opened.opened s hs' name hname
  have package := put.drops (f := ⟨sheet, o.stats⟩) hs.drops
  have same := hs.drops.eq_with
  have known : ∀ d ∈ dropped.documents o.sheet strings,
      d.1 ∈ entries.map (·.name) ∧ d.1 ∈ w₀.path :: w₀.stringsPath :: sheet.parts := by
    have names := names_documents hs info paths
    rw [h.path, h.stringsPath] at names
    intro d hd
    have hd : d.1 ∈ sheet.info.path :: w₀.path :: w₀.stringsPath :: sheet.tables.map (·.path) :=
      names ▸ List.mem_map_of_mem hd
    simp only [List.mem_cons] at hd
    rcases hd with hd | hd | hd | hd
    · rw [hd]
      exact ⟨mine _ List.mem_cons_self, by simp [Sheet.parts]⟩
    · rw [hd]
      exact ⟨h.known _ (by simp), by simp⟩
    · rw [hd]
      exact ⟨h.known _ (by simp), by simp⟩
    · exact ⟨mine _ (List.mem_cons_of_mem _ hd), by simp [Sheet.parts, hd]⟩
  have written := package.writeDocuments (fun d hd => (known d hd).1) fun d hd => by
    rw [filledParts_append]
    exact List.mem_append_left _ (List.mem_append_right _ (known d hd).2)
  rw [hs.eq]
  refine ⟨?_, ?_, ?_, ?_, put.known, ?_, written⟩
  · rw [same]; exact put.path
  · rw [same]; exact put.stringsPath
  · rw [same]; exact put.relationshipsPath
  · intro c hc
    cases hs.drops with
    | kept => exact put.calcChain c hc
    | dropped => cases hc
  · rw [same]; exact put.opened

/-- A run keeps what it does not fill. -/
theorem carried_of_run (distinct : (entries.map (·.name)).Nodup) (hload : load entries = .ok w₀)
    (h : Run w₀ fs w) : Carried entries w₀ fs w := by
  induction h with
  | start => exact carried_of_load distinct hload
  | openSheet _ hopen ih => exact ih.openSheet hopen
  | substitute run hopen hsub ih =>
      obtain ⟨sheet', ready', o, dropped, strings, stages, rfl⟩ := exists_stages hsub
      obtain ⟨rfl, rfl⟩ := Prod.mk.inj (Except.ok.inj (hopen.symm.trans stages.open_eq))
      exact ih.substitute (run.live (.load hload)).sound stages

end

/-! ### The container that is written -/

/-- Once cells have moved, the workbook's own document is among the parts that were written. -/
theorem path_mem_filledParts {w₀ : Workbook} {fs : List Filling} {c : String} (h : c ∈ lostParts w₀ fs) :
    w₀.path ∈ filledParts w₀ fs := by
  unfold lostParts at h
  split at h
  · next moved =>
    obtain ⟨f, hf, -⟩ := List.any_eq_true.mp moved
    exact List.mem_flatMap.mpr ⟨f, hf, List.mem_cons_self⟩
  · cases h

/-- When the filled parts have names for their entries, so have the parts that name the order of calculation. -/
theorem cutName_ne_of_named {entries : List Entry} {w₀ : Workbook} {fs : List Filling} (hload : load entries = .ok w₀)
    (named : ∀ name ∈ filledParts w₀ fs, Archive.cutName name ≠ "") :
    ∀ name ∈ filledParts w₀ fs ++ chainParts w₀ fs, Archive.cutName name ≠ "" := by
  intro name hname
  rcases List.mem_append.mp hname with hname | hname
  · exact named name hname
  · obtain ⟨c, hc, hname⟩ := List.mem_flatMap.mp hname
    simp only [List.mem_cons, List.not_mem_nil, or_false] at hname
    rcases hname with rfl | rfl
    · rw [(ofPackage_eq_ok_iff.mp hload).relationshipsPath]
      exact Archive.cutName_relationships (named _ (path_mem_filledParts hc))
    · decide

/-- After a run of substitutions the container has the entries of the source in their order, except that the
order of calculation may be gone when cells have moved; every entry but those of the filled sheets, the
workbook's document, the texts and what belongs to the order of calculation is there as it was. The parts that
were filled need names for their entries, and the names of all entries have to fit into their headers. -/
theorem generate_untouched {entries : List Entry} {w₀ w : Workbook} {fs : List Filling}
    (distinct : (entries.map (·.name)).Nodup) (hload : load entries = .ok w₀) (run : Run w₀ fs w)
    (named : ∀ name ∈ filledParts w₀ fs, Archive.cutName name ≠ "")
    (fits : ∀ e ∈ entries, w.package.has e.name = true → Archive.fitsHeader e.name = true) (method : Method) :
    ∃ out, w.generate method = .ok out ∧
      (out.map (·.name) = entries.map (·.name) ∨
        ∃ c ∈ lostParts w₀ fs, out.map (·.name) = (entries.map (·.name)).filter (· ≠ c)) ∧
      ∀ e ∈ entries, e.name ∉ changedParts w₀ fs → e ∈ out := by
  have carried := carried_of_run distinct hload run
  have since := carried.package
  refine ⟨w.package.toEntries method, since.pack_eq method (cutName_ne_of_named hload named) fits, ?_, ?_⟩
  · rw [since.names_toEntries]
    have kept : ∀ name ∈ entries.map (·.name), name ∉ lostParts w₀ fs → w.package.has name = true := by
      intro name hname hlost
      obtain ⟨e, he, rfl⟩ := List.mem_map.mp hname
      exact since.kept e he hlost
    by_cases gone : ∃ c ∈ lostParts w₀ fs, w.package.has c = false
    · obtain ⟨c, hc, absent⟩ := gone
      refine Or.inr ⟨c, hc, List.filter_congr fun name hname => ?_⟩
      have only : ∀ other ∈ lostParts w₀ fs, other = c := by
        intro other ho
        unfold lostParts at ho hc
        split at ho
        · next moved =>
          rw [if_pos moved] at hc
          rw [Option.mem_toList] at ho hc
          exact Option.some.inj (ho.symm.trans hc)
        · cases ho
      by_cases e : name = c
      · rw [e, absent]
        simp
      · rw [kept name hname fun hl => e (only name hl)]
        simp [e]
    · refine Or.inl (List.filter_eq_self.mpr fun name hname => ?_)
      by_cases hl : name ∈ lostParts w₀ fs
      · by_contra absent
        exact gone ⟨name, hl, Bool.eq_false_iff.mpr absent⟩
      · exact kept name hname hl
  · intro e he hn
    refine since.mem_toEntries method he (fun h => hn (List.mem_append_left _ h)) fun h => ?_
    exact hn (List.mem_append_right _ h)

/-- An entry whose name does not fit is enough for nothing to be written, also when it was carried through. -/
theorem generate_overlong {entries : List Entry} {w₀ w : Workbook} {fs : List Filling}
    (distinct : (entries.map (·.name)).Nodup) (hload : load entries = .ok w₀) (run : Run w₀ fs w)
    (named : ∀ name ∈ filledParts w₀ fs, Archive.cutName name ≠ "") {e : Entry} (he : e ∈ entries)
    (there : w.package.has e.name = true) (long : Archive.fitsHeader e.name = false) (method : Method) :
    w.generate method = .error .entryNameTooLong := by
  have since := (carried_of_run distinct hload run).package
  cases h : w.generate method with
  | ok out =>
      exact absurd (long.symm.trans (since.admits_of_pack h he there).2) nofun
  | error f =>
      obtain ⟨other, -, -, blamed⟩ := since.blames_of_pack h
      cases f with
      | entryNameTooLong => rfl
      | noEntryName =>
          have written := since.written _ (of_decide_eq_true blamed.1)
          exact absurd blamed.2 (cutName_ne_of_named hload named _ written)
      | _ => cases blamed

/-- A sheet can be filled when one of the parts that are written has no name for an entry, but then nothing can be
written. -/
theorem generate_nameless {entries : List Entry} {w₀ w w' ready : Workbook} {fs : List Filling}
    (distinct : (entries.map (·.name)).Nodup) (fits : ∀ e ∈ entries, Archive.fitsHeader e.name = true)
    (hload : load entries = .ok w₀) (run : Run w₀ fs w) {key : SheetKey} {data : Bindings} {stats : Expand.Stats}
    {sheet : Sheet} (hopen : w.openSheet key = .ok (sheet, ready)) (h : w.substitute key data = (w', .ok stats))
    {name : String} (hn : name ∈ w.path :: w.stringsPath :: sheet.parts) (nameless : Archive.cutName name = "")
    (method : Method) : w'.generate method = .error .noEntryName := by
  have since := (carried_of_run distinct hload (run.substitute hopen h)).package
  obtain ⟨sheet', ready', o, dropped, strings, stages, -⟩ := exists_stages h
  obtain ⟨rfl, rfl⟩ := Prod.mk.inj (Except.ok.inj (hopen.symm.trans stages.open_eq))
  have live := run.live (.load hload)
  have pool : ready.pool = w.pool := by rw [eq_of_openSheet stages.open_eq]
  obtain ⟨info, paths, -⟩ := follows_of_fillSheet (pool ▸ live.sound) stages.fill_eq
  have document : name ∈ (dropped.documents o.sheet strings).map (·.1) := by
    rw [names_documents stages info paths]
    simp only [Sheet.parts, List.mem_cons] at hn ⊢
    tauto
  have package : w'.package = dropped.package.writeDocuments (dropped.documents o.sheet strings) := by
    rw [stages.eq]
  have written : name ∈ w'.package.written := package ▸ Package.mem_written_writeDocuments (.inr document)
  have there : w'.package.has name = true := package ▸ Package.has_writeDocuments (.inr document)
  cases hout : w'.generate method with
  | ok out =>
      obtain ⟨e, he, rfl⟩ := List.mem_map.mp (since.known name there)
      exact absurd nameless ((since.admits_of_pack hout he there).1 (decide_eq_true written))
  | error f =>
      obtain ⟨other, hother, -, blamed⟩ := since.blames_of_pack hout
      cases f with
      | noEntryName => rfl
      | entryNameTooLong => exact absurd (blamed.symm.trans (fits other hother)) nofun
      | _ => cases blamed

end Workbook

namespace Small

open Archive (Entry)
open Markup (Document)

/-- Two texts for the placeholder of the small workbooks. -/
def texts : Bindings := .ofValues [("x", .list [.text "p", .text "q"])]

/-- The workbook with an order of calculation, its first sheet opened. -/
def chainedOne : Workbook := { chained with opened := [one] }

theorem open_chainedOne : chained.openSheet (.name "One") = .ok (one, chainedOne) :=
  openSheet_containerOf chained_distinct rfl rfl rfl (by simp [chainedParts]) (by decide +kernel)

/-- The workbook without a name for its texts, its first sheet opened. -/
def hollowOne : Workbook := { hollow with opened := [one] }

theorem open_hollowOne : hollow.openSheet (.name "One") = .ok (one, hollowOne) :=
  openSheet_containerOf hollow_distinct rfl rfl rfl (by simp [hollowParts]) (by decide +kernel)

theorem fits_containerOf {parts : List (String × Document)}
    (h : ∀ name ∈ parts.map (·.1), Archive.fitsHeader name = true) :
    ∀ e ∈ containerOf parts, Archive.fitsHeader e.name = true :=
  fun _ he => h _ (names_containerOf parts ▸ List.mem_map_of_mem he)

theorem exists_nameless : ∃ w' stats, hollow.substitute (.name "One") (.ofValues []) = (w', .ok stats) ∧
    ∀ method, w'.generate method = .error .noEntryName := by
  have goes : (hollowOne.substitute (.name "One") (.ofValues [])).2.toBool = true := by decide +kernel
  obtain ⟨stats, h⟩ := Workbook.exists_substitute open_hollowOne goes
  have own : "" ∈ hollow.path :: hollow.stringsPath :: one.parts := List.mem_cons_of_mem _ List.mem_cons_self
  have distinct : ((containerOf hollowParts).map (·.name)).Nodup := names_containerOf hollowParts ▸ hollow_distinct
  exact ⟨_, stats, h, Workbook.generate_nameless distinct (fits_containerOf (by decide)) load_hollow .start
    open_hollowOne h own (by decide)⟩

/-- The parts of the small workbook and one more. -/
def partsAnd (name : String) : List (String × Document) := parts ++ [(name, twoDocument)]

/-- The workbook with these parts. -/
def bookAnd (name : String) : Workbook :=
  { book with
    package := .ofEntries (containerOf (partsAnd name))
    document := bookDocument.root
    relationships := linksDocument.root }

section
variable {name : String} (new : name ∉ parts.map (·.1))
include new

theorem partsAnd_distinct : ((partsAnd name).map (·.1)).Nodup := by
  rw [partsAnd, List.map_append]
  refine List.nodup_append.mpr ⟨by decide, List.nodup_singleton _, fun own hown other hother same => ?_⟩
  obtain rfl := List.mem_singleton.mp hother
  exact new (same ▸ hown)

theorem load_partsAnd : Workbook.load (containerOf (partsAnd name)) = .ok (bookAnd name) :=
  loaded_book (partsAnd_distinct new) ⟨_, rfl⟩

theorem generate_partsAnd (long : Archive.fitsHeader name = false) (method : Method) :
    (bookAnd name).generate method = .error .entryNameTooLong := by
  have distinct : ((containerOf (partsAnd name)).map (·.name)).Nodup :=
    names_containerOf (partsAnd name) ▸ partsAnd_distinct new
  have last : (⟨name, .stored, twoDocument.text.toUTF8⟩ : Entry) ∈ containerOf (partsAnd name) :=
    List.mem_map.mpr ⟨(name, twoDocument), List.mem_append_right _ (List.mem_singleton_self _), rfl⟩
  exact Workbook.generate_overlong distinct (load_partsAnd new) .start (fun _ hn => nomatch hn) last
    (Package.has_eq_true_iff.mpr ⟨_, Package.find?_ofEntries_of_mem distinct last⟩) long method

end

/-- A name with fewer characters than the header of an entry has room for bytes, but with more bytes. -/
def overlongName : String := String.ofList (List.replicate 21846 '░')

theorem fitsHeader_overlongName : Archive.fitsHeader overlongName = false :=
  (Archive.fitsHeader_replicate '░' 21846).trans (by decide)

theorem overlongName_notMem : overlongName ∉ parts.map (·.1) := by
  intro known
  have short : ∀ name ∈ parts.map (·.1), Archive.fitsHeader name = true := by decide
  exact absurd (fitsHeader_overlongName.symm.trans (short _ known)) nofun

/-- The texts move a cell of the first sheet, whatever the other sheets are. -/
theorem exists_stages_of_texts {parts : List (String × Document)} (distinct : (parts.map (·.1)).Nodup)
    (types : ("[Content_Types].xml", typesDocument) ∈ parts) {w ready : Workbook}
    (package : ready.package = .ofEntries (containerOf parts)) (document : ready.document = chainedOne.document)
    (pool : ready.pool = chainedOne.pool) (strings : ready.stringsRoot = chainedOne.stringsRoot)
    (chain : ready.calcChain = some "chain.xml") (links : ready.relationshipsPath = "_rels/book.xml.rels")
    (hopen : w.openSheet (.name "One") = .ok (one, ready)) : ∃ o dropped strings w', o.stats.moved = true ∧
      Workbook.Stages w (.name "One") texts one ready o dropped strings w' := by
  have facts : (chainedOne.fillSheet one texts).toOption.map (fun o => (o.stats.moved,
      (o.pool.writeTo chainedOne.stringsRoot).toBool)) = some (true, true) := by decide +kernel
  obtain ⟨o, ho, both⟩ := Option.map_eq_some_iff.mp facts
  replace ho := toOption_eq_some_iff.mp ho
  obtain ⟨moved, writable⟩ := Prod.mk.inj both
  obtain ⟨⟨root, _⟩, hroot⟩ := exists_of_isOk writable
  obtain rfl := (Pool.writeTo_cases hroot).1
  have fill : ready.fillSheet one texts = .ok o := by
    rw [Workbook.fillSheet, document, pool]
    exact ho
  have reads : ready.package.readDocument Vocabulary.contentTypesPart = .ok typesDocument.root := by
    rw [package]
    exact readDocument_containerOf distinct types
  have other : Vocabulary.contentTypesPart ∉ ["chain.xml", ready.relationshipsPath] := by
    rw [links]
    decide
  obtain ⟨dropped, w', stages⟩ := Workbook.exists_stages_of_moved hopen fill moved chain (by decide) reads other
    (strings ▸ hroot)
  exact ⟨o, dropped, root, w', moved, stages⟩

theorem exists_stages_chained : ∃ o dropped strings w', o.stats.moved = true ∧
    Workbook.Stages chained (.name "One") texts one chainedOne o dropped strings w' :=
  exists_stages_of_texts chained_distinct List.mem_cons_self rfl rfl rfl rfl rfl rfl open_chainedOne

end Small

/-- The second sheet is carried through when the texts move a cell of the first. -/
theorem Workbook.generate_untouched_small : ∃ w' stats out,
    Workbook.load (Small.containerOf Small.chainedParts) = .ok Small.chained ∧
      Small.chained.substitute (.name "One") Small.texts = (w', .ok stats) ∧ stats.moved = true ∧
      w'.generate .deflated = .ok out ∧
      (out.map (·.name) = Small.chainedParts.map (·.1) ∨
        out.map (·.name) = (Small.chainedParts.map (·.1)).filter (· ≠ "chain.xml")) ∧
      (⟨"two.xml", .stored, Small.twoDocument.text.toUTF8⟩ : Archive.Entry) ∈ out := by
  obtain ⟨o, dropped, strings, w', moved, stages⟩ := Small.exists_stages_chained
  have run : Run Small.chained [⟨Small.one, o.stats⟩] w' := by
    rw [← List.nil_append [_]]
    exact .substitute .start stages.open_eq stages.substitute_eq
  have lost : lostParts Small.chained [⟨Small.one, o.stats⟩] = ["chain.xml"] := by
    rw [lostParts, if_pos (by simp [moved])]
    rfl
  have changed : changedParts Small.chained [⟨Small.one, o.stats⟩] = ["book.xml", "texts.xml", "one.xml",
      "_rels/book.xml.rels", "[Content_Types].xml", "chain.xml"] := by
    rw [changedParts, chainParts, lost]
    rfl
  have names := Small.names_containerOf Small.chainedParts
  obtain ⟨out, hout, order, kept⟩ := generate_untouched (names ▸ Small.chained_distinct) Small.load_chained run
    (by
      show ∀ name ∈ ["book.xml", "texts.xml", "one.xml"], _
      decide) (fun e he _ => Small.fits_containerOf (by decide) e he) .deflated
  rw [names, lost] at order
  refine ⟨w', o.stats, out, Small.load_chained, stages.substitute_eq, moved, hout, ?_,
    kept _ (List.mem_map.mpr ⟨("two.xml", Small.twoDocument), by simp [Small.chainedParts], rfl⟩) ?_⟩
  · rcases order with order | ⟨c, hc, order⟩
    · exact .inl order
    · exact .inr (List.mem_singleton.mp hc ▸ order)
  · rw [changed]
    decide

/-- A sheet can be filled when the texts are in a part without a name, but then the container is not written. A
container with an entry whose name is too long can be loaded, but even with nothing filled it is not written. -/
theorem Workbook.generate_untouched_fails :
    (Workbook.load (Small.containerOf Small.hollowParts) = .ok Small.hollow ∧
      ((Small.containerOf Small.hollowParts).map (·.name)).Nodup ∧
      ∃ w' stats, Small.hollow.substitute (.name "One") (.ofValues []) = (w', .ok stats) ∧
        w'.generate .stored = .error .noEntryName) ∧
    Workbook.load (Small.containerOf (Small.partsAnd Small.overlongName)) = .ok (Small.bookAnd Small.overlongName) ∧
      ((Small.containerOf (Small.partsAnd Small.overlongName)).map (·.name)).Nodup ∧
      (Small.bookAnd Small.overlongName).generate .stored = .error .entryNameTooLong := by
  obtain ⟨w', stats, goes, fails⟩ := Small.exists_nameless
  have new := Small.overlongName_notMem
  exact ⟨⟨Small.load_hollow, Small.names_containerOf Small.hollowParts ▸ Small.hollow_distinct, w', stats, goes,
      fails .stored⟩,
    Small.load_partsAnd new, Small.names_containerOf (Small.partsAnd _) ▸ Small.partsAnd_distinct new,
    Small.generate_partsAnd new Small.fitsHeader_overlongName .stored⟩

end Gridfill

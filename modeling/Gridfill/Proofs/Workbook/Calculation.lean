import Gridfill.Proofs.Sheet.Gains
import Gridfill.Proofs.Workbook.Reload

/-!
# The order of calculation

The order of calculation is there as it was until a substitution adds a row to a sheet or a cell to a row
(`ChainKept`). That substitution takes it away, with the relationships to it and its content type (`ChainGone`), and
no later one brings anything of it back (`calculation_goes_with_cells`). Its parts must have no other use, or they
are written with the documents (`calculation_changes_with_documents`).
-/

namespace Gridfill

open Archive (Entry)
open Markup (Element)

namespace Workbook

/-! ### One substitution -/

/-- The parts that have to do with an order of calculation. -/
def chainNames (w₀ : Workbook) (part : String) : List String :=
  [part, w₀.relationshipsPath, Vocabulary.contentTypesPart]

/-- The order of calculation in a part is as it was in the workbook that was loaded. -/
structure ChainKept (w₀ : Workbook) (part : String) (w : Workbook) : Prop where
  calcChain : w.calcChain = some part
  relationships : w.relationships = w₀.relationships
  parts : ∀ name ∈ w₀.chainNames part, Package.Leaves name w₀.package w.package

/-- The order of calculation has gone from its part, from the relationships and from the content types. -/
structure ChainGone (w₀ : Workbook) (part : String) (w : Workbook) : Prop where
  calcChain : w.calcChain = none
  absent : w.package.find? part = none
  relationships : w.package.find? w₀.relationshipsPath = some (withoutCalcChain w₀.relationships).toBytes
  types : w.package.find? Vocabulary.contentTypesPart = none ∨
    ∃ types, w₀.package.readDocument Vocabulary.contentTypesPart = .ok types ∧
      w.package.find? Vocabulary.contentTypesPart = some (withoutOverride types part).toBytes

section
variable {w₀ w w' ready dropped : Workbook} {part : String} {key : SheetKey} {data : Bindings} {sheet : Sheet}
  {o : Outcome} {strings : Element}

theorem ChainKept.leaves (h : ChainKept w₀ part w) (chain : w'.calcChain = w.calcChain)
    (relationships : w'.relationships = w.relationships)
    (left : ∀ name ∈ w₀.chainNames part, Package.Leaves name w.package w'.package) : ChainKept w₀ part w' :=
  ⟨chain.trans h.calcChain, relationships.trans h.relationships, fun name hn => (h.parts name hn).trans (left name hn)⟩

theorem ChainGone.leaves (h : ChainGone w₀ part w) (chain : w'.calcChain = w.calcChain)
    (left : ∀ name ∈ w₀.chainNames part, Package.Leaves name w.package w'.package) : ChainGone w₀ part w' := by
  refine ⟨chain.trans h.calcChain, ?_, ?_, ?_⟩
  · rw [(left part (by simp [chainNames])).find, h.absent]
  · rw [(left w₀.relationshipsPath (by simp [chainNames])).find, h.relationships]
  · rw [(left Vocabulary.contentTypesPart (by simp [chainNames])).find]
    exact h.types

/-- Dropping the order of calculation takes it away if cells have moved, and otherwise leaves it as it is. -/
theorem ChainKept.drops (h : ChainKept w₀ part w) (path : w.relationshipsPath = w₀.relationshipsPath)
    (named : part ≠ "") (apart : (w₀.chainNames part).Nodup) {moved : Bool} (hd : Drops w moved w') :
    (moved = false ∧ ChainKept w₀ part w') ∨ (moved = true ∧ ChainGone w₀ part w') := by
  cases hd with
  | kept still =>
      exact Or.inl ⟨Bool.eq_false_iff.mpr fun moved => named (still moved part h.calcChain), h⟩
  | @dropped part' package moves chain _ override =>
      obtain rfl : part = part' := Option.some.inj (h.calcChain.symm.trans chain)
      obtain ⟨⟨noLinks, noTypes⟩, linksApart⟩ : (part ≠ w₀.relationshipsPath ∧ part ≠ Vocabulary.contentTypesPart) ∧
          w₀.relationshipsPath ≠ Vocabulary.contentTypesPart := by
        simpa [chainNames] using apart
      rw [path, h.relationships] at override
      have removed : ((w.package.remove part).writeDocument w₀.relationshipsPath
          (withoutCalcChain w₀.relationships)).find? part = none := by
        rw [(Package.leaves_writeDocument _ _ noLinks).find, Package.find?_remove]
      have links := Package.find?_write (w.package.remove part) w₀.relationshipsPath
        (withoutCalcChain w₀.relationships).toBytes
      have types := (h.parts Vocabulary.contentTypesPart (by simp [chainNames])).trans
        ((Package.leaves_remove w.package noTypes.symm).trans
          (Package.leaves_writeDocument _ (withoutCalcChain w₀.relationships) linksApart.symm))
      refine Or.inr ⟨moves, ?_⟩
      cases override with
      | absent none => exact ⟨rfl, removed, links, Or.inl (Option.not_isSome_iff_eq_none.mp (Bool.eq_false_iff.mp none))⟩
      | @present root hroot =>
          refine ⟨rfl, ?_, ?_, Or.inr ⟨root, types.readDocument ▸ hroot, Package.find?_write _ _ _⟩⟩
          · rw [(Package.leaves_writeDocument _ _ noTypes).find, removed]
          · rw [(Package.leaves_writeDocument _ _ linksApart).find]
            exact links

/-- A workbook without an order of calculation has none to drop. -/
theorem ChainGone.drops (h : ChainGone w₀ part w) {moved : Bool} (hd : Drops w moved w') : ChainGone w₀ part w' := by
  cases hd with
  | kept => exact h
  | dropped _ chain =>
      rw [h.calcChain] at chain
      cases chain

/-- The parts that a substitution does not fill are left alone when its documents are written. -/
theorem Stages.leaves_written (hs : Stages w key data sheet ready o dropped strings w')
    (info : o.sheet.info = sheet.info) (paths : o.sheet.tables.map (·.path) = sheet.tables.map (·.path))
    {name : String} (free : name ∉ w.path :: w.stringsPath :: sheet.parts) :
    Package.Leaves name dropped.package w'.package := by
  rw [hs.eq]
  refine Package.leaves_writeDocuments _ ?_
  rw [names_documents hs info paths]
  simp only [Sheet.parts, List.mem_cons] at free ⊢
  tauto

end

/-! ### A run -/

section
variable {entries : List Entry} {w₀ w : Workbook} {fs : List Filling} {part : String}

/-- After a run the order of calculation is there as it was if no cells have moved, and gone if some have. -/
theorem chain_of_run (distinct : (entries.map (·.name)).Nodup) (hload : load entries = .ok w₀)
    (chain : w₀.calcChain = some part) (named : part ≠ "") (apart : (w₀.chainNames part).Nodup) (run : Run w₀ fs w)
    (alone : ∀ name ∈ w₀.chainNames part, name ∉ filledParts w₀ fs) :
    (fs.any (·.stats.moved) = false ∧ ChainKept w₀ part w) ∨ (fs.any (·.stats.moved) = true ∧ ChainGone w₀ part w) := by
  induction run with
  | start => exact Or.inl ⟨rfl, chain, rfl, fun name _ => .refl name _⟩
  | openSheet _ hopen ih =>
      rw [eq_of_openSheet hopen]
      exact (ih alone).imp (fun h => ⟨h.1, h.2.leaves rfl rfl fun name _ => .refl name _⟩)
        fun h => ⟨h.1, h.2.leaves rfl fun name _ => .refl name _⟩
  | @substitute fs w w' ready key data stats sheet run hopen hsub ih =>
      obtain ⟨sheet', ready', o, dropped, strings, stages, rfl⟩ := exists_stages hsub
      obtain ⟨rfl, rfl⟩ := Prod.mk.inj (Except.ok.inj (hopen.symm.trans stages.open_eq))
      have before := ih fun name hn hm => alone name hn (filledParts_append ▸ List.mem_append_left _ hm)
      have carried := carried_of_run distinct hload run
      have opened := eq_of_openSheet hopen
      have pool : ready.pool = w.pool := by rw [opened]
      obtain ⟨info, paths, -⟩ := follows_of_fillSheet (pool ▸ (run.live (.load hload)).sound) stages.fill_eq
      have written : ∀ name ∈ w₀.chainNames part, Package.Leaves name dropped.package w'.package := by
        intro name hn
        refine stages.leaves_written info paths fun hm => alone name hn ?_
        rw [carried.path, carried.stringsPath] at hm
        exact filledParts_append ▸ List.mem_append_right _ hm
      have place : (ready.putOutcome o).relationshipsPath = w₀.relationshipsPath := by
        show ready.relationshipsPath = _
        rw [opened]
        exact carried.relationshipsPath
      have same : (ready.putOutcome o).calcChain = w.calcChain ∧ (ready.putOutcome o).relationships = w.relationships ∧
          (ready.putOutcome o).package = w.package := by
        show ready.calcChain = _ ∧ ready.relationships = _ ∧ ready.package = _
        rw [opened]
        exact ⟨rfl, rfl, rfl⟩
      have still : ∀ name ∈ w₀.chainNames part, Package.Leaves name w.package (ready.putOutcome o).package := by
        intro name _
        rw [same.2.2]
        exact .refl name _
      have after : w'.calcChain = dropped.calcChain ∧ w'.relationships = dropped.relationships := by
        rw [stages.eq]
        exact ⟨rfl, rfl⟩
      rw [List.any_append, List.any_cons, List.any_nil, Bool.or_false]
      rcases before with ⟨none, kept⟩ | ⟨some, gone⟩
      · rw [none, Bool.false_or]
        exact ((kept.leaves same.1 same.2.1 still).drops place named apart stages.drops).imp
          (fun h => ⟨h.1, h.2.leaves after.1 after.2 written⟩) fun h => ⟨h.1, h.2.leaves after.1 written⟩
      · rw [some, Bool.true_or]
        exact Or.inr ⟨rfl, ((gone.leaves same.1 still).drops stages.drops).leaves after.1 written⟩

end

/-! ### Calls and what they add -/

/-- A substitution that went through: the sheet that it filled, before and after. -/
structure Call where
  before : Sheet
  after : Sheet

/-- The workbooks that come about from one by opening sheets and by substitutions that go through, with what the
substitutions made of their sheets. -/
inductive Calls (w₀ : Workbook) : List Call → Workbook → Prop where
  | start : Calls w₀ [] w₀
  | openSheet {cs : List Call} {w w' : Workbook} {key : SheetKey} {sheet : Sheet} (calls : Calls w₀ cs w)
      (h : w.openSheet key = .ok (sheet, w')) : Calls w₀ cs w'
  | substitute {cs : List Call} {w w' ready again : Workbook} {key : SheetKey} {data : Bindings}
      {stats : Expand.Stats} {before after : Sheet} (calls : Calls w₀ cs w)
      (hopen : w.openSheet key = .ok (before, ready)) (h : w.substitute key data = (w', .ok stats))
      (hagain : w'.openSheet key = .ok (after, again)) : Calls w₀ (cs ++ [⟨before, after⟩]) w'

/-- The call has added a row to its sheet or a cell to a row. -/
def Call.Adds (c : Call) : Prop := c.before.Gains c.after

section
variable {w₀ w w' ready again : Workbook} {key : SheetKey} {data : Bindings} {stats : Expand.Stats}
  {before after : Sheet}

/-- A substitution reports that cells have moved if and only if it has added a row or a cell. -/
theorem moved_iff_gains (hw : w.Live) (hopen : w.openSheet key = .ok (before, ready))
    (h : w.substitute key data = (w', .ok stats)) (hagain : w'.openSheet key = .ok (after, again)) :
    stats.moved = true ↔ before.Gains after := by
  obtain ⟨filled, sheet', by_⟩ := exists_filledBy hw.built hopen h
  obtain ⟨rfl, -⟩ := Prod.mk.inj (Except.ok.inj (hagain.symm.trans by_.opened))
  rw [Expand.gains_iff hw.sound by_.run by_.rows, by_.stats, Expand.Stats.moved, Bool.or_eq_true,
    decide_eq_true_iff, decide_eq_true_iff]

/-- Calls are a run, and cells have moved if and only if one of them has added a row or a cell. -/
theorem Calls.run {cs : List Call} (h : Calls w₀ cs w) (h₀ : w₀.Live) :
    ∃ fs, Run w₀ fs w ∧ fs.map (·.sheet) = cs.map (·.before) ∧
      (fs.any (·.stats.moved) = true ↔ ∃ c ∈ cs, c.Adds) := by
  induction h with
  | start => exact ⟨[], .start, rfl, by simp⟩
  | openSheet _ hopen ih =>
      obtain ⟨fs, run, sheets, moved⟩ := ih
      exact ⟨fs, run.openSheet hopen, sheets, moved⟩
  | @substitute cs w w' ready again key data stats before after _ hopen hsub hagain ih =>
      obtain ⟨fs, run, sheets, moved⟩ := ih
      refine ⟨fs ++ [⟨before, stats⟩], run.substitute hopen hsub, ?_, ?_⟩
      · rw [List.map_append, sheets, List.map_append]
        rfl
      · have own := moved_iff_gains (run.live h₀) hopen hsub hagain
        rw [List.any_append, Bool.or_eq_true, moved]
        simp [own, Call.Adds, or_and_right, exists_or]

end

/-! ### The order of calculation and the cells -/

/-- The order of calculation goes exactly when cells move. As long as no call has added a row to a sheet or a cell to
a row, its part, the relationships of the workbook and the content types are what they were in the container. Once
a call has, its part is absent, the relationships are the original ones in their order without those to an order of
calculation, and the content types, if there are any, are the original ones without that of the part. The three
parts must be different ones and have no other use in the calls. -/
theorem calculation_goes_with_cells {entries : List Entry} {w₀ w : Workbook} {cs : List Call} {part : String}
    (distinct : (entries.map (·.name)).Nodup) (hload : load entries = .ok w₀) (chain : w₀.calcChain = some part)
    (named : part ≠ "") (apart : (w₀.chainNames part).Nodup) (calls : Calls w₀ cs w)
    (alone : ∀ name ∈ w₀.chainNames part, name ≠ w₀.path ∧ name ≠ w₀.stringsPath ∧ ∀ c ∈ cs, name ∉ c.before.parts) :
    ((∀ c ∈ cs, ¬ c.Adds) → ∀ e ∈ entries, e.name ∈ w₀.chainNames part → w.package.find? e.name = some e.content) ∧
    ((∃ c ∈ cs, c.Adds) →
      w.package.has part = false ∧
      (∃ links : Element, w.package.find? w₀.relationshipsPath = some links.toBytes ∧
        links.childrenWith Vocabulary.relationshipItem =
          (w₀.relationships.childrenWith Vocabulary.relationshipItem).filter fun r =>
            !decide (r.attribute? "Type" = some Vocabulary.calcChainType)) ∧
      ∀ content, w.package.find? Vocabulary.contentTypesPart = some content → ∃ types types' : Element,
        w₀.package.readDocument Vocabulary.contentTypesPart = .ok types ∧ content = types'.toBytes ∧
        types'.childrenWith Vocabulary.contentOverride =
          (types.childrenWith Vocabulary.contentOverride).filter fun o =>
            !decide (o.attribute? "PartName" = some ("/" ++ part))) := by
  obtain ⟨fs, run, sheets, moved⟩ := calls.run (.load hload)
  have free : ∀ name ∈ w₀.chainNames part, name ∉ filledParts w₀ fs := by
    intro name hn hm
    obtain ⟨path, strings, own⟩ := alone name hn
    obtain ⟨f, hf, hm⟩ := List.mem_flatMap.mp hm
    have filled : f.sheet ∈ cs.map (·.before) := sheets ▸ List.mem_map_of_mem hf
    obtain ⟨c, hc, same⟩ := List.mem_map.mp filled
    rcases List.mem_cons.mp hm with hm | hm
    · exact path hm
    · rcases List.mem_cons.mp hm with hm | hm
      · exact strings hm
      · exact own c hc (same ▸ hm)
  rcases chain_of_run distinct hload chain named apart run free with ⟨still, kept⟩ | ⟨some, gone⟩
  · have none : ¬ ∃ c ∈ cs, c.Adds := fun adds => by
      rw [moved.mpr adds] at still
      cases still
    refine ⟨fun _ e he hn => ?_, fun adds => absurd adds none⟩
    rw [(kept.parts e.name hn).find, (ofPackage_eq_ok_iff.mp hload).package]
    exact Package.find?_ofEntries_of_mem distinct he
  · obtain ⟨c, hc, adds⟩ := moved.mp some
    refine ⟨fun none => absurd adds (none c hc), fun _ => ⟨?_, ⟨_, gone.relationships, ?_⟩, fun content hcontent => ?_⟩⟩
    · rw [Package.has, gone.absent]
      rfl
    · exact childrenWith_withoutCalcChain w₀.relationships
    · rcases gone.types with absent | ⟨types, reads, written⟩
      · rw [absent] at hcontent
        cases hcontent
      · exact ⟨types, _, reads, Option.some.inj (hcontent.symm.trans written), childrenWith_dropChildren _ _ _⟩

end Workbook

/-! ### Small workbooks -/

/-- The texts add a cell to the first row of the first sheet, and the order of calculation goes. -/
theorem Workbook.calculation_goes_with_cells_small : ∃ w' stats after,
    Workbook.load (Small.containerOf Small.chainedParts) = .ok Small.chained ∧
      Small.chained.substitute (.name "One") Small.texts = (w', .ok stats) ∧
      w'.openSheet (.name "One") = .ok (after, w') ∧ Small.one.Gains after ∧
      w'.package.has "chain.xml" = false ∧ ∃ links : Markup.Element,
        w'.package.find? "_rels/book.xml.rels" = some links.toBytes ∧
        (links.childrenWith Vocabulary.relationshipItem).length = 3 := by
  obtain ⟨o, dropped, strings, w', moved, stages⟩ := Small.exists_stages_chained
  have live := Live.load Small.load_chained
  obtain ⟨filled, after, by_⟩ := exists_filledBy live.built stages.open_eq stages.substitute_eq
  have adds := (moved_iff_gains live stages.open_eq stages.substitute_eq by_.opened).mp moved
  have calls : Calls Small.chained [⟨Small.one, after⟩] w' :=
    @Calls.substitute _ [] _ _ _ _ _ _ _ _ _ .start stages.open_eq stages.substitute_eq by_.opened
  have chain : Small.chained.calcChain = some "chain.xml" := rfl
  obtain ⟨-, gone⟩ := calculation_goes_with_cells
    (Small.names_containerOf Small.chainedParts ▸ Small.chained_distinct) Small.load_chained chain
    (by decide) (by decide) calls (by simp only [List.forall_mem_singleton]; decide)
  obtain ⟨absent, ⟨links, written, rest⟩, -⟩ := gone ⟨_, List.mem_singleton_self _, adds⟩
  refine ⟨w', o.stats, after, Small.load_chained, stages.substitute_eq, by_.opened, adds, absent, links, written, ?_⟩
  rw [rest]
  decide +kernel

namespace Workbook

/-- Filling a sheet without rows, dimension and tables leaves it as it is. -/
theorem fillSheet_bare {w : Workbook} {sheet : Sheet} (rows : sheet.data? = none)
    (dimension : sheet.root.child? Vocabulary.dimension = none) (tables : sheet.tables = []) (data : Bindings) :
    w.fillSheet sheet data = .ok ⟨sheet, w.document, w.pool, .zero⟩ := by
  obtain ⟨info, root, ts⟩ := sheet
  obtain rfl : ts = [] := tables
  have pass : Expand.run ⟨info, root, []⟩ w.document w.pool data =
      .ok ⟨⟨info, root, []⟩, w.document, w.pool, .zero⟩ := by
    rw [Expand.run, rows]
  have grown : Shift.growDimension 0 0 root = .ok root := by
    rw [Shift.growDimension, dimension]
  exact bind_eq_ok_iff.mpr ⟨_, pass, bind_eq_ok_iff.mpr ⟨([], 0), rfl, bind_eq_ok_iff.mpr ⟨_, grown, rfl⟩⟩⟩

/-- A substitution that moves no cells goes through when the pool can be written, and its sheet is printed anew. -/
theorem exists_stages_of_still {w ready : Workbook} {key : SheetKey} {data : Bindings} {sheet : Sheet} {o : Outcome}
    {strings : Element} (hopen : w.openSheet key = .ok (sheet, ready)) (hfill : ready.fillSheet sheet data = .ok o)
    (still : o.stats.moved = false)
    (hstrings : o.pool.writeTo ready.stringsRoot = .ok (strings, o.pool.movedTo ready.stringsRoot))
    (free : o.sheet.info.path ∉ ready.path :: ready.stringsPath :: o.sheet.tables.map (·.path)) :
    ∃ w', Stages w key data sheet ready o (ready.putOutcome o) strings w' ∧
      w'.package.find? o.sheet.info.path = some o.sheet.root.toBytes := by
  have drops : Drops (ready.putOutcome o) o.stats.moved (ready.putOutcome o) := .kept fun moved => by
    rw [still] at moved
    cases moved
  refine ⟨_, ⟨hopen, hfill, drops, hstrings, rfl⟩, ?_⟩
  have others : o.sheet.info.path ∉ ((ready.putOutcome o).documents o.sheet strings).tail.map (·.1) := by
    simp only [documents, List.tail_cons, List.map_cons, List.map_map]
    exact free
  have left := Package.leaves_writeDocuments (ready.package.writeDocument o.sheet.info.path o.sheet.root) others
  exact left.find.trans (Package.find?_write _ _ _)

end Workbook

namespace Small

/-- The sheet that the content types are can be filled, and then the content types are printed anew. -/
theorem exists_stages_types : ∃ o strings w',
    Workbook.Stages typed (.name "Two") (.ofValues []) types typedTwo o (typedTwo.putOutcome o) strings w' ∧
      o.stats.moved = false ∧
      w'.package.find? Vocabulary.contentTypesPart = some typesDocument.root.toBytes := by
  have rows : types.data? = none := Option.isNone_iff_eq_none.mp (by decide +kernel)
  have dimension : types.root.child? Vocabulary.dimension = none := by
    have none : (types.root.child? Vocabulary.dimension).isNone = true := by decide +kernel
    exact Option.isNone_iff_eq_none.mp none
  have fill := Workbook.fillSheet_bare (w := typedTwo) rows dimension rfl (.ofValues [])
  have writable : (typedTwo.pool.writeTo typedTwo.stringsRoot).toBool = true := by decide +kernel
  generalize typedTwo.pool = pool at fill writable
  obtain ⟨⟨strings, _⟩, hstrings⟩ := exists_of_isOk writable
  obtain rfl := (Pool.writeTo_cases hstrings).1
  obtain ⟨w', stages, printed⟩ := Workbook.exists_stages_of_still open_typed.1 fill rfl hstrings
    (show "[Content_Types].xml" ∉ ["book.xml", "texts.xml"] by decide)
  exact ⟨_, strings, w', stages, rfl, printed⟩

end Small

/-- When a sheet has the content types as its part, they change although no cell has moved. -/
theorem Workbook.calculation_changes_with_documents :
    Workbook.load (Small.containerOf Small.typedParts) = .ok Small.typed ∧
      ((Small.containerOf Small.typedParts).map (·.name)).Nodup ∧
      (chainLinks Small.typed.relationships).length = 1 ∧ Small.typed.calcChain = some "chain.xml" ∧
      (Vocabulary.contentTypesPart ≠ "chain.xml" ∧ Small.typed.allParts.Nodup) ∧
      ∃ w' stats after, Small.typed.substitute (.name "Two") (.ofValues []) = (w', .ok stats) ∧
        w'.openSheet (.name "Two") = .ok (after, w') ∧ ¬ Small.types.Gains after ∧
        ∃ e ∈ Small.containerOf Small.typedParts, e.name = Vocabulary.contentTypesPart ∧
          w'.package.find? e.name ≠ some e.content := by
  obtain ⟨o, strings, w', stages, still, printed⟩ := Small.exists_stages_types
  have live := Live.load Small.load_typed
  obtain ⟨filled, after, by_⟩ := exists_filledBy live.built stages.open_eq stages.substitute_eq
  have same := moved_iff_gains live stages.open_eq stages.substitute_eq by_.opened
  refine ⟨Small.load_typed, Small.names_containerOf Small.typedParts ▸ Small.typed_distinct, by decide +kernel, rfl,
    ⟨by decide, Small.allParts_small.2.2⟩, w', o.stats, after, stages.substitute_eq, by_.opened, fun gains => ?_,
    ⟨"[Content_Types].xml", .stored, Small.typesDocument.text.toUTF8⟩, List.mem_cons_self, rfl, fun kept => ?_⟩
  · rw [same.mpr gains] at still
    cases still
  · have fresh : Small.typesDocument.root.toBytes ≠ Small.typesDocument.text.toUTF8 := by decide +kernel
    exact fresh (Option.some.inj (printed.symm.trans kept))

end Gridfill

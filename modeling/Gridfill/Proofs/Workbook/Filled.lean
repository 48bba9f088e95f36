import Gridfill.Proofs.Workbook.Validity

/-!
# The sheet that a substitution leaves

A substitution that goes through has made a pass over the rows of its sheet, and the sheet that is found
afterwards has the rows of that pass; its tables are those of the pass with their column names filled
(`exists_filledBy`).
-/

namespace Gridfill.Workbook

/-- What a substitution makes of its sheet: the pass over the rows, and the sheet that is found afterwards. -/
structure FilledBy (w : Workbook) (key : SheetKey) (data : Bindings) (stats : Expand.Stats) (sheet : Sheet)
    (w' : Workbook) (filled : Expand.Filled) (sheet' : Sheet) : Prop where
  run : Expand.run sheet w.document w.pool data = .ok filled
  opened : w'.openSheet key = .ok (sheet', w')
  pool : w'.pool = filled.pool.movedTo w.stringsRoot
  writable : filled.pool.size < Text.integerBound
  stats : stats = filled.stats
  rows : sheet'.rows = filled.sheet.rows
  tables : ∃ added, Header.fillTables data filled.sheet.tables = .ok (sheet'.tables, added)

section
variable {w w' ready : Workbook} {key : SheetKey} {data : Bindings} {stats : Expand.Stats} {sheet : Sheet}

/-- A substitution reports what its pass has changed. -/
theorem Substitution.stats_eq {o : Outcome} (h : Substitution w key data sheet ready o w')
    (hsub : w.substitute key data = (w', .ok stats)) : stats = o.stats := by
  unfold substitute at hsub
  rw [h.open_eq] at hsub
  simp only [h.fill_eq] at hsub
  split at hsub
  · cases hsub
  · split at hsub
    · cases hsub
    · injection hsub with _ hstats
      exact (Except.ok.inj hstats).symm

theorem document_dropCalcChain (w : Workbook) : w.dropCalcChain.1.document = w.document := by
  unfold dropCalcChain
  split
  · rfl
  · split
    · rfl
    · simp only
      split
      · split <;> rfl
      · rfl

theorem document_flush (w : Workbook) (sheet : Sheet) : (w.flush sheet).1.document = w.document := by
  unfold flush
  simp only
  split <;> rfl

/-- The document of the workbook is that of the pass. -/
theorem Substitution.document_eq {o : Outcome} (h : Substitution w key data sheet ready o w')
    (hsub : w.substitute key data = (w', .ok stats)) : w'.document = o.workbook := by
  unfold substitute at hsub
  rw [h.open_eq] at hsub
  simp only [h.fill_eq] at hsub
  split at hsub
  · cases hsub
  · next dropped hdropped =>
    have kept : dropped.document = o.workbook := by
      split at hdropped
      · have same := document_dropCalcChain (ready.putOutcome o)
        rwa [hdropped] at same
      · injection hdropped with hw
        rw [← hw]
        rfl
    split at hsub
    · cases hsub
    · next written hwritten =>
      have flushed := document_flush dropped o.sheet
      rw [hwritten, kept] at flushed
      injection hsub with hw
      rwa [hw] at flushed

/-- The sheet that is found afterwards has the parts that the pass has left, but for its dimension, and the
workbook has the document of the pass. -/
theorem exists_filledBy_parts (hpool : w.pool.Built) (hopen : w.openSheet key = .ok (sheet, ready))
    (hsub : w.substitute key data = (w', .ok stats)) :
    ∃ filled sheet', FilledBy w key data stats sheet w' filled sheet' ∧ w'.document = filled.workbook ∧
      ∀ tag, tag ≠ Vocabulary.dimension → sheet'.root.childrenWith tag = filled.sheet.root.childrenWith tag := by
  have sound := Pool.sound_of_built hpool
  obtain ⟨sheet₀, ready₀, o, h⟩ := substitute_cases sound hsub
  obtain ⟨rfl, rfl⟩ : sheet = sheet₀ ∧ ready = ready₀ :=
    Prod.mk.inj (Except.ok.inj (hopen.symm.trans h.open_eq))
  have same := eq_of_openSheet hopen
  obtain ⟨filled, tables, added, root, hfilled, htables, hroot, rfl⟩ := fillSheet_cases h.fill_eq
  have parts : ∀ tag, tag ≠ Vocabulary.dimension → root.childrenWith tag = filled.sheet.root.childrenWith tag :=
    fun _ ht => childrenWith_growDimension hroot ht
  refine ⟨filled, ⟨filled.sheet.info, root, tables⟩, ⟨?_, h.openSheet_eq sound, h.pool, h.writable,
    h.stats_eq hsub, ?_, added, htables⟩, h.document_eq hsub, parts⟩
  · rw [same] at hfilled
    exact hfilled
  · exact Sheet.rows_of_childrenWith (parts _ (by decide))

theorem exists_filledBy (hpool : w.pool.Built) (hopen : w.openSheet key = .ok (sheet, ready))
    (hsub : w.substitute key data = (w', .ok stats)) :
    ∃ filled sheet', FilledBy w key data stats sheet w' filled sheet' := by
  obtain ⟨filled, sheet', by_, -⟩ := exists_filledBy_parts hpool hopen hsub
  exact ⟨filled, sheet', by_⟩

end

end Gridfill.Workbook

namespace Gridfill.Small

open Expand (plainElement)
open Markup (Element)

/-- A workbook whose only sheet is opened. -/
def openedBook (sheet : Sheet) (texts : List String) : Workbook where
  package := .ofEntries []
  path := "book.xml"
  document := plainElement "workbook" [] []
  relationshipsPath := "_rels/book.xml.rels"
  relationships := plainElement "Relationships" [] []
  stringsPath := "texts.xml"
  stringsRoot := plainElement "sst" [] []
  calcChain := none
  sheets := [sheet.info]
  opened := [sheet]
  pool := .ofTexts texts

theorem openSheet_openedBook (sheet : Sheet) (texts : List String) :
    (openedBook sheet texts).openSheet (.name sheet.info.name) = .ok (sheet, openedBook sheet texts) := by
  have found : (openedBook sheet texts).findInfo (.name sheet.info.name) = .ok sheet.info := by
    simp [Workbook.findInfo, openedBook, SheetInfo.matchesKey]
  have opened : (openedBook sheet texts).openedAt? sheet.info.path = some sheet := by
    simp [Workbook.openedAt?, openedBook]
  unfold Workbook.openSheet
  refine bind_eq_ok_iff.mpr ⟨sheet.info, found, ?_⟩
  rw [opened]
  rfl

/-- Its sheet can be filled when that can be computed. -/
theorem exists_substitute_openedBook {sheet : Sheet} {texts : List String} {data : Bindings}
    (goes : ((openedBook sheet texts).substitute (.name sheet.info.name) data).2.toBool = true) :
    ∃ w' stats, (openedBook sheet texts).substitute (.name sheet.info.name) data = (w', .ok stats) := by
  obtain ⟨stats, h⟩ := Workbook.exists_substitute (openSheet_openedBook sheet texts) goes
  exact ⟨_, stats, h⟩

/-- Whether the cells of a sheet hold places of a pool can be computed. -/
theorem places_of_all {rows : List Element} {pool : Pool} (h : (rows.all fun row => (cellsOf row).all fun cell =>
    (Cell.place? cell).all fun k => decide (k < pool.size)) = true) :
    ∀ row ∈ rows, ∀ cell ∈ cellsOf row, ∀ k, Cell.place? cell = some k → k < pool.size := by
  intro row hrow cell hcell k hk
  have := List.all_eq_true.mp (List.all_eq_true.mp h row hrow) cell hcell
  rw [hk, Option.all_some] at this
  exact of_decide_eq_true this

end Gridfill.Small

import Gridfill.Proofs.Workbook.Check
import Gridfill.Proofs.Workbook.Substitute

/-!
# A workbook without errors stays without errors

A sheet that is consistent is consistent after it was filled, if nothing was pushed behind the last column
that can be read (`consistent_of_fillSheet`). The other opened sheets keep their documents, and the pool only
grows, so when a report finds no errors the report after a substitution finds none
(`exists_report_of_substitute`). A report speaks of opened sheets only, so the sheet has to be opened before.
-/

namespace Gridfill

open Markup (Element)

/-- The cells of a sheet, its tables and their filters stay within the columns that can be read. -/
structure Sheet.WithinColumns (s : Sheet) : Prop where
  cells : ∀ row ∈ s.rows, ∀ cell ∈ cellsOf row, Gridfill.WithinColumns (cell.attributeOr "r" "")
  tables : ∀ t ∈ s.tables, t.WithinColumns

/-- The rows of a sheet depend on the place of the rows only. -/
theorem Sheet.rows_of_childrenWith {s s' : Sheet}
    (h : s'.root.childrenWith Vocabulary.sheetData = s.root.childrenWith Vocabulary.sheetData) :
    s'.rows = s.rows := by
  rw [Sheet.rows, Sheet.data?, Element.child?_eq_head?, h, ← Element.child?_eq_head?]
  rfl

namespace Workbook

open Check (Consistent Passes)

/-! ### The filled sheet -/

/-- A sheet without errors is without errors after it was filled. -/
theorem consistent_of_fillSheet {w : Workbook} {sheet : Sheet} {data : Bindings} {o : Outcome}
    (hp : w.pool.Sound) (hc : Consistent w.pool.size sheet) (h : w.fillSheet sheet data = .ok o)
    (writable : o.pool.size < Text.integerBound) (within : o.sheet.WithinColumns) :
    Consistent o.pool.size o.sheet := by
  obtain ⟨filled, tables, added, root, hfilled, htables, hroot, rfl⟩ := fillSheet_cases h
  obtain ⟨-, -, f, follows⟩ := Expand.follows_of_run hp hfilled
  have standing := Expand.standing_of_run hp hc.rows
    (fun row hr cell hcell => (hc.places row hr cell hcell).placed) hfilled
  have rows : Sheet.rows ⟨filled.sheet.info, root, tables⟩ = filled.sheet.rows :=
    Sheet.rows_of_childrenWith (childrenWith_growDimension hroot (by decide))
  refine ⟨?_, ?_, ?_, ?_⟩
  · rw [← rows] at standing
    exact standing.inOrder (Int.le_refl 0) within.cells
  · intro row hr cell hcell
    exact Check.placeExists_of_placed writable (standing.placed row (rows ▸ hr) cell hcell)
  · exact (Expand.mergesRead_of_run hfilled hc.merges).of_childrenWith
      (childrenWith_growDimension hroot (by decide))
  · intro t' ht'
    obtain ⟨t, ht, k, hfill⟩ := exists_of_mem_right (Header.forall₂_of_fillTables htables) ht'
    obtain ⟨source, hsource, hfollows⟩ := exists_of_mem_right follows ht
    exact Header.consistent_of_fillTable hfill (hfollows.consistent (hc.tables source hsource))
      (within.tables t' ht')

/-! ### The whole workbook -/

/-- The sheet that was filled is found again by the key that it was filled by. -/
theorem Substitution.openSheet_eq {w w' ready : Workbook} {key : SheetKey} {data : Bindings} {sheet : Sheet}
    {o : Outcome} (h : Substitution w key data sheet ready o w') (hp : w.pool.Sound) :
    w'.openSheet key = .ok (o.sheet, w') := by
  have pool : ready.pool = w.pool := by rw [eq_of_openSheet h.open_eq]
  obtain ⟨info, -, -⟩ := follows_of_fillSheet (pool ▸ hp) h.fill_eq
  obtain ⟨⟨found, hfound, path⟩, -⟩ := openSheet_cases h.open_eq
  have same : w'.findInfo key = w.findInfo key := by
    unfold findInfo
    rw [h.sheets]
  refine openSheet_of_openedAt? (same.trans hfound) ?_
  rw [openedAt?, h.opened, ← openedAt?, openedAt?_putSheet, path, openedAt?_of_openSheet h.open_eq,
    Option.map_some, if_pos (congrArg SheetInfo.path info.symm)]

/-- When the report on a workbook with the sheet opened finds no errors, a substitution in the sheet goes
through and nothing is pushed behind the last column, the report finds no errors afterwards, and the sheet is
consistent: its rows and cells are in order, its cells hold places that the pool has, and its ranges and
tables are as they say. -/
theorem exists_report_of_substitute {w w' ready : Workbook} {key : SheetKey} {data : Bindings}
    {stats : Expand.Stats} {sheet : Sheet} {before : Report} (hw : w.Live)
    (hopen : w.openSheet key = .ok (sheet, ready))
    (hrows : ∀ row ∈ sheet.rows, (∃ number, Expand.ownNumber row = .ok number) ∧
      ∀ cell ∈ cellsOf row, ∃ r, CellRef.parse (cell.attributeOr "r" "") = .ok r)
    (hbefore : Check.report ready = .ok before) (hclean : before.hasErrors = false)
    (hsub : w.substitute key data = (w', .ok stats)) :
    ∃ sheet', w'.openSheet key = .ok (sheet', w') ∧
      (sheet'.WithinColumns → Consistent w'.pool.size sheet' ∧
        ∃ after, Check.report w' = .ok after ∧ after.hasErrors = false) := by
  obtain ⟨sheet₀, ready₀, o, h⟩ := substitute_cases hw.sound hsub
  obtain ⟨rfl, rfl⟩ : sheet = sheet₀ ∧ ready = ready₀ :=
    Prod.mk.inj (Except.ok.inj (hopen.symm.trans h.open_eq))
  refine ⟨o.sheet, h.openSheet_eq hw.sound, fun within => ?_⟩
  have same : ready.pool = w.pool := by rw [eq_of_openSheet hopen]
  have passes := Check.exists_report_iff.mp ⟨before, hbefore, hclean⟩
  have consistent : Consistent ready.pool.size sheet :=
    (Check.passes_checkSheet_iff hrows).mp (passes sheet (mem_opened_of_openSheet hopen))
  have filled : Consistent w'.pool.size o.sheet := by
    rw [h.pool, Pool.size_movedTo]
    exact consistent_of_fillSheet (same ▸ hw.sound) consistent h.fill_eq h.writable within
  refine ⟨filled, Check.exists_report_iff.mpr fun s hs => ?_⟩
  rw [h.opened] at hs
  rcases mem_putSheet hs with rfl | ⟨hs, -⟩
  · exact filled.passes
  · exact Check.passes_checkSheet_mono (same ▸ (h.steps hw.sound).size_le) (passes s hs)

end Workbook

/-- Whether a sheet without tables stays within the columns can be computed. -/
theorem Sheet.withinColumns_of_all {s : Sheet} (tables : s.tables = [])
    (cells : (s.rows.all fun row => (cellsOf row).all fun cell =>
      decide (Gridfill.WithinColumns (cell.attributeOr "r" ""))) = true) : s.WithinColumns where
  cells row hr cell hc := of_decide_eq_true (List.all_eq_true.mp (List.all_eq_true.mp cells row hr) cell hc)
  tables t ht := by
    rw [tables] at ht
    cases ht

namespace Small

/-- A sequence for the placeholder of the small workbook. -/
def sequence : Bindings := .ofValues [("x", .list [.int 1, .int 2])]

/-- The small workbook with its first sheet filled by a sequence, and with its second sheet filled by
nothing. -/
def spread : Workbook := (bookOne.substitute (.name "One") sequence).1

def unfilled : Workbook := (bookTwo.substitute (.name "Two") (.ofValues [])).1

theorem exists_substitute_spread : ∃ stats, book.substitute (.name "One") sequence = (spread, .ok stats) :=
  Workbook.exists_substitute open_one (by decide +kernel)

theorem exists_substitute_two : ∃ stats, book.substitute (.name "Two") (.ofValues []) = (unfilled, .ok stats) :=
  Workbook.exists_substitute open_two (by decide +kernel)

/-- Whether all rows and cells of a sheet carry references can be computed. -/
theorem references_of_all {rows : List Element} (h : (rows.all fun row => (Expand.ownNumber row).toBool &&
    (cellsOf row).all fun cell => (CellRef.parse (cell.attributeOr "r" "")).toBool) = true) :
    ∀ row ∈ rows, (∃ number, Expand.ownNumber row = .ok number) ∧
      ∀ cell ∈ cellsOf row, ∃ r, CellRef.parse (cell.attributeOr "r" "") = .ok r := by
  intro row hr
  obtain ⟨number, cells⟩ := Bool.and_eq_true_iff.mp (List.all_eq_true.mp h row hr)
  exact ⟨exists_of_isOk number, fun cell hc => exists_of_isOk (List.all_eq_true.mp cells cell hc)⟩

/-- The sheet that a workbook opens by a key stays within the columns, as far as it can be computed. -/
theorem withinColumns_of_openSheet {w : Workbook} {key : SheetKey} {sheet : Sheet}
    (h : w.openSheet key = .ok (sheet, w))
    (computed : (w.openSheet key).toOption.elim false (fun r => r.1.tables.isEmpty &&
      r.1.rows.all fun row => (cellsOf row).all fun cell =>
        decide (WithinColumns (cell.attributeOr "r" ""))) = true) : sheet.WithinColumns := by
  rw [h] at computed
  obtain ⟨tables, cells⟩ := Bool.and_eq_true_iff.mp computed
  exact Sheet.withinColumns_of_all (List.isEmpty_iff.mp tables) cells

/-- Whether the report on a workbook finds errors can be computed. -/
theorem exists_report {w : Workbook} {b : Bool}
    (computed : (Check.report w).toOption.map (·.hasErrors) = some b) :
    ∃ r, Check.report w = .ok r ∧ r.hasErrors = b := by
  cases h : Check.report w with
  | error f =>
      rw [h] at computed
      cases computed
  | ok r =>
      rw [h] at computed
      exact ⟨r, rfl, Option.some.inj computed⟩

end Small

/-- The first sheet is without errors after its placeholder was filled by a sequence, which takes up another
column. -/
theorem Workbook.exists_report_of_substitute_spread :
    (∃ before, Check.report Small.bookOne = .ok before ∧ before.hasErrors = false) ∧
      (∃ stats, Small.book.substitute (.name "One") Small.sequence = (Small.spread, .ok stats)) ∧
      ∃ sheet', Small.spread.openSheet (.name "One") = .ok (sheet', Small.spread) ∧ sheet'.WithinColumns ∧
        Check.Consistent Small.spread.pool.size sheet' ∧
        ∃ after, Check.report Small.spread = .ok after ∧ after.hasErrors = false := by
  obtain ⟨stats, hsub⟩ := Small.exists_substitute_spread
  obtain ⟨before, hbefore, hclean⟩ :=
    Small.exists_report (w := Small.bookOne) (b := false) (by decide +kernel)
  obtain ⟨sheet', hopen', valid⟩ := exists_report_of_substitute (.load Small.load_entries) Small.open_one
    (Small.references_of_all (by decide +kernel)) hbefore hclean hsub
  have within := Small.withinColumns_of_openSheet hopen' (by decide +kernel)
  obtain ⟨consistent, after⟩ := valid within
  exact ⟨⟨before, hbefore, hclean⟩, ⟨stats, hsub⟩, sheet', hopen', within, consistent, after⟩

/-- A report on opened sheets only does not see what is wrong with a sheet that a substitution opens. -/
theorem Workbook.report_changes_by_opening :
    Workbook.load Small.entries = .ok Small.book ∧
      (∃ before, Check.report Small.book = .ok before ∧ before.hasErrors = false) ∧
      (∃ stats, Small.book.substitute (.name "Two") (.ofValues []) = (Small.unfilled, .ok stats)) ∧
      (∀ row ∈ Small.two.rows, (∃ number, Expand.ownNumber row = .ok number) ∧
        ∀ cell ∈ cellsOf row, ∃ r, CellRef.parse (cell.attributeOr "r" "") = .ok r) ∧
      (∃ sheet', Small.unfilled.openSheet (.name "Two") = .ok (sheet', Small.unfilled) ∧
        sheet'.WithinColumns) ∧
      ∃ after, Check.report Small.unfilled = .ok after ∧ after.hasErrors = true := by
  have sound := Pool.sound_of_built (built_of_load Small.load_entries)
  obtain ⟨stats, hsub⟩ := Small.exists_substitute_two
  obtain ⟨sheet, ready, o, h⟩ := substitute_cases sound hsub
  have opened := h.openSheet_eq sound
  exact ⟨Small.load_entries, ⟨_, rfl, rfl⟩, ⟨stats, hsub⟩, Small.references_of_all (by decide +kernel),
    ⟨o.sheet, opened, Small.withinColumns_of_openSheet opened (by decide +kernel)⟩,
    Small.exists_report (by decide +kernel)⟩

end Gridfill

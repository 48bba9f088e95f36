import Gridfill.Proofs.Sheet.Header
import Gridfill.Proofs.Sheet.Reach
import Gridfill.Proofs.Workbook.Filled

/-!
# Tables after a substitution

A substitution that inserts no columns leaves every cell in its column, on the row that the rows inserted above it put
it on. A cell that a table covered is covered afterwards if and only if this row is not below the end that the table has
from its start alone (`coverage_after_substitute`): the rows inserted for a row of a table push the rows below it down,
but not the end of the table, which grows only for cells of records that it does not cover.
-/

namespace Gridfill

open Markup (Element)
open CellRef (numbered)

namespace Header

/-- Filling the column names of a table takes no cells from it, and it adds none in the columns that it has. -/
theorem holds_iff_of_fillTable {data : Bindings} {t t' : Table} {n : Nat} (h : fillTable data t = .ok (t', n))
    {e : Extent} (hs : t.Spans e) :
    ∃ r', WrittenAs t' r' ∧ ∀ c m, 1 ≤ c → Reference.lettersNumber e.left.toList ≤ c ∧
      c ≤ Reference.lettersNumber e.right.toList → (r'.holds (numbered c m) = .ok true ↔ e.Holds c m) := by
  obtain ⟨r, hr, rfl⟩ := hs
  obtain ⟨r', written, start, row, last, added, hlast, hlast', -⟩ := writtenAs_of_fillTable h hr
  have valid := CellRange.valid_of_parse hr
  have wide : r'.start.Wide ∧ r'.stop.Wide := by
    rcases written with hr' | ⟨wide, -⟩
    · have valid' := CellRange.valid_of_parse hr'
      exact ⟨valid'.start.wide, valid'.stop.wide⟩
    · exact wide
  rw [valid.stop.wide.columnNumber] at hlast
  rw [wide.2.columnNumber] at hlast'
  obtain rfl := Except.ok.inj hlast
  have wider := Nat.le.intro (Except.ok.inj hlast').symm
  refine ⟨r', written, fun c m hc columns => ?_⟩
  have columns' : Reference.lettersNumber r'.start.column.toList ≤ c ∧
      c ≤ Reference.lettersNumber r'.stop.column.toList := ⟨start ▸ columns.1, Nat.le_trans columns.2 wider⟩
  have top : r'.extent.top = r.extent.top := congrArg CellRef.row start
  have bottom : r'.extent.bottom = r.extent.bottom := row
  rw [CellRange.holds_eq wide.1 wide.2 hc]
  constructor
  · intro held
    obtain ⟨⟨first, low⟩, -⟩ := of_decide_eq_true (Except.ok.inj held)
    exact ⟨⟨by omega, by omega⟩, columns⟩
  · rintro ⟨⟨first, low⟩, -⟩
    have held : r'.extent.Holds c m := ⟨⟨by omega, by omega⟩, columns'⟩
    rw [decide_eq_true held]

end Header

/-! ### A small table -/

namespace Small

open Expand (plainElement plainCell)

/-- A sheet with a list of records and a number below it, both in a table. -/
def coveredSheet : Sheet where
  info := ⟨1, "Data", "sheet1.xml", none⟩
  root := plainElement "worksheet" []
    [plainElement "sheetData" []
      [plainElement "row" [("r", "1")] [plainCell [("r", "A1"), ("t", "s")] "0"],
       plainElement "row" [("r", "2")] [plainCell [("r", "A2")] "7"]]]
  tables := [⟨"table1.xml", plainElement "table" [("ref", "A1:A2")]
    [plainElement "tableColumns" [("count", "1")] [plainElement "tableColumn" [("id", "1"), ("name", "a")] []]]⟩]

/-- Two records for its placeholder. -/
def coveredData : Bindings := .ofValues [("xs", .list [.int 1, .int 2])]

def coveredBook : Workbook := openedBook coveredSheet ["${table:xs}"]

def coveredFilled : Workbook := (coveredBook.substitute (.name "Data") coveredData).1

/-- One row is inserted, and no column. -/
theorem substitute_coveredBook :
    coveredBook.substitute (.name "Data") coveredData = (coveredFilled, .ok ⟨1, 0, 1, 0⟩) := by
  have stats : (coveredBook.substitute (.name "Data") coveredData).2.toOption = some ⟨1, 0, 1, 0⟩ := by decide +kernel
  rw [← toOption_eq_some_iff.mp stats, coveredFilled]

theorem ownNumbers_coveredSheet : coveredSheet.rows.mapM Expand.ownNumber = .ok [1, 2] :=
  toOption_eq_some_iff.mp (by decide +kernel)

theorem openSheet_coveredBook : coveredBook.openSheet (.name "Data") = .ok (coveredSheet, coveredBook) :=
  openSheet_openedBook coveredSheet ["${table:xs}"]

end Small

namespace Workbook

open Expand (blocks effectiveColumns growths ownNumber rowPlace)
open Header (WrittenAs)

/-- A substitution that inserts no columns, in a sheet whose rows carry increasing numbers: with `gs` the rows and how
many rows the pass put behind each, the row of the number `m` is at `moved gs m` with its cells in their columns, and a
cell of it that a table covered is covered if and only if the row is not below the end of the table, which is as many
rows lower as the table starts lower. -/
theorem coverage_after_substitute {w w' ready : Workbook} {key : SheetKey} {data : Bindings} {stats : Expand.Stats}
    {sheet : Sheet} {numbers : List Int} (hpool : w.pool.Built) (hopen : w.openSheet key = .ok (sheet, ready))
    (hnumbers : sheet.rows.mapM ownNumber = .ok numbers) (hincreasing : numbers.Pairwise (· < ·))
    (hsub : w.substitute key data = (w', .ok stats)) (flat : stats.columnsInserted = 0) :
    ∃ sheet', w'.openSheet key = .ok (sheet', w') ∧
      let gs := growths numbers (blocks sheet w.document w.pool data)
      (∀ k row m, sheet.rows[k]? = some row → numbers[k]? = some m → ∃ out columns,
        sheet'.rows[rowPlace sheet w.document w.pool data k]? = some out ∧ ownNumber out = .ok (moved gs m) ∧
          effectiveColumns 0 (cellsOf row) = .ok columns ∧ StandAt (moved gs m) columns (cellsOf out)) ∧
      List.Forall₂ (fun t t' : Table => ∀ r, t.range = .ok r → ∃ r', WrittenAs t' r' ∧
        ∀ c m, 1 ≤ c → r.holds (numbered c m) = .ok true →
          (r'.holds (numbered c (moved gs m)) = .ok true ↔
            moved gs m ≤ r.stop.row + insertedAbove gs r.start.row))
        sheet.tables sheet'.tables := by
  obtain ⟨filled, sheet', by_⟩ := exists_filledBy hpool hopen hsub
  have sound := Pool.sound_of_built hpool
  rw [by_.stats] at flat
  obtain ⟨heads, reaches⟩ := Expand.reaches_of_run sound hnumbers hincreasing by_.run flat
  refine ⟨sheet', by_.opened, ?_, ?_⟩
  · intro k row m hrow hm
    obtain ⟨scope, before, number, walk, out, next, final, reached⟩ := Expand.exists_rowReached sound by_.run hrow
    obtain ⟨e, he, hmean⟩ := reached.row_at (i := 0) rfl
    obtain ⟨columns, hcolumns, stand⟩ := reached.stand flat hmean
    rw [← reached.number_eq heads hm]
    refine ⟨e, columns, by_.rows ▸ he, ?_, hcolumns, stand⟩
    rw [ownNumber, Markup.attributeOr_eq_of_meaning hmean]
    exact reached.step.out_number
  · obtain ⟨added, htables⟩ := by_.tables
    refine forall₂_comp (fun t tf t' reaches hfill r hr => ?_) reaches (Header.forall₂_of_fillTables htables)
    obtain ⟨n, hfill⟩ := hfill
    obtain ⟨e, he, reached⟩ := reaches r.extent ⟨r, hr, rfl⟩
    obtain ⟨r', written, holds⟩ := Header.holds_iff_of_fillTable hfill he
    have valid := CellRange.valid_of_parse hr
    refine ⟨r', written, fun c m hc held => ?_⟩
    rw [CellRange.holds_eq valid.start.wide valid.stop.wide hc] at held
    have held : r.extent.Holds c m := of_decide_eq_true (Except.ok.inj held)
    have columns := held.2
    rw [← reached.left, ← reached.right] at columns
    exact (holds c _ hc columns).trans (reached.holds_iff held)

/-- The cell with the records stays in the table of the small sheet. -/
theorem coverage_after_substitute_small :
    ∃ sheet', Small.coveredFilled.openSheet (.name "Data") = .ok (sheet', Small.coveredFilled) ∧
      ∃ t', sheet'.tables = [t'] ∧ ∃ r', WrittenAs t' r' ∧ r'.holds (numbered 1 1) = .ok true := by
  obtain ⟨sheet', opened, -, tables⟩ := coverage_after_substitute (.ofTexts _) Small.openSheet_coveredBook
    Small.ownNumbers_coveredSheet (by decide) Small.substitute_coveredBook rfl
  obtain ⟨t', _, stays, rest, same⟩ := List.forall₂_cons_left_iff.mp tables
  obtain rfl := List.forall₂_nil_left_iff.mp rest
  refine ⟨sheet', opened, t', same, ?_⟩
  obtain ⟨r', written, holds⟩ := stays ⟨numbered 1 1, numbered 1 2⟩ (toOption_eq_some_iff.mp (by decide +kernel))
  have gs : growths [1, 2] (blocks Small.coveredSheet Small.coveredBook.document Small.coveredBook.pool
      Small.coveredData) = [⟨1, 1⟩, ⟨2, 0⟩] := by decide +kernel
  rw [gs] at holds
  exact ⟨r', written, (holds 1 1 (by decide) (toOption_eq_some_iff.mp (by decide +kernel))).mpr (by decide)⟩

/-- The number below the records is put below the table, whose range has room for both rows without growing. -/
theorem cell_leaves_table :
    (∃ before, Check.report Small.coveredBook = .ok before ∧ before.hasErrors = false) ∧
      Small.coveredBook.openSheet (.name "Data") = .ok (Small.coveredSheet, Small.coveredBook) ∧
      Small.coveredSheet.rows.mapM ownNumber = .ok [1, 2] ∧
      Small.coveredBook.substitute (.name "Data") Small.coveredData = (Small.coveredFilled, .ok ⟨1, 0, 1, 0⟩) ∧
      (∃ t, Small.coveredSheet.tables = [t] ∧ t.Covers 1 2) ∧
      ∃ sheet', Small.coveredFilled.openSheet (.name "Data") = .ok (sheet', Small.coveredFilled) ∧
        (∃ row, sheet'.rows[2]? = some row ∧ ownNumber row = .ok 3 ∧
          (cellsOf row).map (fun cell => (cell.attribute? "r", Cell.valueText cell)) = [(some "A3", some "7")]) ∧
        ∃ t', sheet'.tables = [t'] ∧ ¬ t'.Covers 1 3 := by
  have clean := Small.exists_report (w := Small.coveredBook) (b := false) (by decide +kernel)
  have hsub := Small.substitute_coveredBook
  obtain ⟨_, sheet', by_⟩ := exists_filledBy (.ofTexts _) Small.openSheet_coveredBook hsub
  have opened := by_.opened
  have after : (Small.coveredFilled.openSheet (.name "Data")).toOption.any (fun r =>
      (r.1.rows[2]?.any fun row => (ownNumber row).toOption = some 3 &&
        (cellsOf row).map (fun cell => (cell.attribute? "r", Cell.valueText cell)) = [(some "A3", some "7")]) &&
      (r.1.tables.map fun t => decide (t.Covers 1 3)) = [false]) = true := by decide +kernel
  rw [opened] at after
  obtain ⟨there, tables⟩ := Bool.and_eq_true_iff.mp after
  obtain ⟨row, hrow, there⟩ := (Option.any_eq_true _ _).mp there
  obtain ⟨number, cells⟩ := Bool.and_eq_true_iff.mp there
  obtain ⟨t', ht', uncovered⟩ := List.map_eq_singleton_iff.mp (of_decide_eq_true tables)
  exact ⟨clean, Small.openSheet_coveredBook, Small.ownNumbers_coveredSheet, hsub, ⟨_, rfl, by decide +kernel⟩, sheet',
    opened, ⟨row, hrow, toOption_eq_some_iff.mp (of_decide_eq_true number), of_decide_eq_true cells⟩, t', ht',
    of_decide_eq_false uncovered⟩

end Workbook
end Gridfill

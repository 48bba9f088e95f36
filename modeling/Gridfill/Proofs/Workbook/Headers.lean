import Gridfill.Proofs.Sheet.HeaderRow
import Gridfill.Proofs.Sheet.Reach
import Gridfill.Proofs.Workbook.Filled

/-!
# Column names after a substitution

The cells of a header row are filled with the other cells of the sheet, and the names of the columns of its table in a
pass of their own. Both come to the same: when the cells display the names that the table lists, they do so afterwards
in the columns of the wider range (`headers_agree_after_substitute`).
-/

namespace Gridfill

open Markup (Element)

/-- The cells in the columns of a range display the names that the table lists, of which there are as many. -/
def Table.HeadedBy (t : Table) (range : CellRange) (pool : Pool) (columns : List Nat) (cells : List Element) : Prop :=
  ∃ first last, range.start.columnNumber = .ok first ∧ range.stop.columnNumber = .ok last ∧
    last + 1 = first + t.columnNames.length ∧ Headed pool columns cells first t.columnNames

/-! ### A small table -/

namespace Small

open Expand (plainElement plainCell)

/-- The row of the column names. -/
def headedRow : Element :=
  plainElement "row" [("r", "1")] [plainCell [("r", "A1"), ("t", "s")] "0", plainCell [("r", "B1"), ("t", "s")] "1"]

/-- A sheet with a table of two columns, whose names are a placeholder and a text with one. -/
def headedSheet : Sheet where
  info := ⟨1, "Data", "sheet1.xml", none⟩
  root := plainElement "worksheet" []
    [plainElement "sheetData" [] [headedRow, plainElement "row" [("r", "2")] [plainCell [("r", "A2")] "7"]]]
  tables := [⟨"table1.xml", plainElement "table" [("ref", "A1:B2")]
    [plainElement "tableColumns" [("count", "2")]
      [plainElement "tableColumn" [("id", "1"), ("name", "${xs}")] [],
       plainElement "tableColumn" [("id", "2"), ("name", "in ${y}")] []]]⟩]

/-- Two names for the first column, and a text for the second. -/
def headedData : Bindings := .ofValues [("xs", .list [.text "p", .text "q"]), ("y", .text "z")]

def headedBook : Workbook := openedBook headedSheet ["${xs}", "in ${y}"]

theorem unmarked_headedData : headedData.Unmarked := Bindings.unmarked_ofValues (by decide)

/-- The cells of the small table display its names. -/
theorem headed_headedRow : Headed headedBook.pool [1, 2] (cellsOf headedRow) 1 ["${xs}", "in ${y}"] := by
  have first : Cell.shownText headedBook.pool (plainCell [("r", "A1"), ("t", "s")] "0") = some "${xs}" := by
    decide +kernel
  have second : Cell.shownText headedBook.pool (plainCell [("r", "B1"), ("t", "s")] "1") = some "in ${y}" := by
    decide +kernel
  intro j name hj
  match j with
  | 0 =>
      obtain rfl := Option.some.inj hj
      exact ⟨0, _, rfl, rfl, .inl first⟩
  | 1 =>
      obtain rfl := Option.some.inj hj
      exact ⟨1, _, rfl, rfl, .inl second⟩
  | _ + 2 => cases hj

/-- The names of the small table hold placeholders for texts and for a sequence of texts. -/
theorem worded_headedData : ∀ name ∈ ["${xs}", "in ${y}"], Header.Worded headedData name := by decide +kernel

end Small

namespace Workbook

open CellRef (numbered)
open Expand (effectiveColumns ownNumber rowPlace)
open Header (Worded newNames sequence?)

/-- Take a table and a row of cells in increasing columns, of which those in the columns of the table display the names
that it lists, no cell to the left of them taking more than one column. The placeholders in the names are of the normal
kind, and where one is the whole name, the values that it stands for go into cells as texts. No name asks for a sequence
without elements, and no name becomes a text that is itself a placeholder for a text and that a cell of the sheet
shows. Then the table lists the names that its names become, and the row in the place of the row displays them in the
columns of the range that the table has. When the rows carry increasing numbers and the row is the first of the table,
so is the row in its place. -/
theorem headers_agree_after_substitute {w w' ready : Workbook} {key : SheetKey} {data : Bindings}
    {stats : Expand.Stats} {sheet : Sheet} (hpool : w.pool.Built) (hopen : w.openSheet key = .ok (sheet, ready))
    (hplaces : ∀ row ∈ sheet.rows, ∀ cell ∈ cellsOf row, ∀ k, Cell.place? cell = some k → k < w.pool.size)
    (hmarks : data.Unmarked) (hsub : w.substitute key data = (w', .ok stats)) {i k : Nat} {t : Table} {row : Element}
    {r : CellRange} {columns : List Nat} (ht : sheet.tables[i]? = some t) (hr : t.range = .ok r)
    (hrow : sheet.rows[k]? = some row) (hcolumns : effectiveColumns 0 (cellsOf row) = .ok columns)
    (hincreasing : columns.Pairwise (· < ·)) (agrees : t.HeadedBy r w.pool columns (cellsOf row))
    (narrow : ∀ (j c first : Nat) (cell : Element), r.start.columnNumber = .ok first → columns[j]? = some c →
      (cellsOf row)[j]? = some cell → c < first → cellWidth data (Cell.shownText w.pool cell) = 1)
    (worded : ∀ name ∈ t.columnNames, Worded data name)
    (full : ∀ name ∈ t.columnNames, sequence? data name ≠ some [])
    (apart : ∀ name ∈ t.columnNames, ∀ u ∈ newNames data name, ∀ s, Fills data u s →
      ∀ row ∈ sheet.rows, ∀ cell ∈ cellsOf row, Cell.shownText w.pool cell ≠ some u) :
    ∃ sheet' t' out r' number columns', w'.openSheet key = .ok (sheet', w') ∧ sheet'.tables[i]? = some t' ∧
      sheet'.rows[rowPlace sheet w.document w.pool data k]? = some out ∧ ownNumber out = .ok number ∧
      StandAt number columns' (cellsOf out) ∧ columns'.Pairwise (· < ·) ∧
      t'.columnNames = t.columnNames.flatMap (newNames data) ∧ Header.WrittenAs t' r' ∧
      r'.start.column = r.start.column ∧ t'.HeadedBy r' w'.pool columns' (cellsOf out) ∧
      ∀ numbers, sheet.rows.mapM ownNumber = .ok numbers → numbers.Pairwise (· < ·) →
        numbers[k]? = some r.start.row → number = r'.start.row := by
  have sound := Pool.sound_of_built hpool
  obtain ⟨filled, sheet', by_⟩ := exists_filledBy hpool hopen hsub
  -- the table after the pass over the rows, and then with its names filled
  obtain ⟨-, -, f, follows⟩ := Expand.follows_of_run sound by_.run
  obtain ⟨added, htables⟩ := by_.tables
  obtain ⟨mid, hmid, moves⟩ := exists_of_getElem? follows ht
  obtain ⟨t', ht', n, hfill⟩ := exists_of_getElem? (Header.forall₂_of_fillTables htables) hmid
  have names : mid.columnNames = t.columnNames := by
    unfold Table.columnNames
    rw [moves.columns]
  obtain ⟨rm, hrm, -, left⟩ := moves.start r hr
  obtain ⟨right, -⟩ := moves.stop r rm hr hrm
  obtain ⟨r', written, start, -, c, more, hc, hc', length⟩ := Header.writtenAs_of_fillTable hfill hrm
  have listed : t'.columnNames = t.columnNames.flatMap (newNames data) := by
    rw [← names] at worded full ⊢
    exact Header.columnNames_of_fillTable hfill (fun name hname => (worded name hname).normal) full
  -- the row in the place of the row
  obtain ⟨scope, before, number, walk, out, next, final, reached⟩ := Expand.exists_rowReached sound by_.run hrow
  obtain ⟨e, hout, hm⟩ := reached.row_at (i := 0) rfl
  have own : ownNumber e = .ok number := by
    rw [ownNumber, Markup.attributeOr_eq_of_meaning hm]
    exact reached.step.out_number
  have hholds : ∀ j, Expand.Holds sheet j → j < w.pool.size := by
    rintro j ⟨row, hr, cell, hc, hj⟩
    exact hplaces row hr cell hc j hj
  have stays : ∀ u ∈ t.columnNames.flatMap (newNames data), Cell.Stays (Expand.Holds sheet) data w.pool u := by
    rintro u mem s fills j ⟨row, hr, cell, hc, hj⟩ hget
    obtain ⟨name, hname, hu⟩ := List.mem_flatMap.mp mem
    apply apart name hname u hu s fills row hr cell hc
    rw [Cell.shownText_eq, hj]
    exact hget
  obtain ⟨first, last, hfirst, hlast, size, headed⟩ := agrees
  obtain ⟨columns', stand, increasing, shows⟩ := reached.headed sound hmarks hholds by_.writable hrow hcolumns
    hincreasing headed (fun j c cell => narrow j c first cell hfirst) worded stays hm
  refine ⟨sheet', t', e, r', number, columns', by_.opened, ht', by_.rows ▸ hout, own, stand, increasing, listed,
    written, ?_, ⟨first, last + more, ?_, ?_, ?_, ?_⟩, ?_⟩
  · rw [start, left]
  · rw [CellRef.columnNumber, start, left]
    exact hfirst
  · have same : rm.stop.columnNumber = r.stop.columnNumber := congrArg Reference.columnNumber right
    rw [← Except.ok.inj (hlast.symm.trans (same.symm.trans hc))] at hc'
    exact hc'
  · rw [length, names]
    omega
  · rw [listed, by_.pool]
    exact (headed_movedTo _).mpr shows
  · intro numbers hnumbers hordered hk
    obtain ⟨heads, tables⟩ := Expand.moved_of_run sound hnumbers hordered by_.run
    obtain ⟨mid', hmid', moves'⟩ := exists_of_getElem? tables ht
    obtain rfl : mid = mid' := Option.some.inj (hmid.symm.trans hmid')
    obtain ⟨rm', hrm', top, -⟩ := moves'.start r hr
    obtain rfl : rm = rm' := Except.ok.inj (hrm.symm.trans hrm')
    rw [reached.number_eq heads hk, start, top]

/-- The first column of the small table becomes two, and the three names are displayed in its first row. -/
theorem headers_agree_after_substitute_small :
    ∃ w' stats sheet' t' out r' number columns',
      Small.headedBook.substitute (.name "Data") Small.headedData = (w', .ok stats) ∧
      w'.openSheet (.name "Data") = .ok (sheet', w') ∧ sheet'.tables[0]? = some t' ∧ sheet'.rows[0]? = some out ∧
      StandAt number columns' (cellsOf out) ∧ t'.columnNames = ["p", "q", "in z"] ∧
      t'.HeadedBy r' w'.pool columns' (cellsOf out) ∧ number = r'.start.row := by
  have goes : (Small.headedBook.substitute (.name "Data") Small.headedData).2.toBool = true := by decide +kernel
  obtain ⟨w', stats, hsub⟩ := Small.exists_substitute_openedBook goes
  obtain ⟨t, ht, listed, hr⟩ : ∃ t, Small.headedSheet.tables[0]? = some t ∧ t.columnNames = ["${xs}", "in ${y}"] ∧
      t.range = .ok ⟨numbered 1 1, numbered 2 2⟩ :=
    ⟨_, rfl, by decide +kernel, toOption_eq_some_iff.mp (by decide +kernel)⟩
  have hrow : Small.headedSheet.rows[0]? = some Small.headedRow := rfl
  have hcolumns : effectiveColumns 0 (cellsOf Small.headedRow) = .ok [1, 2] :=
    toOption_eq_some_iff.mp (by decide +kernel)
  have agrees : t.HeadedBy ⟨numbered 1 1, numbered 2 2⟩ Small.headedBook.pool [1, 2] (cellsOf Small.headedRow) := by
    unfold Table.HeadedBy
    rw [listed]
    exact ⟨1, 2, toOption_eq_some_iff.mp (by decide +kernel), toOption_eq_some_iff.mp (by decide +kernel), rfl,
      Small.headed_headedRow⟩
  have full : ∀ name ∈ ["${xs}", "in ${y}"], sequence? Small.headedData name ≠ some [] := by
    have all : ["${xs}", "in ${y}"].all (fun name => (sequence? Small.headedData name).all (!·.isEmpty)) = true := by
      decide +kernel
    intro name hname empty
    have own := List.all_eq_true.mp all name hname
    rw [empty] at own
    cases own
  have bare : ∀ name ∈ ["${xs}", "in ${y}"], ∀ u ∈ newNames Small.headedData name, Placeholder.scan u = [] := by
    decide +kernel
  have new : ["${xs}", "in ${y}"].flatMap (newNames Small.headedData) = ["p", "q", "in z"] := by decide +kernel
  obtain ⟨sheet', t', out, r', number, columns', opened, ht', hout, -, stand, -, names, -, -, headed, top⟩ :=
    headers_agree_after_substitute (.ofTexts _)
      (Small.openSheet_openedBook Small.headedSheet ["${xs}", "in ${y}"]) (Small.places_of_all (by decide +kernel))
      Small.unmarked_headedData hsub ht hr hrow hcolumns (by decide) agrees
      (by
        intro j c first cell hfirst hc _ lt
        have one : first = 1 := Except.ok.inj (hfirst.symm.trans (toOption_eq_some_iff.mp (by decide +kernel)))
        have mem := List.mem_of_getElem? hc
        simp at mem
        omega)
      (by rw [listed]; exact Small.worded_headedData) (by rw [listed]; exact full)
      (by
        rw [listed]
        rintro name hname u hu s ⟨p, scan, -⟩
        rw [bare name hname u hu] at scan
        cases scan)
  rw [listed, new] at names
  refine ⟨w', stats, sheet', t', out, r', number, columns', hsub, opened, ht', hout, stand, names, headed, ?_⟩
  exact top [1, 2] (toOption_eq_some_iff.mp (by decide +kernel)) (by decide) rfl

end Workbook
end Gridfill

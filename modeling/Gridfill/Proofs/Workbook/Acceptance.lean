import Gridfill.Proofs.Workbook.Check
import Mathlib.Data.List.Pairwise

/-!
# What the check of a workbook accepts

A sheet is orderly when its rows have increasing numbers, the cells that carry references stand in their rows in
increasing columns, the places in the pool that cells hold are places of the pool, all ranges read, and tables have as
many columns as they say (`Orderly`). The check goes along rows and cells with the number and the column before them,
and what it compares with these is what the order of all of them is about: it finds no errors exactly in orderly
sheets (`passes_checkSheet_iff_orderly`). Rows without a number are counted, and cells with an empty reference are
cells without one.
-/

namespace Gridfill

open Markup (Element)

namespace Check

/-! ### Orderly sheets -/

/-- The cells that carry a reference. -/
def referenced (cells : List Element) : List Element := cells.filter fun cell => cell.attributeOr "r" "" ≠ ""

/-- The reference of the cell is one to the row of the given number and to the given column. -/
def StandsIn (number : Int) (cell : Element) (column : Nat) : Prop :=
  ∃ r, CellRef.parse (cell.attributeOr "r" "") = .ok r ∧ r.row = number ∧ r.columnNumber = .ok column

/-- The cells of a row that carry references stand in the row of the given number, in increasing columns. -/
def RowStands (row : Element) (number : Int) : Prop :=
  ∃ columns, List.Forall₂ (StandsIn number) (referenced (cellsOf row)) columns ∧ columns.Pairwise (· < ·)

/-- The numbers of rows that come behind one of the number `last`: those that they carry, and one behind the row before
it for a row that carries none. -/
inductive Numbered : Int → List Element → List Int → Prop where
  | nil {last : Int} : Numbered last [] []
  | own {last number : Int} {row : Element} {rows : List Element} {numbers : List Int} {text : String}
      (carried : row.attribute? "r" = some text) (reads : parseInteger text = .ok number)
      (rest : Numbered number rows numbers) : Numbered last (row :: rows) (number :: numbers)
  | next {last : Int} {row : Element} {rows : List Element} {numbers : List Int}
      (bare : row.attribute? "r" = none) (rest : Numbered (last + 1) rows numbers) :
      Numbered last (row :: rows) ((last + 1) :: numbers)

/-- The text that a cell holds between blanks. -/
def heldText (cell : Element) : List Char := Text.strip ((Cell.valueText cell).getD "").toList

/-- If the cell is one with a place in the pool, it holds decimal digits, no more than a number may have, of a place
below the given size. -/
def HoldsPlace (size : Nat) (cell : Element) : Prop :=
  cell.attribute? "t" = some "s" →
    ∃ ds, Text.Figures (heldText cell) ds ∧ ds.length ≤ Text.maxDigits ∧ Text.ofDigits ds < size

/-- A sheet with rows and cells in order, ranges that read, and tables that have as many columns as they say. -/
structure Ordered (s : Sheet) : Prop where
  rows : ∃ numbers, Numbered 0 s.rows numbers ∧ (∀ n ∈ numbers, 0 < n) ∧ numbers.Pairwise (· < ·) ∧
    List.Forall₂ RowStands s.rows numbers
  merges : MergesRead s.root
  tables : ∀ t ∈ s.tables, t.Consistent

/-- A sheet in order whose cells hold places of a pool of the given size. -/
structure Orderly (size : Nat) (s : Sheet) : Prop extends Ordered s where
  places : ∀ row ∈ s.rows, ∀ cell ∈ cellsOf row, HoldsPlace size cell

/-! ### Cells -/

theorem placeExists_iff_holdsPlace {size : Nat} {cell : Element} : PlaceExists size cell ↔ HoldsPlace size cell := by
  refine imp_congr_right fun _ => ?_
  have read (n : Int) : parseInteger (String.ofList (heldText cell)) = .ok n ↔
      Text.readInteger (heldText cell) = .ok n := by
    rw [parseInteger_eq_ok_iff, String.toList_ofList]
  show Text.isDigitRun (heldText cell) = true ∧ (∃ i, parseInteger (String.ofList (heldText cell)) = .ok i ∧ i < size) ↔ _
  constructor
  · rintro ⟨digits, i, hi, hlt⟩
    obtain ⟨ds, figures, short, rfl⟩ := Text.isDigitRun_and_readInteger_iff.mp ⟨digits, (read i).mp hi⟩
    exact ⟨ds, figures, short, Int.ofNat_lt.mp hlt⟩
  · rintro ⟨ds, figures, short, hlt⟩
    obtain ⟨digits, hi⟩ := Text.isDigitRun_and_readInteger_iff.mpr ⟨ds, figures, short, rfl⟩
    exact ⟨digits, _, (read _).mpr hi, Int.ofNat_lt.mpr hlt⟩

/-- Columns are numbered from one. -/
theorem StandsIn.pos {number : Int} {cell : Element} {column : Nat} (h : StandsIn number cell column) : 0 < column := by
  obtain ⟨r, hr, -, hc⟩ := h
  obtain ⟨c, positive, -, hc', -⟩ := (CellRef.valid_of_parse hr).columnNumber
  obtain rfl := Except.ok.inj (hc.symm.trans hc')
  exact positive

section
variable (sheet : String) (size : Nat)

/-- Cells that carry no reference pass when they hold a place and the others pass behind the same column. -/
theorem passes_checkCells_bare {number last : Int} {cell : Element} (h : cell.attributeOr "r" "" = "")
    (cells : List Element) : Passes (checkCells sheet size number last (cell :: cells)) ↔
      PlaceExists size cell ∧ Passes (checkCells sheet size number last cells) := by
  rw [checkCells, checkCell_of_bare sheet size number last h, ← passes_checkPlace_iff sheet size]
  cases checkPlace sheet size cell with
  | error f => exact ⟨fun hp => absurd hp (not_passes_error f), fun hp => absurd hp.1 (not_passes_error f)⟩
  | ok place => exact passes_bind_iff (x := .ok place)

/-- A cell whose reference does not read does not pass. -/
theorem not_passes_checkCells {number last : Int} {cell : Element} {f : Failure} (own : cell.attributeOr "r" "" ≠ "")
    (h : CellRef.parse (cell.attributeOr "r" "") = .error f) (cells : List Element) :
    ¬ Passes (checkCells sheet size number last (cell :: cells)) := by
  rw [checkCells, checkCell]
  simp only [own, if_false, h]
  rcases orIssue_error (α := CellRef) f (problem sheet .range) with ⟨text, ht⟩ | ⟨e, he⟩
  · rw [ht]
    intro hp
    exact not_passes_issue rfl (passes_bind_iff (x := .ok [problem sheet .range text]).mp hp).1
  · rw [he]
    exact not_passes_error e

/-- Cells pass when those that carry references stand in increasing columns behind `last` and all of them hold
places. -/
theorem passes_checkCells_iff_stand {number : Int} : ∀ {cells : List Element} {last : Nat},
    Passes (checkCells sheet size number last cells) ↔
      (∃ columns, List.Forall₂ (StandsIn number) (referenced cells) columns ∧ (last :: columns).Pairwise (· < ·)) ∧
        ∀ cell ∈ cells, HoldsPlace size cell
  | [], last =>
      ⟨fun _ => ⟨⟨[], .nil, List.pairwise_singleton _ _⟩, fun _ h => by cases h⟩, fun _ => passes_nil⟩
  | cell :: cells, last => by
      rw [List.forall_mem_cons, ← placeExists_iff_holdsPlace]
      by_cases own : cell.attributeOr "r" "" = ""
      · have skipped : referenced (cell :: cells) = referenced cells := List.filter_cons_of_neg (by simpa using own)
        rw [passes_checkCells_bare sheet size own, passes_checkCells_iff_stand, skipped]
        exact and_left_comm
      · have kept : referenced (cell :: cells) = cell :: referenced cells := List.filter_cons_of_pos (by simpa using own)
        rw [kept]
        cases hr : CellRef.parse (cell.attributeOr "r" "") with
        | error f =>
            refine ⟨fun h => absurd h (not_passes_checkCells sheet size own hr cells), ?_⟩
            rintro ⟨⟨columns, stand, -⟩, -⟩
            obtain ⟨c, rest, ⟨r, hr', -⟩, -⟩ := List.forall₂_cons_left_iff.mp stand
            rw [hr] at hr'
            cases hr'
        | ok r =>
            obtain ⟨c, -, -, hc, -⟩ := (CellRef.valid_of_parse hr).columnNumber
            -- the others stand behind this column, so as the order is transitive they stand behind `last`
            rw [passes_checkCells_cons sheet size hr hc, passes_checkCells_iff_stand]
            constructor
            · rintro ⟨⟨⟨hrow, hlt⟩, place⟩, ⟨columns, stand, increase⟩, places⟩
              exact ⟨⟨c :: columns, .cons ⟨r, hr, hrow, hc⟩ stand,
                List.pairwise_cons_cons_iff_of_trans.mpr ⟨hlt, increase⟩⟩, place, places⟩
            · rintro ⟨⟨columns, stand, increase⟩, place, places⟩
              obtain ⟨c', rest, ⟨r', hr', hrow, hc'⟩, others, rfl⟩ := List.forall₂_cons_left_iff.mp stand
              obtain rfl : r = r' := Except.ok.inj (hr.symm.trans hr')
              obtain rfl : c = c' := Except.ok.inj (hc.symm.trans hc')
              obtain ⟨hlt, increase⟩ := List.pairwise_cons_cons_iff_of_trans.mp increase
              exact ⟨⟨⟨hrow, hlt⟩, place⟩, ⟨rest, others, increase⟩, places⟩

/-! ### Rows -/

/-- The cells of a row pass when they stand in it and hold places. -/
theorem passes_checkCells_iff_rowStands {number : Int} {row : Element} :
    Passes (checkCells sheet size number 0 (cellsOf row)) ↔
      RowStands row number ∧ ∀ cell ∈ cellsOf row, HoldsPlace size cell := by
  have stand : Passes (checkCells sheet size number (0 : Nat) (cellsOf row)) ↔ _ :=
    passes_checkCells_iff_stand sheet size
  refine stand.trans (and_congr_left' ?_)
  refine exists_congr fun columns => and_congr_right fun stand => ?_
  rw [List.pairwise_cons]
  refine and_iff_right fun c hc => ?_
  obtain ⟨cell, -, hcell⟩ := exists_of_mem_right stand hc
  exact hcell.pos

/-- The first of numbered rows has the number that the check gives it. -/
theorem numbered_cons_iff {last : Int} {row : Element} {rows : List Element} {numbers : List Int} :
    Numbered last (row :: rows) numbers ↔
      ∃ number rest, rowNumber last row = .ok number ∧ Numbered number rows rest ∧ numbers = number :: rest := by
  unfold rowNumber
  constructor
  · intro h
    cases h with
    | own carried reads rest =>
        rw [carried]
        exact ⟨_, _, reads, rest, rfl⟩
    | next bare rest =>
        rw [bare]
        exact ⟨_, _, rfl, rest, rfl⟩
  · rintro ⟨number, rest, h, numbered, rfl⟩
    cases carried : row.attribute? "r" with
    | some text =>
        rw [carried] at h
        exact .own carried h numbered
    | none =>
        rw [carried] at h
        obtain rfl := Except.ok.inj h
        exact .next carried numbered

/-- Rows pass when their numbers increase from `last`, their cells stand in them and all of them hold places. -/
theorem passes_checkRows_iff_stand : ∀ {rows : List Element} {last : Int},
    Passes (checkRows sheet size last rows) ↔
      (∃ numbers, Numbered last rows numbers ∧ (last :: numbers).Pairwise (· < ·) ∧
        List.Forall₂ RowStands rows numbers) ∧
      ∀ row ∈ rows, ∀ cell ∈ cellsOf row, HoldsPlace size cell
  | [], last =>
      ⟨fun _ => ⟨⟨[], .nil, List.pairwise_singleton _ _, .nil⟩, fun _ h => by cases h⟩, fun _ => passes_nil⟩
  | row :: rows, last => by
      rw [List.forall_mem_cons]
      cases hn : rowNumber last row with
      | error f =>
          constructor
          · intro h
            rw [checkRows, hn] at h
            exact absurd h (not_passes_error f)
          · rintro ⟨⟨numbers, numbered, -⟩, -⟩
            obtain ⟨number, rest, h, -⟩ := numbered_cons_iff.mp numbered
            rw [hn] at h
            cases h
      | ok number =>
          rw [passes_checkRows_cons sheet size hn, passes_checkCells_iff_rowStands, passes_checkRows_iff_stand]
          constructor
          · rintro ⟨hlt, ⟨stands, place⟩, ⟨numbers, numbered, increase, stand⟩, places⟩
            exact ⟨⟨number :: numbers, numbered_cons_iff.mpr ⟨number, numbers, hn, numbered, rfl⟩,
              List.pairwise_cons_cons_iff_of_trans.mpr ⟨hlt, increase⟩, .cons stands stand⟩, place, places⟩
          · rintro ⟨⟨numbers, numbered, increase, stand⟩, place, places⟩
            obtain ⟨number', rest, hn', others, rfl⟩ := numbered_cons_iff.mp numbered
            obtain rfl : number = number' := Except.ok.inj (hn.symm.trans hn')
            obtain ⟨stands, stand⟩ := List.forall₂_cons.mp stand
            obtain ⟨hlt, increase⟩ := List.pairwise_cons_cons_iff_of_trans.mp increase
            exact ⟨hlt, ⟨stands, place⟩, ⟨rest, others, increase, stand⟩, places⟩

end

/-- The check of a sheet finds no errors exactly when the sheet is orderly. -/
theorem passes_checkSheet_iff_orderly {size : Nat} {s : Sheet} : Passes (checkSheet size s) ↔ Orderly size s := by
  rw [passes_checkSheet_parts, passes_checkRows_iff_stand]
  constructor
  · rintro ⟨⟨⟨numbers, numbered, increase, stand⟩, places⟩, merges, tables⟩
    obtain ⟨positive, increase⟩ := List.pairwise_cons.mp increase
    exact ⟨⟨⟨numbers, numbered, positive, increase, stand⟩, merges, tables⟩, places⟩
  · rintro ⟨⟨⟨numbers, numbered, positive, increase, stand⟩, merges, tables⟩, places⟩
    exact ⟨⟨⟨numbers, numbered, List.pairwise_cons.mpr ⟨positive, increase⟩, stand⟩, places⟩, merges, tables⟩

end Check
end Gridfill

import Gridfill.Proofs.Sheet.Rows

/-!
# Rows and cells in order

A pass over a sheet whose rows have increasing numbers leaves rows of increasing numbers. The rows inserted
before a row have moved it by as much as they take up (`walkRows_standing`), and within each row the walk
has put the cells into increasing columns. Whether the rows and cells can be read again is a question of
the columns only: they can if no cell was pushed behind the last column (`RowsStanding.inOrder`).
-/

namespace Gridfill

open Markup (Element Scope)
open CellRef (numbered)

/-! ### Sheets in order -/

/-- The cells stand in the row of the given number, in increasing columns behind `last`. -/
def CellsInOrder (number : Int) : Nat → List Element → Prop
  | _, [] => True
  | last, cell :: cells => ∃ r c, CellRef.parse (cell.attributeOr "r" "") = .ok r ∧ r.row = number ∧
      r.columnNumber = .ok c ∧ last < c ∧ CellsInOrder number c cells

/-- The rows have increasing numbers behind `last`, and their cells are in order. -/
def RowsInOrder : Int → List Element → Prop
  | _, [] => True
  | last, row :: rows => ∃ number, Expand.ownNumber row = .ok number ∧ last < number ∧
      CellsInOrder number 0 (cellsOf row) ∧ RowsInOrder number rows

/-- Rows in order carry numbers, and their cells references. -/
theorem RowsInOrder.references : ∀ {rows : List Element} {last : Int}, RowsInOrder last rows →
    ∀ row ∈ rows, (∃ number, Expand.ownNumber row = .ok number) ∧
      ∀ cell ∈ cellsOf row, ∃ r, CellRef.parse (cell.attributeOr "r" "") = .ok r
  | [], _, _, _, hr => by cases hr
  | row :: rows, _, h, r, hr => by
      obtain ⟨number, hnumber, -, cells, rest⟩ := h
      rcases List.mem_cons.mp hr with rfl | hr
      · refine ⟨⟨number, hnumber⟩, ?_⟩
        generalize 0 = last at cells
        generalize cellsOf r = es at cells
        induction es generalizing last with
        | nil => simp
        | cons e es ih =>
            obtain ⟨ref, c, href, -, -, -, others⟩ := cells
            exact List.forall_mem_cons.mpr ⟨⟨ref, href⟩, ih c others⟩
      · exact rest.references r hr

namespace Expand

/-- Cells in order are in increasing columns for the walk along the row. -/
theorem columnsIncrease_of_inOrder {number : Int} : ∀ {cells : List Element} {last : Nat},
    CellsInOrder number last cells → ColumnsIncrease last cells
  | [], _, _ => trivial
  | cell :: cells, last, h => by
      obtain ⟨r, c, hr, -, hc, hlt, rest⟩ := h
      intro column hcolumn
      have own : cell.attributeOr "r" "" ≠ "" := by
        intro e
        rw [e] at hr
        cases hr
      unfold effectiveColumn at hcolumn
      simp only [own, if_false, hr] at hcolumn
      obtain rfl : c = column := Except.ok.inj (hc.symm.trans hcolumn)
      exact ⟨hlt, columnsIncrease_of_inOrder rest⟩

/-! ### Rows that stand -/

/-- A row carries its number, its cells stand in it in increasing columns, and they hold places below
`size`. -/
structure Standing (size : Nat) (number : Int) (row : Element) : Prop where
  number_eq : ownNumber row = .ok number
  writable : number.natAbs < Text.integerBound
  cells : ∃ columns, StandAt number columns (cellsOf row) ∧ columns.Pairwise (· < ·) ∧ ∀ c ∈ columns, 0 < c
  placed : ∀ e ∈ cellsOf row, Cell.Placed size e

/-- The rows stand at increasing numbers behind `last`. -/
def RowsStanding (size : Nat) : Int → List Element → Prop
  | _, [] => True
  | last, row :: rows => ∃ number, last < number ∧ Standing size number row ∧ RowsStanding size number rows

theorem Standing.mono {size size' : Nat} {number : Int} {row : Element} (h : Standing size number row)
    (hle : size ≤ size') : Standing size' number row :=
  ⟨h.number_eq, h.writable, h.cells, fun e he => (h.placed e he).mono hle⟩

theorem Standing.of_meaning {size : Nat} {number : Int} {a b : Element} (hm : a.meaning = b.meaning)
    (h : Standing size number b) : Standing size number a := by
  have cells : (cellsOf a).map Element.meaning = (cellsOf b).map Element.meaning := by
    rw [cellsOf, cellsOf, ← Element.childrenWith_meaning, hm, Element.childrenWith_meaning]
  refine ⟨?_, h.writable, ?_, fun e he => ?_⟩
  · rw [ownNumber, Markup.attributeOr_eq_of_meaning hm]
    exact h.number_eq
  · obtain ⟨columns, stand, bounds⟩ := h.cells
    exact ⟨columns, stand.of_meaning cells, bounds⟩
  · obtain ⟨d, hd, hm'⟩ := List.mem_map.mp (cells ▸ List.mem_map_of_mem he)
    exact (h.placed d hd).of_meaning hm'.symm

theorem RowsStanding.of_meaning {size : Nat} : ∀ {last : Int} {as bs : List Element},
    as.map Element.meaning = bs.map Element.meaning → RowsStanding size last bs → RowsStanding size last as
  | _, [], _, _, _ => trivial
  | _, _ :: _, [], hm, _ => by cases hm
  | last, a :: as, b :: bs, hm, h => by
      rw [List.map_cons, List.map_cons] at hm
      injection hm with hm hms
      obtain ⟨number, hlt, row, rest⟩ := h
      exact ⟨number, hlt, row.of_meaning hm, rest.of_meaning hms⟩

/-- New rows stand directly behind their row, in front of rows that stand further down. -/
theorem standing_newRows {limit size size' : Nat} (hle : size ≤ size') : ∀ {rows : List NewRow} {number : Int}
    {rest : List Element}, FitRows True number (fun _ => limit) size rows →
      RowsStanding size' (number + rows.length) rest → RowsStanding size' number (rows.map (·.row) ++ rest)
  | [], number, rest, _, h => by
      rw [List.length_nil, Int.natCast_zero, Int.add_zero] at h
      exact h
  | r :: rows, number, rest, fit, h => by
      have first := fit 0 r rfl
      rw [Int.natCast_zero, Int.add_zero] at first
      have others : FitRows True (number + 1) (fun _ => limit) size rows := by
        intro i q hq
        have next := fit (i + 1) q hq
        have e : number + ((i + 1 : Nat) : Int) + 1 = number + 1 + i + 1 := by omega
        rwa [e] at next
      have e : number + ((r :: rows).length : Int) = number + 1 + rows.length := by
        rw [List.length_cons]
        omega
      rw [e] at h
      obtain ⟨s, hs, -⟩ := first.ref
      obtain ⟨columns, stand, bounds⟩ := first.cells
      obtain ⟨increase, within⟩ := bounds trivial
      exact ⟨number + 1, by omega,
        ⟨first.parse, (writeInteger_eq_ok_iff.mp hs).1,
          ⟨columns, stand, increase, fun c hc => (within c hc).1⟩, fun e he => (first.placed e he).mono hle⟩,
        standing_newRows hle others h⟩

/-! ### The rows of a pass -/

section
variable {name : String} {data : Bindings} {scope : Scope}

/-- The row that a step has filled stands at its number. -/
theorem RowStep.standing {pass next : Pass} {row out : Element} {number : Int} {walk : Walk}
    (step : RowStep name data scope pass row number walk out next) {before : Pool}
    (filled : RowFilled True number 0 (cellsOf row) before walk.work.pool walk.cells)
    (placed : ∀ cell ∈ cellsOf row, Cell.Placed before.size cell) :
    Standing walk.work.pool.size number out := by
  have cells := step.out_cells filled.tags
  refine ⟨?_, step.writable, ?_, fun e he => ?_⟩
  · rw [ownNumber, Element.attributeOr, step.out_ref]
    exact parseInteger_of_write (writeInteger_eq_ok_iff.mpr ⟨step.writable, rfl⟩)
  · obtain ⟨columns, stand, bounds⟩ := filled.stand
    exact ⟨columns, stand.of_meaning cells, bounds trivial⟩
  · obtain ⟨d, hd, hm⟩ := List.mem_map.mp (cells ▸ List.mem_map_of_mem he)
    exact (filled.placed placed d hd).of_meaning hm.symm

/-- The rows that a pass has put in the place of rows in order stand behind its last row: the row of the
number `m` comes to stand at `m` moved by the rows inserted so far, and the last row before it has moved as
far. -/
theorem walkRows_standing : ∀ {rows : List Element} {last : Int} {pass final : Pass}, PassReady pass →
    (∀ row ∈ rows, row.tag = Vocabulary.worksheetRow) → RowsInOrder last rows →
    (∀ row ∈ rows, ∀ cell ∈ cellsOf row, Cell.Placed pass.pool.size cell) →
    pass.lastRow = last + pass.stats.rowsInserted →
    walkRows name data scope rows pass = .ok final →
      RowsStanding final.pool.size pass.lastRow (rowBlocks name data scope rows pass).flatten
  | [], last, pass, final, _, _, _, _, _, _ => trivial
  | row :: rows, last, pass, final, ready, htags, horder, placed, hlast, h => by
      obtain ⟨next, hnext, h⟩ := bind_eq_ok_iff.mp h
      obtain ⟨number, walk, out, step⟩ := stepRow_cases hnext
      obtain ⟨m, hm, hlt, cells, rest⟩ := horder
      have htag := htags row List.mem_cons_self
      obtain ⟨follows, filled, limit, newRows⟩ := step.walked (fun _ => True) htag ready.sound
        (fun _ _ _ _ => trivial) (fun _ : True => columnsIncrease_of_inOrder cells)
      obtain ⟨steps, ready'⟩ := step.next (fun _ => True) ready htag fun _ _ _ _ => trivial
      have htags' : ∀ r ∈ rows, r.tag = Vocabulary.worksheetRow := fun r hr =>
        htags r (List.mem_cons_of_mem row hr)
      obtain ⟨more, -⟩ := walkRows_ready (fun _ => True) ready' htags' (fun _ _ _ _ _ _ => trivial) h
      have hnumber : number = m + pass.stats.rowsInserted := currentNumber_eq hm step.number_eq
      have hinserted : next.stats.rowsInserted = pass.stats.rowsInserted + walk.work.newRows.length :=
        step.rowsInserted.trans (congrArg (· + walk.work.newRows.length) follows.rowsInserted)
      have hlast' : next.lastRow = m + next.stats.rowsInserted := by
        rw [step.lastRow, hnumber, hinserted]
        omega
      have tail := walkRows_standing ready' htags' rest
        (fun r hr cell hc => (placed r (List.mem_cons_of_mem row hr) cell hc).mono steps.size_le) hlast' h
      have hle : walk.work.pool.size ≤ final.pool.size := step.pool ▸ more.size_le
      have blocks : (rowBlocks name data scope (row :: rows) pass).flatten =
          out :: (walk.work.newRows.map (·.row) ++ (rowBlocks name data scope rows next).flatten) := by
        simp only [rowBlocks, hnext, step.block, List.flatten_cons, List.cons_append]
      rw [step.lastRow] at tail
      rw [blocks]
      exact ⟨number, by omega, (step.standing filled (placed row List.mem_cons_self)).mono hle,
        standing_newRows hle newRows tail⟩

end

/-- The rows that a pass over a sheet in order leaves stand at increasing numbers. -/
theorem standing_of_run {sheet : Sheet} {workbook : Element} {pool : Pool} {data : Bindings}
    {filled : Filled} (hp : pool.Sound) (horder : RowsInOrder 0 sheet.rows)
    (placed : ∀ row ∈ sheet.rows, ∀ cell ∈ cellsOf row, Cell.Placed pool.size cell)
    (h : run sheet workbook pool data = .ok filled) :
    RowsStanding filled.pool.size 0 filled.sheet.rows := by
  obtain ⟨-, rows⟩ := rows_of_run hp h
  refine RowsStanding.of_meaning rows ?_
  rcases run_cases h with ⟨hd, rfl⟩ | ⟨sheetData, pass, hd, hpass, rfl⟩
  · rw [blocks_eq_nil hd]
    trivial
  · rw [blocks_eq hd]
    exact walkRows_standing (passReady_start sheet workbook hp) (fun _ hr => tag_of_mem_rows hr) horder placed
      (by rfl) hpass

/-! ### Reading the rows again -/

/-- Cells that stand in increasing columns of a row are in order, as far as they stay within the columns. -/
theorem cellsInOrder_of_standAt {number : Int} (hpos : 1 ≤ number) (hlt : number.natAbs < Text.integerBound) :
    ∀ {cells : List Element} {columns : List Nat} {last : Nat}, StandAt number columns cells →
      columns.Pairwise (· < ·) → (∀ c ∈ columns, last < c) →
      (∀ cell ∈ cells, WithinColumns (cell.attributeOr "r" "")) → CellsInOrder number last cells
  | [], _, _, _, _, _, _ => trivial
  | cell :: cells, [], _, stand, _, _, _ => by cases stand
  | cell :: cells, c :: columns, last, stand, increase, bound, within => by
      rw [StandAt, List.map_cons, List.map_cons] at stand
      injection stand with hr stand
      obtain ⟨first, increase⟩ := List.pairwise_cons.mp increase
      have hc := bound c List.mem_cons_self
      have own : cell.attributeOr "r" "" = (numbered c number).text := by
        rw [Element.attributeOr, hr]
        rfl
      have inside := within cell List.mem_cons_self
      rw [own] at inside
      have wide : (numbered c number).Wide := ⟨⟨c, by omega, rfl⟩, hpos, hlt⟩
      have hparse := CellRef.parse_of_withinColumns wide inside
      exact ⟨numbered c number, c, own ▸ hparse, rfl, Reference.columnNumber_columnLetters (by omega), hc,
        cellsInOrder_of_standAt hpos hlt stand increase first
          fun d hd => within d (List.mem_cons_of_mem cell hd)⟩

/-- Rows that stand at increasing numbers are in order, as far as their cells stay within the columns. -/
theorem RowsStanding.inOrder {size : Nat} : ∀ {rows : List Element} {last : Int}, 0 ≤ last →
    RowsStanding size last rows →
    (∀ row ∈ rows, ∀ cell ∈ cellsOf row, WithinColumns (cell.attributeOr "r" "")) → RowsInOrder last rows
  | [], _, _, _, _ => trivial
  | row :: rows, last, hlast, h, within => by
      obtain ⟨number, hlt, standing, rest⟩ := h
      obtain ⟨columns, stand, increase, pos⟩ := standing.cells
      exact ⟨number, standing.number_eq, hlt,
        cellsInOrder_of_standAt (by omega) standing.writable stand increase pos (within row List.mem_cons_self),
        rest.inOrder (by omega) fun r hr => within r (List.mem_cons_of_mem row hr)⟩

theorem RowsStanding.placed {size : Nat} : ∀ {rows : List Element} {last : Int}, RowsStanding size last rows →
    ∀ row ∈ rows, ∀ cell ∈ cellsOf row, Cell.Placed size cell
  | [], _, _, _, hr => by cases hr
  | row :: rows, _, h, r, hr => by
      obtain ⟨number, -, standing, rest⟩ := h
      rcases List.mem_cons.mp hr with rfl | hr
      · exact standing.placed
      · exact rest.placed r hr

end Expand
end Gridfill

import Gridfill.Proofs.Sheet.Anchored
import Gridfill.Proofs.Sheet.Fill

/-!
# The walk along a row and down the rows

What one step of either walk comes to (`exists_cellStep`, `stepRow_cases`), and what a whole walk keeps by
induction over the steps: the cells of a filled row stand in it, in order if those of the row did, and its
new rows are fit (`walkCells_spec`).

A pass puts a block of rows in the place of each row: the row itself, filled, and its new rows behind it.
`rowBlocks` lists these blocks as the pass makes them.
-/

namespace Gridfill

open Markup (Element Node Scope)
open CellRef (numbered)

namespace Expand

/-! ### Columns -/

/-- The column of a cell: that of its own reference or, when it has none, the one behind the last. -/
def effectiveColumn (last : Nat) (cell : Element) : Except Failure Nat := do
  let own := cell.attributeOr "r" ""
  if own = "" then return last + 1
  else (← CellRef.parse own).columnNumber

/-- The columns of the cells of a row. -/
def effectiveColumns : Nat → List Element → Except Failure (List Nat)
  | _, [] => .ok []
  | last, cell :: cells => do
    let column ← effectiveColumn last cell
    let columns ← effectiveColumns column cells
    return column :: columns

/-- The columns of the cells increase from a column on, as far as they are known. -/
def ColumnsIncrease : Nat → List Element → Prop
  | _, [] => True
  | last, cell :: cells =>
    ∀ column, effectiveColumn last cell = .ok column → last < column ∧ ColumnsIncrease column cells

/-! ### One cell -/

/-- The reference of a cell at its new place is that of its column moved by the cells inserted before. -/
theorem exists_of_currentRef {cell : Element} {number : Int} {walk : Walk} {last : Nat} {ref : String}
    (hlast : walk.lastColumn = last + walk.inserted) (h : currentRef cell number walk = .ok ref) :
    ∃ c, effectiveColumn last cell = .ok c ∧ 1 ≤ c + walk.inserted ∧
      ref = (numbered (c + walk.inserted) number).text := by
  have named {c : Nat} {column : Int} (hcolumn : column = c + walk.inserted)
      (h : (do (CellRef.plain (← Reference.columnName column) number).write) = .ok ref) :
      1 ≤ c + walk.inserted ∧ ref = (numbered (c + walk.inserted) number).text := by
    obtain ⟨letters, hletters, h⟩ := bind_eq_ok_iff.mp h
    obtain ⟨hpos, hl⟩ := Reference.columnName_eq_ok hletters
    have hcolumn' : column.toNat = c + walk.inserted := by omega
    refine ⟨by omega, ?_⟩
    rw [(CellRef.write_eq_ok_iff.mp h).2, hl, hcolumn']
    rfl
  unfold currentRef at h
  unfold effectiveColumn
  simp only at h ⊢
  split at h
  · next hempty => exact ⟨last + 1, if_pos hempty, named (by omega) h⟩
  · next hown =>
    obtain ⟨own, hparse, h⟩ := bind_eq_ok_iff.mp h
    obtain ⟨k, hk, h⟩ := bind_eq_ok_iff.mp h
    exact ⟨k, by rw [if_neg hown]; exact bind_eq_ok_iff.mpr ⟨own, hparse, hk⟩, named rfl h⟩

/-- The walk when a cell has been filled in the column `c`, moved by the cells inserted before it. -/
def Walk.filled (walk : Walk) (c : Nat) (r : Outcome) : Walk :=
  ⟨walk.cells ++ r.cells, walk.inserted + r.inserted, ((c + walk.inserted : Nat) : Int) + r.inserted, r.work⟩

@[simp] theorem Walk.filled_inserted (walk : Walk) (c : Nat) (r : Outcome) :
    (walk.filled c r).inserted = walk.inserted + r.inserted := rfl

/-- What a step of the walk along a row comes to: the cell is put into its column, moved by the cells
inserted before it, and filled there. -/
theorem exists_of_stepCell {site : Site} {walk walk' : Walk} {cell : Element} {last : Nat}
    (hlast : walk.lastColumn = last + walk.inserted) (h : stepCell site walk cell = .ok walk') :
    ∃ c r, effectiveColumn last cell = .ok c ∧ (numbered (c + walk.inserted) site.number).Valid ∧
      fillCell site (cell.set "r" (numbered (c + walk.inserted) site.number).text) walk.work = .ok r ∧
      walk' = walk.filled c r := by
  obtain ⟨ref, href, h⟩ := bind_eq_ok_iff.mp h
  obtain ⟨at', hat, h⟩ := bind_eq_ok_iff.mp h
  obtain ⟨n, hn, h⟩ := bind_eq_ok_iff.mp h
  obtain ⟨r, hr, hdone⟩ := bind_eq_ok_iff.mp h
  obtain ⟨c, hc, hpos, rfl⟩ := exists_of_currentRef hlast href
  obtain ⟨valid, rfl⟩ := CellRef.valid_of_parse_numbered hpos hat
  have hn' : c + walk.inserted = n :=
    Except.ok.inj ((Reference.columnNumber_columnLetters hpos).symm.trans hn)
  exact ⟨c, r, hc, valid, hr, by rw [← Except.ok.inj hdone, ← hn', Walk.filled]⟩

theorem effectiveColumns_cons {last c : Nat} {cell : Element} {cells : List Element}
    {columns : List Nat} (hc : effectiveColumn last cell = .ok c) (h : effectiveColumns c cells = .ok columns) :
    effectiveColumns last (cell :: cells) = .ok (c :: columns) := by
  exact bind_eq_ok_iff.mpr ⟨c, hc, bind_eq_ok_iff.mpr ⟨columns, h, rfl⟩⟩

theorem exists_of_effectiveColumns_cons {last : Nat} {cell : Element} {cells : List Element} {columns : List Nat}
    (h : effectiveColumns last (cell :: cells) = .ok columns) :
    ∃ c cs, effectiveColumn last cell = .ok c ∧ effectiveColumns c cells = .ok cs ∧ columns = c :: cs := by
  obtain ⟨c, hc, h⟩ := bind_eq_ok_iff.mp h
  obtain ⟨cs, hcs, h⟩ := bind_eq_ok_iff.mp h
  exact ⟨c, cs, hc, hcs, (Except.ok.inj h).symm⟩

theorem effectiveColumn_pos {last c : Nat} {cell : Element} (h : effectiveColumn last cell = .ok c) : 1 ≤ c := by
  unfold effectiveColumn at h
  simp only at h
  split at h
  · rw [← Except.ok.inj h]
    exact Nat.le_add_left 1 last
  · obtain ⟨own, hown, hc⟩ := bind_eq_ok_iff.mp h
    obtain ⟨n, positive, -, hn, -⟩ := (CellRef.valid_of_parse hown).columnNumber
    rwa [← Except.ok.inj (hn.symm.trans hc)]

/-- Cells in increasing columns are so for the walk along the row. -/
theorem columnsIncrease_of_pairwise {last : Nat} {cells : List Element} {columns : List Nat}
    (h : effectiveColumns last cells = .ok columns) (increasing : (last :: columns).Pairwise (· < ·)) :
    ColumnsIncrease last cells := by
  induction cells generalizing last columns with
  | nil => trivial
  | cons cell cells ih =>
      obtain ⟨c, cs, hc, hcs, rfl⟩ := exists_of_effectiveColumns_cons h
      rw [List.pairwise_cons] at increasing
      intro column hcolumn
      obtain rfl : c = column := Except.ok.inj (hc.symm.trans hcolumn)
      exact ⟨increasing.1 c List.mem_cons_self, ih hcs increasing.2⟩

/-- The columns of cells are those from the first on. -/
theorem pos_of_effectiveColumns {last : Nat} {cells : List Element} {columns : List Nat}
    (h : effectiveColumns last cells = .ok columns) : ∀ c ∈ columns, 1 ≤ c := by
  induction cells generalizing last columns with
  | nil =>
      rw [← Except.ok.inj h]
      simp
  | cons cell cells ih =>
      obtain ⟨c, cs, hc, hcs, rfl⟩ := exists_of_effectiveColumns_cons h
      rw [List.forall_mem_cons]
      exact ⟨effectiveColumn_pos hc, ih hcs⟩

/-! ### All cells of a row -/

section
variable {holds : Nat → Prop} {ordered : Prop}

/-- What is known of cells when a step along a row starts: the last column, the pool and the new rows. -/
structure WalkReady (ordered : Prop) (site : Site) (last : Nat) (walk : Walk) : Prop where
  row : site.row.tag = Vocabulary.worksheetRow
  column : walk.lastColumn = last + walk.inserted
  sound : walk.work.pool.Sound
  rows : FitRows ordered site.number (fun _ => last + walk.inserted) walk.work.pool.size walk.work.newRows

/-- The cell at its new place, ready to be filled. -/
theorem WalkReady.ready {site : Site} {last c : Nat} {walk : Walk} {cell : Element}
    (h : WalkReady ordered site last walk) (htag : cell.tag = Vocabulary.cell) (hlt : ordered → last < c)
    (valid : (numbered (c + walk.inserted) site.number).Valid) :
    Ready ordered site (cell.set "r" (numbered (c + walk.inserted) site.number).text) (c + walk.inserted)
      walk.work where
  sound := h.sound
  row := h.row
  tag := htag
  pos := by
    obtain ⟨n, h1, -, hn⟩ := valid.column
    have e : c + walk.inserted = n :=
      Reference.columnLetters_injective (String.ofList_injective hn)
    omega
  ref := Element.attribute?_set _ _ _
  rows := h.rows.mono (fun ho _ => by have := hlt ho; omega) (Nat.le_refl _)

/-- The walk after a cell is ready for the next. -/
theorem WalkReady.next {site : Site} {last c : Nat} {walk : Walk} {cell : Element} {r : Outcome}
    (h : WalkReady ordered site last walk)
    (done : Done holds (Fills site.data) ordered site cell (c + walk.inserted) walk.work r) :
    WalkReady ordered site c (walk.filled c r) where
  row := h.row
  column := by
    show ((c + walk.inserted : Nat) : Int) + r.inserted = c + (walk.inserted + r.inserted : Nat)
    omega
  sound := done.follows.pool.sound h.sound
  rows := done.rows.mono (fun _ _ => by show c + walk.inserted ≤ c + (walk.inserted + r.inserted); omega)
    (Nat.le_refl _)

/-- What is known when the walk has filled the cell behind the column `last` in the column `c`. -/
structure CellStep (holds : Nat → Prop) (ordered : Prop) (site : Site) (last : Nat) (walk : Walk) (cell : Element)
    (c : Nat) (r : Outcome) : Prop where
  column : effectiveColumn last cell = .ok c
  start : Ready ordered site (cell.set "r" (numbered (c + walk.inserted) site.number).text) (c + walk.inserted)
    walk.work
  fill : fillCell site (cell.set "r" (numbered (c + walk.inserted) site.number).text) walk.work = .ok r
  done : Done holds (Fills site.data) ordered site (cell.set "r" (numbered (c + walk.inserted) site.number).text)
    (c + walk.inserted) walk.work r
  width : r.inserted + 1 = cellWidth site.data (Cell.shownText walk.work.pool cell)
  next : WalkReady ordered site c (walk.filled c r)

theorem exists_cellStep {site : Site} {last : Nat} {walk walk' : Walk} {cell : Element}
    (ready : WalkReady ordered site last walk) (tag : cell.tag = Vocabulary.cell)
    (hk : ∀ k, Cell.place? cell = some k → holds k)
    (hlt : ordered → ∀ c, effectiveColumn last cell = .ok c → last < c) (h : stepCell site walk cell = .ok walk') :
    ∃ c r, CellStep holds ordered site last walk cell c r ∧ walk' = walk.filled c r := by
  obtain ⟨c, r, hc, valid, hfill, e⟩ := exists_of_stepCell ready.column h
  have start := ready.ready tag (fun ho => hlt ho c hc) valid
  obtain ⟨done, width⟩ := done_of_filling start (by rwa [Cell.place?_set_ref]) (filling_of_fillCell hfill)
  rw [Cell.shownText_set_ref] at width
  exact ⟨c, r, ⟨hc, start, hfill, done, width, ready.next done⟩, e⟩

/-- The cells that a walk along a row has put in: they stand in the row, behind a column, and hold places
that the pool has, if the cells of the row do. -/
structure RowFilled (ordered : Prop) (number : Int) (last : Nat) (cells : List Element) (before after : Pool)
    (added : List Element) : Prop where
  tags : ∀ e ∈ added, e.tag = Vocabulary.cell
  stand : ∃ columns, StandAt number columns added ∧
    (ordered → columns.Pairwise (· < ·) ∧ ∀ c ∈ columns, last < c)
  placed : (∀ cell ∈ cells, Cell.Placed before.size cell) → ∀ e ∈ added, Cell.Placed after.size e

theorem walkCells_spec {site : Site} : ∀ {cells : List Element} {last : Nat} {walk walk' : Walk},
    WalkReady ordered site last walk → (∀ cell ∈ cells, cell.tag = Vocabulary.cell) →
    (∀ cell ∈ cells, ∀ k, Cell.place? cell = some k → holds k) →
    (ordered → ColumnsIncrease last cells) →
    walkCells site cells walk = .ok walk' →
    ∃ columns added, effectiveColumns last cells = .ok columns ∧ walk'.cells = walk.cells ++ added ∧
      Work.Follows holds (Fills site.data) walk.work walk'.work ∧
      RowFilled ordered site.number (last + walk.inserted) cells walk.work.pool walk'.work.pool added ∧
      ∃ limit, FitRows ordered site.number (fun _ => limit) walk'.work.pool.size walk'.work.newRows
  | [], last, walk, walk', ready, _, _, _, h => by
      rw [← Except.ok.inj h]
      exact ⟨[], [], rfl, (List.append_nil _).symm, .refl _,
        ⟨fun _ he => absurd he (by simp), ⟨[], rfl, fun _ => ⟨.nil, by simp⟩⟩,
          fun _ _ he => absurd he (by simp)⟩, _, ready.rows⟩
  | cell :: cells, last, walk, walk', ready, tags, hk, horder, h => by
      obtain ⟨next, hnext, h⟩ := bind_eq_ok_iff.mp h
      have tag := tags cell List.mem_cons_self
      obtain ⟨c, r, ⟨hc, -, -, done, -, ready'⟩, rfl⟩ :=
        exists_cellStep ready tag (hk cell List.mem_cons_self) (fun ho c hc => (horder ho c hc).1) hnext
      obtain ⟨columns, added, hcolumns, hcells, follows, filled, rows⟩ := walkCells_spec ready'
        (fun d hd => tags d (List.mem_cons_of_mem cell hd))
        (fun d hd => hk d (List.mem_cons_of_mem cell hd)) (fun ho => (horder ho c hc).2) h
      refine ⟨c :: columns, r.cells ++ added, effectiveColumns_cons hc hcolumns, ?_,
        done.follows.trans follows, ⟨?_, ?_, ?_⟩, rows⟩
      · exact hcells.trans (List.append_assoc _ _ _)
      · intro e he
        rcases List.mem_append.mp he with he | he
        · exact (done.lies.style e he).tag.trans tag
        · exact filled.tags e he
      · obtain ⟨rest, stand, bounds⟩ := filled.stand
        refine ⟨_, done.lies.stand.append stand, fun ho => ⟨?_, ?_⟩⟩
        · refine List.pairwise_append.mpr ⟨List.pairwise_lt_range', (bounds ho).1, ?_⟩
          intro x hx y hy
          have := List.mem_range'_1.mp hx
          have : c + (walk.inserted + r.inserted) < y := (bounds ho).2 y hy
          have := done.lies.length
          omega
        · intro x hx
          have := (horder ho c hc).1
          rcases List.mem_append.mp hx with hx | hx
          · have := List.mem_range'_1.mp hx
            omega
          · have : c + (walk.inserted + r.inserted) < x := (bounds ho).2 x hx
            omega
      · intro placed e he
        rcases List.mem_append.mp he with he | he
        · rcases done.lies.placed e he with rfl | hp
          · exact ((placed cell List.mem_cons_self).set_ref _).mono
              (Nat.le_trans done.follows.pool.size_le follows.pool.size_le)
          · exact hp.mono follows.pool.size_le
        · refine filled.placed (fun d hd => ?_) e he
          exact (placed d (List.mem_cons_of_mem cell hd)).mono done.follows.pool.size_le

end

/-! ### One row -/

/-- The site of the cells of a row that is given its number. -/
def siteOf (data : Bindings) (scope : Scope) (row : Element) (number : Int) : Site :=
  ⟨data, scope, row.set "r" (toString number), number⟩

/-- The walk along a row at its start. -/
def walkStart (pass : Pass) : Walk := ⟨[], 0, 0, ⟨pass.pool, pass.anchored.tables, [], pass.stats⟩⟩

/-- What a step of the walk down the rows comes to: the number that the row is given, the walk along its
cells, and the row with these cells. -/
structure RowStep (name : String) (data : Bindings) (scope : Scope) (pass : Pass) (row : Element)
    (number : Int) (walk : Walk) (out : Element) (next : Pass) : Prop where
  number_eq : currentNumber row pass = .ok number
  writable : number.natAbs < Text.integerBound
  walk_eq : walkCells (siteOf data scope row number) (cellsOf row) (walkStart pass) = .ok walk
  out_eq : widenRow ((row.set "r" (toString number)).replaceContent scope (walk.cells.map Node.element))
    walk.inserted = .ok out
  anchored_eq : Shift.pushDown name number walk.work.newRows.length
    { pass.anchored with tables := walk.work.tables } = .ok next.anchored
  rows : next.rows = pass.rows ++ out :: walk.work.newRows.map (·.row)
  lastRow : next.lastRow = number + walk.work.newRows.length
  pool : next.pool = walk.work.pool
  rowsInserted : next.stats.rowsInserted = walk.work.stats.rowsInserted + walk.work.newRows.length
  columnsInserted : next.stats.columnsInserted = max walk.work.stats.columnsInserted walk.inserted

section
variable {name : String} {data : Bindings} {scope : Scope} {pass next : Pass} {row out : Element}
  {number : Int} {walk : Walk}

theorem stepRow_cases (h : stepRow name data scope pass row = .ok next) :
    ∃ number walk out, RowStep name data scope pass row number walk out next := by
  obtain ⟨number, hnumber, h⟩ := bind_eq_ok_iff.mp h
  obtain ⟨s, hs, h⟩ := bind_eq_ok_iff.mp h
  obtain ⟨walk, hwalk, h⟩ := bind_eq_ok_iff.mp h
  obtain ⟨out, hout, h⟩ := bind_eq_ok_iff.mp h
  obtain ⟨anchored, hanchored, hnext⟩ := bind_eq_ok_iff.mp h
  obtain ⟨writable, rfl⟩ := writeInteger_eq_ok_iff.mp hs
  have length : (walk.work.newRows.map (·.row)).length = walk.work.newRows.length := List.length_map _
  rw [← Except.ok.inj hnext]
  refine ⟨number, walk, out, hnumber, writable, hwalk, hout, ?_, rfl, ?_, rfl, ?_, rfl⟩
  · rw [← length]
    exact hanchored
  · rw [← length]
  · rw [← length]

/-- The number of a row with a number of its own is that number, moved by the rows inserted before. -/
theorem currentNumber_eq {m : Int} (hm : parseInteger (row.attributeOr "r" "") = .ok m)
    (h : currentNumber row pass = .ok number) : number = m + pass.stats.rowsInserted := by
  unfold currentNumber at h
  simp only at h
  split at h
  · next hempty =>
    rw [hempty] at hm
    cases hm
  · rw [hm] at h
    exact (Except.ok.inj h).symm

section
variable (step : RowStep name data scope pass row number walk out next)
include step

theorem RowStep.out_tag : out.tag = row.tag :=
  (tag_of_widenRow step.out_eq).trans
    ((Element.tag_replaceContent _ _ _).trans (Element.tag_set _ _ _))

theorem RowStep.out_ref : out.attribute? "r" = some (toString number) :=
  (ref_of_widenRow step.out_eq).trans
    ((Element.attribute?_replaceContent _ _ _ _).trans (Element.attribute?_set _ _ _))

/-- The filled row carries the number that it is given. -/
theorem RowStep.out_number : ownNumber out = .ok number := by
  rw [ownNumber, Element.attributeOr, step.out_ref]
  exact parseInteger_of_write (writeInteger_eq_ok_iff.mpr ⟨step.writable, rfl⟩)

theorem RowStep.out_cells (htags : ∀ e ∈ walk.cells, e.tag = Vocabulary.cell) :
    (cellsOf out).map Element.meaning = walk.cells.map Element.meaning := by
  rw [cells_of_widenRow step.out_eq]
  exact Element.meaning_childrenWith_replaceContent scope _ htags

/-- The block that a step puts in the place of a row is the row and its new rows. -/
theorem RowStep.block : next.rows.drop pass.rows.length = out :: walk.work.newRows.map (·.row) := by
  rw [step.rows, List.drop_left]

omit step in
/-- The walk along a row starts with what the rows above have left. -/
theorem walkReady_start {ordered : Prop} (number : Int) (htag : row.tag = Vocabulary.worksheetRow)
    (hp : pass.pool.Sound) : WalkReady ordered (siteOf data scope row number) 0 (walkStart pass) :=
  ⟨htag, rfl, hp, fun _ _ hr => by cases hr⟩

/-- The walk along the cells of a row. -/
theorem RowStep.walked (holds : Nat → Prop) {ordered : Prop} (htag : row.tag = Vocabulary.worksheetRow)
    (hp : pass.pool.Sound) (hk : ∀ cell ∈ cellsOf row, ∀ k, Cell.place? cell = some k → holds k)
    (horder : ordered → ColumnsIncrease 0 (cellsOf row)) :
    Work.Follows holds (Fills data) (walkStart pass).work walk.work ∧
      RowFilled ordered number 0 (cellsOf row) pass.pool walk.work.pool walk.cells ∧
      ∃ limit, FitRows ordered number (fun _ => limit) walk.work.pool.size walk.work.newRows := by
  obtain ⟨columns, added, -, hcells, follows, filled, rows⟩ := walkCells_spec (walkReady_start number htag hp)
    (fun cell hc => Element.tag_of_mem_childrenWith hc) hk horder step.walk_eq
  have e : walk.cells = added := hcells.trans (List.nil_append added)
  rw [e]
  exact ⟨follows, filled, rows⟩

/-- The walk along the cells of a row, in whatever order they stand and whatever places they hold. -/
theorem RowStep.walked_any (htag : row.tag = Vocabulary.worksheetRow) (hp : pass.pool.Sound) :
    Work.Follows (fun _ => True) (Fills data) (walkStart pass).work walk.work ∧
      RowFilled False number 0 (cellsOf row) pass.pool walk.work.pool walk.cells ∧
      ∃ limit, FitRows False number (fun _ => limit) walk.work.pool.size walk.work.newRows :=
  step.walked (fun _ => True) htag hp (fun _ _ _ _ => trivial) False.elim

end

end

/-! ### All rows -/

/-- The blocks of rows that a pass puts in the place of each row, one after the other. -/
def rowBlocks (name : String) (data : Bindings) (scope : Scope) :
    List Element → Pass → List (List Element)
  | [], _ => []
  | row :: rows, pass =>
    match stepRow name data scope pass row with
    | .ok next => next.rows.drop pass.rows.length :: rowBlocks name data scope rows next
    | .error _ => []

section
variable {name : String} {data : Bindings} {scope : Scope}

theorem rowBlocks_cons {pass next : Pass} {row out : Element} {number : Int} {walk : Walk}
    (hnext : stepRow name data scope pass row = .ok next)
    (step : RowStep name data scope pass row number walk out next) (rows : List Element) :
    rowBlocks name data scope (row :: rows) pass =
      (out :: walk.work.newRows.map (·.row)) :: rowBlocks name data scope rows next := by
  simp only [rowBlocks, hnext, step.block]

theorem rows_of_stepRow {pass next : Pass} {row : Element}
    (h : stepRow name data scope pass row = .ok next) :
    next.rows = pass.rows ++ next.rows.drop pass.rows.length := by
  obtain ⟨number, walk, out, step⟩ := stepRow_cases h
  rw [step.rows, List.drop_left]

/-- A pass has put a block in the place of each row. -/
theorem walkRows_rows : ∀ {rows : List Element} {pass final : Pass},
    walkRows name data scope rows pass = .ok final →
      (rowBlocks name data scope rows pass).length = rows.length ∧
      final.rows = pass.rows ++ (rowBlocks name data scope rows pass).flatten
  | [], pass, final, h => by
      rw [← Except.ok.inj h]
      exact ⟨rfl, (List.append_nil _).symm⟩
  | row :: rows, pass, final, h => by
      obtain ⟨next, hnext, h⟩ := bind_eq_ok_iff.mp h
      obtain ⟨len, hrows⟩ := walkRows_rows h
      simp only [rowBlocks, hnext, List.length_cons, List.flatten_cons]
      refine ⟨by rw [len], ?_⟩
      rw [hrows, ← List.append_assoc, ← rows_of_stepRow hnext]

/-- The step that a pass makes at the row at the place `k`. -/
theorem walkRows_at : ∀ {rows : List Element} {pass final : Pass} {k : Nat} {row : Element},
    walkRows name data scope rows pass = .ok final → rows[k]? = some row →
      ∃ before after, walkRows name data scope (rows.take k) pass = .ok before ∧
        stepRow name data scope before row = .ok after ∧
        walkRows name data scope (rows.drop (k + 1)) after = .ok final ∧
        before.rows = pass.rows ++ ((rowBlocks name data scope rows pass).take k).flatten ∧
        (rowBlocks name data scope rows pass)[k]? = some (after.rows.drop before.rows.length)
  | [], _, _, _, _, _, hk => by cases hk
  | row :: rows, pass, final, 0, row', h, hk => by
      obtain ⟨next, hnext, h⟩ := bind_eq_ok_iff.mp h
      obtain rfl := Option.some.inj hk
      exact ⟨pass, next, rfl, hnext, h, (List.append_nil _).symm, by simp only [rowBlocks, hnext]; rfl⟩
  | row :: rows, pass, final, k + 1, row', h, hk => by
      obtain ⟨next, hnext, h⟩ := bind_eq_ok_iff.mp h
      obtain ⟨before, after, hbefore, hstep, hafter, hrows, hblock⟩ := walkRows_at h hk
      refine ⟨before, after, bind_eq_ok_iff.mpr ⟨next, hnext, hbefore⟩, hstep, hafter, ?_, ?_⟩
      · simp only [rowBlocks, hnext, List.take_succ_cons, List.flatten_cons]
        rw [hrows, ← List.append_assoc, ← rows_of_stepRow hnext]
      · simp only [rowBlocks, hnext, List.getElem?_cons_succ]
        exact hblock

/-- What is known of a pass when a step down the rows starts. -/
structure PassReady (pass : Pass) : Prop where
  sound : pass.pool.Sound
  tags : ∀ row ∈ pass.rows, row.tag = Vocabulary.worksheetRow

section
variable (holds : Nat → Prop)

/-- A step down the rows changes the pool by steps, and the pass is ready for the next. -/
theorem RowStep.next {pass next : Pass} {row out : Element} {number : Int} {walk : Walk}
    (step : RowStep name data scope pass row number walk out next) (ready : PassReady pass)
    (htag : row.tag = Vocabulary.worksheetRow)
    (hk : ∀ cell ∈ cellsOf row, ∀ k, Cell.place? cell = some k → holds k) :
    Pool.Steps holds (Fills data) pass.pool next.pool ∧ PassReady next := by
  obtain ⟨follows, -, limit, rows⟩ := step.walked holds htag ready.sound hk (fun no : False => no.elim)
  refine ⟨step.pool ▸ follows.pool, ⟨step.pool ▸ follows.pool.sound ready.sound, ?_⟩⟩
  intro r hr
  rw [step.rows] at hr
  rcases List.mem_append.mp hr with hr | hr
  · exact ready.tags r hr
  · rcases List.mem_cons.mp hr with rfl | hr
    · exact step.out_tag.trans htag
    · obtain ⟨q, hq, rfl⟩ := List.mem_map.mp hr
      obtain ⟨i, hi⟩ := List.mem_iff_getElem?.mp hq
      exact (rows i q hi).tag

/-- A pass that is ready for a step is ready behind it, whatever places its cells hold. -/
theorem RowStep.ready {pass next : Pass} {row out : Element} {number : Int} {walk : Walk}
    (step : RowStep name data scope pass row number walk out next) (ready : PassReady pass)
    (htag : row.tag = Vocabulary.worksheetRow) : PassReady next :=
  (step.next (fun _ => True) ready htag fun _ _ _ _ => trivial).2

/-- A pass down a row and those behind it is a step, and then a pass down the others that is ready for them. -/
theorem walkRows_cons_cases {row : Element} {rows : List Element} {pass final : Pass} (ready : PassReady pass)
    (htags : ∀ r ∈ row :: rows, r.tag = Vocabulary.worksheetRow)
    (h : walkRows name data scope (row :: rows) pass = .ok final) :
    ∃ next number walk out, stepRow name data scope pass row = .ok next ∧
      RowStep name data scope pass row number walk out next ∧ row.tag = Vocabulary.worksheetRow ∧
      PassReady next ∧ (∀ r ∈ rows, r.tag = Vocabulary.worksheetRow) ∧
      walkRows name data scope rows next = .ok final := by
  obtain ⟨next, hnext, rest⟩ := bind_eq_ok_iff.mp h
  obtain ⟨number, walk, out, step⟩ := stepRow_cases hnext
  obtain ⟨htag, htags⟩ := List.forall_mem_cons.mp htags
  exact ⟨next, number, walk, out, hnext, step, htag, step.ready ready htag, htags, rest⟩

theorem walkRows_ready : ∀ {rows : List Element} {pass final : Pass}, PassReady pass →
    (∀ row ∈ rows, row.tag = Vocabulary.worksheetRow) →
    (∀ row ∈ rows, ∀ cell ∈ cellsOf row, ∀ k, Cell.place? cell = some k → holds k) →
    walkRows name data scope rows pass = .ok final →
      Pool.Steps holds (Fills data) pass.pool final.pool ∧ PassReady final
  | [], pass, final, ready, _, _, h => by
      rw [← Except.ok.inj h]
      exact ⟨.refl, ready⟩
  | row :: rows, pass, final, ready, htags, hk, h => by
      obtain ⟨next, hnext, h⟩ := bind_eq_ok_iff.mp h
      obtain ⟨number, walk, out, step⟩ := stepRow_cases hnext
      obtain ⟨first, ready'⟩ := step.next holds ready (htags row List.mem_cons_self) (hk row List.mem_cons_self)
      obtain ⟨rest, ready''⟩ := walkRows_ready ready' (fun r hr => htags r (List.mem_cons_of_mem row hr))
        (fun r hr => hk r (List.mem_cons_of_mem row hr)) h
      exact ⟨first.trans rest, ready''⟩

end

end

/-- Going down the rows leaves the parts of the sheet apart from the merged ranges. -/
theorem walkRows_other {name : String} {data : Bindings} {scope : Scope} (tag : Markup.Tag)
    (ht : tag ≠ Vocabulary.mergeCells) : ∀ {rows : List Element} {pass final : Pass},
    walkRows name data scope rows pass = .ok final →
      final.anchored.sheet.childrenWith tag = pass.anchored.sheet.childrenWith tag
  | [], pass, final, h => by rw [← Except.ok.inj h]
  | row :: rows, pass, final, h => by
      obtain ⟨next, hnext, h⟩ := bind_eq_ok_iff.mp h
      obtain ⟨number, walk, out, step⟩ := stepRow_cases hnext
      obtain ⟨-, -, -, other, -⟩ := pushDown_spec step.anchored_eq
      exact (walkRows_other tag ht h).trans (other tag ht)

/-- Going down the rows leaves merged ranges that read. -/
theorem walkRows_merges {name : String} {data : Bindings} {scope : Scope} :
    ∀ {rows : List Element} {pass final : Pass}, walkRows name data scope rows pass = .ok final →
      MergesRead pass.anchored.sheet → MergesRead final.anchored.sheet
  | [], pass, final, h, hr => by rwa [← Except.ok.inj h]
  | row :: rows, pass, final, h, hr => by
      obtain ⟨next, hnext, h⟩ := bind_eq_ok_iff.mp h
      obtain ⟨number, walk, out, step⟩ := stepRow_cases hnext
      obtain ⟨-, -, reads, -⟩ := pushDown_spec step.anchored_eq
      exact walkRows_merges h (reads hr)

/-- Going down the rows, the tables follow: each moves by a function of the row that it starts on. The function
leaves a row that no row of the pass is put above. -/
theorem walkRows_tables {name : String} {data : Bindings} {scope : Scope} :
    ∀ {rows : List Element} {pass final : Pass}, PassReady pass →
      (∀ row ∈ rows, row.tag = Vocabulary.worksheetRow) →
      walkRows name data scope rows pass = .ok final →
        ∃ f, List.Forall₂ (Table.Follows f) pass.anchored.tables final.anchored.tables ∧
          ∀ a, (∀ e ∈ (rowBlocks name data scope rows pass).flatten, ∀ n, ownNumber e = .ok n → a ≤ n) → f a = a
  | [], pass, final, _, _, h => by
      rw [← Except.ok.inj h]
      exact ⟨id, Table.forall₂_follows_refl _, fun _ _ => rfl⟩
  | row :: rows, pass, final, ready, htags, h => by
      obtain ⟨next, number, walk, out, hnext, step, htag, ready', htags', h⟩ := walkRows_cons_cases ready htags h
      obtain ⟨follows, -, -⟩ := step.walked_any htag ready.sound
      obtain ⟨-, -, -, -, shifts⟩ := pushDown_spec step.anchored_eq
      obtain ⟨f, rest, stays⟩ := walkRows_tables ready' htags' h
      refine ⟨_, Table.forall₂_follows_trans (Table.forall₂_follows_trans follows.tables shifts) rest, ?_⟩
      intro a above
      rw [rowBlocks_cons hnext step, List.flatten_cons] at above
      have here := above out (by simp) number step.out_number
      have below : below number walk.work.newRows.length a = a := if_neg (Int.not_lt.mpr here)
      show f (Gridfill.below number walk.work.newRows.length a) = a
      rw [below]
      exact stays a fun e he => above e (List.mem_append_right _ he)

/-! ### The pass over a sheet -/

/-- The scope of the rows of a sheet. -/
def rowScope (sheet : Sheet) (sheetData : Element) : Scope := [sheetData.frame, sheet.root.frame]

/-- A pass over a sheet at its start. -/
def passStart (sheet : Sheet) (workbook : Element) (pool : Pool) : Pass :=
  ⟨[], 0, pool, ⟨sheet.root, sheet.tables, workbook⟩, Stats.zero⟩

/-- The sheet with the rows and everything anchored as a pass leaves them. -/
def passSheet (sheet : Sheet) (sheetData : Element) (pass : Pass) : Sheet :=
  ⟨sheet.info,
    pass.anchored.sheet.changeChild Vocabulary.sheetData fun _ =>
      sheetData.replaceContent [sheet.root.frame] (pass.rows.map Node.element),
    pass.anchored.tables⟩

/-- What a pass over a sheet comes to: nothing without rows, and the walk down the rows otherwise. -/
theorem run_cases {sheet : Sheet} {workbook : Element} {pool : Pool} {data : Bindings} {filled : Filled}
    (h : run sheet workbook pool data = .ok filled) :
    (sheet.data? = none ∧ filled = ⟨sheet, workbook, pool, Stats.zero⟩) ∨
    ∃ sheetData pass, sheet.data? = some sheetData ∧
      walkRows sheet.name data (rowScope sheet sheetData) sheet.rows (passStart sheet workbook pool) =
        .ok pass ∧
      filled = ⟨passSheet sheet sheetData pass, pass.anchored.workbook, pass.pool, pass.stats⟩ := by
  unfold run at h
  cases hd : sheet.data? with
  | none =>
      rw [hd] at h
      exact Or.inl ⟨rfl, (Except.ok.inj h).symm⟩
  | some sheetData =>
      rw [hd] at h
      obtain ⟨pass, hpass, h⟩ := bind_eq_ok_iff.mp h
      exact Or.inr ⟨sheetData, pass, rfl, hpass, (Except.ok.inj h).symm⟩

/-- The blocks of rows that a pass over a sheet puts in the place of each of its rows. -/
def blocks (sheet : Sheet) (workbook : Element) (pool : Pool) (data : Bindings) : List (List Element) :=
  match sheet.data? with
  | none => []
  | some sheetData =>
    rowBlocks sheet.name data (rowScope sheet sheetData) sheet.rows (passStart sheet workbook pool)

theorem blocks_eq {sheet : Sheet} {sheetData : Element} (hd : sheet.data? = some sheetData) (workbook : Element)
    (pool : Pool) (data : Bindings) : blocks sheet workbook pool data =
      rowBlocks sheet.name data (rowScope sheet sheetData) sheet.rows (passStart sheet workbook pool) := by
  rw [blocks, hd]

/-- A sheet without a place for rows has no rows, and a pass puts none in. -/
theorem rows_eq_nil {sheet : Sheet} (hd : sheet.data? = none) : sheet.rows = [] := by
  rw [Sheet.rows, hd]
  rfl

theorem blocks_eq_nil {sheet : Sheet} (hd : sheet.data? = none) (workbook : Element) (pool : Pool) (data : Bindings) :
    blocks sheet workbook pool data = [] := by
  rw [blocks, hd]

theorem tag_of_mem_rows {sheet : Sheet} {row : Element} (h : row ∈ sheet.rows) :
    row.tag = Vocabulary.worksheetRow := by
  cases hd : sheet.data? with
  | none =>
      rw [rows_eq_nil hd] at h
      cases h
  | some sheetData =>
      rw [Sheet.rows, hd] at h
      exact Element.tag_of_mem_childrenWith h

theorem passReady_start (sheet : Sheet) (workbook : Element) {pool : Pool} (hp : pool.Sound) :
    PassReady (passStart sheet workbook pool) :=
  ⟨hp, fun row hr => by cases hr⟩

/-- The place of the rows of the sheet that a pass leaves holds the rows of the pass, as far as the pass has left this
place alone. -/
theorem data?_passSheet {sheet : Sheet} {sheetData : Element} {pass : Pass} (hd : sheet.data? = some sheetData)
    (hroot : pass.anchored.sheet.childrenWith Vocabulary.sheetData =
      sheet.root.childrenWith Vocabulary.sheetData) :
    (passSheet sheet sheetData pass).data? =
      some (sheetData.replaceContent [sheet.root.frame] (pass.rows.map Node.element)) := by
  have own : sheetData.tag = Vocabulary.sheetData := Element.tag_of_child? hd
  have tag : ∀ c : Element, c.tag = Vocabulary.sheetData →
      (sheetData.replaceContent [sheet.root.frame] (pass.rows.map Node.element)).tag =
        Vocabulary.sheetData := fun _ _ => own
  have hd' : pass.anchored.sheet.child? Vocabulary.sheetData = some sheetData := by
    rw [Element.child?_eq_head?, hroot, ← Element.child?_eq_head?]
    exact hd
  exact Element.child?_changeChild tag hd'

/-- The rows of the sheet that a pass leaves are the rows of the pass. -/
theorem rows_passSheet {sheet : Sheet} {sheetData : Element} {pass : Pass}
    (hd : sheet.data? = some sheetData) (ready : PassReady pass)
    (hroot : pass.anchored.sheet.childrenWith Vocabulary.sheetData =
      sheet.root.childrenWith Vocabulary.sheetData) :
    (passSheet sheet sheetData pass).rows.map Element.meaning = pass.rows.map Element.meaning := by
  rw [Sheet.rows, data?_passSheet hd hroot]
  exact Element.meaning_childrenWith_replaceContent _ _ ready.tags

/-- A place in the pool that a cell of the sheet holds. -/
def Holds (sheet : Sheet) (k : Nat) : Prop :=
  ∃ row ∈ sheet.rows, ∃ cell ∈ cellsOf row, Cell.place? cell = some k

/-- What a pass over a sheet does to the pool and the tables. -/
theorem follows_of_run {sheet : Sheet} {workbook : Element} {pool : Pool} {data : Bindings} {filled : Filled}
    (hp : pool.Sound) (h : run sheet workbook pool data = .ok filled) :
    filled.sheet.info = sheet.info ∧ Pool.Steps (Holds sheet) (Fills data) pool filled.pool ∧
      ∃ f, List.Forall₂ (Table.Follows f) sheet.tables filled.sheet.tables := by
  rcases run_cases h with ⟨-, rfl⟩ | ⟨sheetData, pass, -, hpass, rfl⟩
  · exact ⟨rfl, .refl, id, Table.forall₂_follows_refl _⟩
  · have ready := passReady_start sheet workbook hp
    have htags : ∀ row ∈ sheet.rows, row.tag = Vocabulary.worksheetRow := fun _ hr => tag_of_mem_rows hr
    obtain ⟨steps, -⟩ := walkRows_ready (Holds sheet) ready htags
      (fun row hrow cell hcell k hk => ⟨row, hrow, cell, hcell, hk⟩) hpass
    obtain ⟨f, follows, -⟩ := walkRows_tables ready htags hpass
    exact ⟨rfl, steps, f, follows⟩

/-- A pass over a sheet leaves merged ranges that read. -/
theorem mergesRead_of_run {sheet : Sheet} {workbook : Element} {pool : Pool} {data : Bindings}
    {filled : Filled} (h : run sheet workbook pool data = .ok filled) (hr : MergesRead sheet.root) :
    MergesRead filled.sheet.root := by
  rcases run_cases h with ⟨-, rfl⟩ | ⟨sheetData, pass, hd, hpass, rfl⟩
  · exact hr
  · have own : sheetData.tag = Vocabulary.sheetData := Element.tag_of_child? hd
    refine (walkRows_merges hpass hr).of_childrenWith ?_
    exact Element.childrenWith_changeChild_ne _ (fun _ _ => own) (by decide)

/-- The rows that a pass over a sheet leaves are its blocks, one after the other. -/
theorem rows_of_run {sheet : Sheet} {workbook : Element} {pool : Pool} {data : Bindings} {filled : Filled}
    (hp : pool.Sound) (h : run sheet workbook pool data = .ok filled) :
    (blocks sheet workbook pool data).length = sheet.rows.length ∧
      filled.sheet.rows.map Element.meaning =
        (blocks sheet workbook pool data).flatten.map Element.meaning := by
  rcases run_cases h with ⟨hd, rfl⟩ | ⟨sheetData, pass, hd, hpass, rfl⟩
  · rw [rows_eq_nil hd, blocks_eq_nil hd]
    exact ⟨rfl, rfl⟩
  · obtain ⟨-, ready⟩ := walkRows_ready (fun _ => True) (passReady_start sheet workbook hp)
      (fun _ h => tag_of_mem_rows h) (fun _ _ _ _ _ _ => trivial) hpass
    obtain ⟨length, rows⟩ := walkRows_rows hpass
    have other := walkRows_other Vocabulary.sheetData (by decide) hpass
    rw [blocks_eq hd, rows_passSheet hd ready other, rows]
    exact ⟨length, rfl⟩

/-! ### A small sheet -/

/-- An element in the namespace of sheets. -/
def plainElement (label : String) (attributes : List (String × String)) (children : List Element) :
    Element :=
  ⟨⟨some ⟨none, Vocabulary.main⟩, label⟩, [], attributes.map fun a => ⟨.bare a.1, a.2, none⟩, none,
    children.map .element, ""⟩

/-- A cell with its written content. -/
def plainCell (attributes : List (String × String)) (value : String) : Element :=
  plainElement "c" attributes [(plainElement "v" [] []).setText value]

/-- A sheet whose first row holds a sequence, records in a cell without a reference, and a number. Its
merged ranges begin on that row and on a later one, where a table begins as well. -/
def smallSheet : Sheet where
  info := ⟨1, "Data", "sheet1.xml", none⟩
  root := plainElement "worksheet" []
    [plainElement "sheetData" []
      [plainElement "row" [("r", "1")]
        [plainCell [("r", "A1"), ("t", "s")] "0", plainCell [("t", "s")] "1",
          plainCell [("r", "D1"), ("s", "3")] "7"],
       plainElement "row" [("r", "3")] [plainCell [("r", "A3")] "8"]],
     plainElement "mergeCells" [("count", "2")]
      [plainElement "mergeCell" [("ref", "D1:E1")] [], plainElement "mergeCell" [("ref", "A3:B4")] []]]
  tables := [⟨"table1.xml", plainElement "table" [("ref", "A3:B4")] []⟩]

/-- The workbook's own document of the small sheet. -/
def smallWorkbook : Element := plainElement "workbook" [] []

/-- The texts of the small sheet. -/
def smallPool : Pool := Pool.ofTexts ["${xs}", "${table:rs.n}"]

/-- Values for the placeholders of the small sheet. -/
def smallData : Bindings := .ofValues
  [("xs", .list [.int 10, .int 20, .int 30]),
   ("rs", .list [.mapping [("n", .int 1)], .mapping [("n", .int 2)], .mapping [("n", .int 3)]])]

theorem exists_run_small : ∃ filled, run smallSheet smallWorkbook smallPool smallData = .ok filled :=
  exists_of_isOk (by decide +kernel)

end Expand
end Gridfill

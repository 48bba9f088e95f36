import Gridfill.Proofs.Sheet.Layout

/-!
# The moment at which a row or a cell is reached

A pass that went through has been at each row of the sheet and at each cell of it. `RowReached` and
`CellReached` say what was known at that moment and what has become of it at the end: the pool has gone on by
steps, the cells put in for the cell stand behind those of the cells before it, and the row stands at its place
in the filled sheet with its new rows directly behind it (`exists_rowReached`, `exists_cellReached`).
-/

namespace Gridfill

open Markup (Element Node Scope)
open CellRef (numbered)

namespace Expand

/-! ### A cell of a row -/

/-- The walk along a row in two parts. -/
theorem walkCells_append {site : Site} : ∀ {xs ys : List Element} {walk final : Walk},
    walkCells site (xs ++ ys) walk = .ok final →
      ∃ mid, walkCells site xs walk = .ok mid ∧ walkCells site ys mid = .ok final
  | [], ys, walk, final, h => ⟨walk, rfl, h⟩
  | x :: xs, ys, walk, final, h => by
      obtain ⟨next, hnext, h⟩ := bind_eq_ok_iff.mp h
      obtain ⟨mid, hmid, hfinal⟩ := walkCells_append h
      exact ⟨mid, bind_eq_ok_iff.mpr ⟨next, hnext, hmid⟩, hfinal⟩

/-- The columns of cells in two parts. -/
theorem effectiveColumns_append : ∀ {xs ys : List Element} {last : Nat} {as bs : List Nat},
    effectiveColumns last xs = .ok as → effectiveColumns (as.getLastD last) ys = .ok bs →
      effectiveColumns last (xs ++ ys) = .ok (as ++ bs)
  | [], ys, last, as, bs, h, h' => by
      obtain rfl := Except.ok.inj h
      exact h'
  | x :: xs, ys, last, as, bs, h, h' => by
      obtain ⟨c, cs, hc, hcs, rfl⟩ := exists_of_effectiveColumns_cons h
      rw [List.getLastD_cons] at h'
      exact effectiveColumns_cons hc (effectiveColumns_append hcs h')

theorem exists_of_effectiveColumns_append {xs ys : List Element} {last : Nat} {columns : List Nat}
    (h : effectiveColumns last (xs ++ ys) = .ok columns) :
    ∃ as bs, columns = as ++ bs ∧ effectiveColumns last xs = .ok as ∧
      effectiveColumns (as.getLastD last) ys = .ok bs := by
  induction xs generalizing last columns with
  | nil => exact ⟨[], columns, rfl, rfl, h⟩
  | cons x xs ih =>
      obtain ⟨c, cs, hc, hcs, rfl⟩ := exists_of_effectiveColumns_cons h
      obtain ⟨as, bs, rfl, has, hbs⟩ := ih hcs
      refine ⟨c :: as, bs, rfl, effectiveColumns_cons hc has, ?_⟩
      rw [List.getLastD_cons]
      exact hbs

theorem length_of_effectiveColumns : ∀ {cells : List Element} {last : Nat} {columns : List Nat},
    effectiveColumns last cells = .ok columns → columns.length = cells.length
  | [], _, _, h => by
      rw [← Except.ok.inj h]
      rfl
  | cell :: cells, last, columns, h => by
      obtain ⟨c, cs, -, hcs, rfl⟩ := exists_of_effectiveColumns_cons h
      rw [List.length_cons, List.length_cons, length_of_effectiveColumns hcs]

/-- A walk along cells adds cells and goes on with the work, and at its end it is ready for more cells. -/
theorem walkCells_goes {site : Site} (holds : Nat → Prop) : ∀ {cells : List Element} {last : Nat} {walk walk' : Walk},
    WalkReady False site last walk → (∀ cell ∈ cells, cell.tag = Vocabulary.cell) →
    (∀ cell ∈ cells, ∀ k, Cell.place? cell = some k → holds k) → walkCells site cells walk = .ok walk' →
      (∃ added, walk'.cells = walk.cells ++ added) ∧
        Work.Follows holds (Fills site.data) walk.work walk'.work ∧
        ∃ columns, effectiveColumns last cells = .ok columns ∧ WalkReady False site (columns.getLastD last) walk'
  | [], last, walk, walk', ready, _, _, h => by
      rw [← Except.ok.inj h]
      exact ⟨⟨[], (List.append_nil _).symm⟩, .refl _, [], rfl, ready⟩
  | cell :: cells, last, walk, walk', ready, tags, places, h => by
      obtain ⟨next, hnext, h⟩ := bind_eq_ok_iff.mp h
      obtain ⟨c, r, ⟨hc, -, -, done, -, next⟩, rfl⟩ :=
        exists_cellStep ready (tags cell List.mem_cons_self) (places cell List.mem_cons_self) False.elim hnext
      obtain ⟨⟨added, hcells⟩, follows, columns, hcolumns, ready'⟩ := walkCells_goes holds next
        (fun d hd => tags d (List.mem_cons_of_mem cell hd)) (fun d hd => places d (List.mem_cons_of_mem cell hd)) h
      refine ⟨⟨r.cells ++ added, hcells.trans (List.append_assoc _ _ _)⟩, done.follows.trans follows, c :: columns,
        effectiveColumns_cons hc hcolumns, ?_⟩
      rw [List.getLastD_cons]
      exact ready'

/-- What is known of the cell `j` of a row when it is reached, and of what it becomes at the end of the row. -/
structure CellReached (site : Site) (cells : List Element) (last j : Nat) (cell : Element) (walk before final : Walk)
    (c : Nat) (r : Outcome) : Prop where
  start : walkCells site (cells.take j) walk = .ok before
  ready : Ready False site (cell.set "r" (numbered (c + before.inserted) site.number).text) (c + before.inserted)
    before.work
  column : ∃ columns, effectiveColumns last cells = .ok columns ∧ columns[j]? = some c
  fill : fillCell site (cell.set "r" (numbered (c + before.inserted) site.number).text) before.work = .ok r
  earlier : Work.Follows (fun _ => True) (Fills site.data) walk.work before.work
  sound : r.work.pool.Sound
  later : Work.Follows (fun _ => True) (Fills site.data) r.work final.work
  cells : ∃ rest, final.cells = before.cells ++ r.cells ++ rest

theorem exists_cellReached {site : Site} {cells : List Element} {last : Nat} {walk final : Walk}
    (ready : WalkReady False site last walk) (tags : ∀ cell ∈ cells, cell.tag = Vocabulary.cell)
    (h : walkCells site cells walk = .ok final) {j : Nat} {cell : Element} (hj : cells[j]? = some cell) :
    ∃ before c r, CellReached site cells last j cell walk before final c r := by
  obtain ⟨hlt, hcell⟩ := List.getElem?_eq_some_iff.mp hj
  have split : cells = cells.take j ++ cell :: cells.drop (j + 1) := by
    rw [← hcell, ← List.drop_eq_getElem_cons hlt, List.take_append_drop]
  rw [split] at h
  obtain ⟨before, hbefore, h⟩ := walkCells_append h
  obtain ⟨after, hafter, h⟩ := bind_eq_ok_iff.mp h
  have tag : cell.tag = Vocabulary.cell := tags cell (List.mem_of_getElem? hj)
  obtain ⟨-, earlier, front, hfront, ready'⟩ :=
    walkCells_goes (fun _ => True) ready (fun d hd => tags d (List.mem_of_mem_take hd)) (fun _ _ _ _ => trivial)
      hbefore
  obtain ⟨c, r, ⟨hc, start, hfill, -, -, next⟩, rfl⟩ :=
    exists_cellStep ready' tag (fun _ _ => trivial) False.elim hafter
  obtain ⟨⟨rest, hcells⟩, later, back, hback, -⟩ :=
    walkCells_goes (fun _ => True) next (fun d hd => tags d (List.mem_of_mem_drop hd)) (fun _ _ _ _ => trivial) h
  refine ⟨before, c, r, hbefore, start, ⟨front ++ c :: back, ?_, ?_⟩, hfill, earlier, next.sound, later, rest, hcells⟩
  · rw [split]
    exact effectiveColumns_append hfront (effectiveColumns_cons hc hback)
  · have length : front.length = j := by
      rw [length_of_effectiveColumns hfront, List.length_take, Nat.min_eq_left (Nat.le_of_lt hlt)]
    rw [← length, List.getElem?_append_right (Nat.le_refl _), Nat.sub_self]
    rfl

/-! ### A row of a sheet -/

/-- The place in the filled sheet of the row `k` of a sheet. -/
def rowPlace (sheet : Sheet) (workbook : Element) (pool : Pool) (data : Bindings) (k : Nat) : Nat :=
  ((blocks sheet workbook pool data).take k).flatten.length

/-- What is known of a row of a sheet when it is reached, and of what it becomes at the end of the pass. -/
structure RowReached (sheet : Sheet) (workbook : Element) (pool : Pool) (data : Bindings) (filled : Filled)
    (k : Nat) (row : Element) (scope : Scope) (before : Pass) (number : Int) (walk : Walk) (out : Element)
    (next final : Pass) : Prop where
  tag : row.tag = Vocabulary.worksheetRow
  scope_eq : ∃ sheetData, sheet.data? = some sheetData ∧ scope = rowScope sheet sheetData
  start : walkRows sheet.name data scope (sheet.rows.take k) (passStart sheet workbook pool) = .ok before
  ready : PassReady before
  earlier : Pool.Steps (fun _ => True) (Fills data) pool before.pool
  step : RowStep sheet.name data scope before row number walk out next
  sound : next.pool.Sound
  rest : walkRows sheet.name data scope (sheet.rows.drop (k + 1)) next = .ok final
  later : Pool.Steps (fun _ => True) (Fills data) next.pool filled.pool
  block : (blocks sheet workbook pool data)[k]? = some (out :: walk.work.newRows.map (·.row))
  place : before.rows.length = rowPlace sheet workbook pool data k
  next_place : next.rows.length = rowPlace sheet workbook pool data (k + 1)
  rows : filled.sheet.rows.map Element.meaning = final.rows.map Element.meaning
  rows_eq : final.rows = next.rows ++ (rowBlocks sheet.name data scope (sheet.rows.drop (k + 1)) next).flatten
  tables : filled.sheet.tables = final.anchored.tables
  stats : filled.stats = final.stats
  pool : filled.pool = final.pool

theorem exists_rowReached {sheet : Sheet} {workbook : Element} {pool : Pool} {data : Bindings}
    {filled : Filled} (hp : pool.Sound) (hrun : run sheet workbook pool data = .ok filled) {k : Nat}
    {row : Element} (hrow : sheet.rows[k]? = some row) :
    ∃ scope before number walk out next final,
      RowReached sheet workbook pool data filled k row scope before number walk out next final := by
  rcases run_cases hrun with ⟨hd, rfl⟩ | ⟨sheetData, pass, hd, hpass, rfl⟩
  · rw [rows_eq_nil hd] at hrow
    cases hrow
  · have htags : ∀ r ∈ sheet.rows, r.tag = Vocabulary.worksheetRow := fun _ h => tag_of_mem_rows h
    have htag := htags row (List.mem_of_getElem? hrow)
    have hblocks := blocks_eq hd workbook pool data
    obtain ⟨before, next, hbefore, hstep, hrest, hrows, hblock⟩ := walkRows_at hpass hrow
    obtain ⟨earlier, ready⟩ := walkRows_ready (fun _ => True) (passReady_start sheet workbook hp)
      (fun r hr => htags r (List.mem_of_mem_take hr)) (fun _ _ _ _ _ _ => trivial) hbefore
    obtain ⟨number, walk, out, step⟩ := stepRow_cases hstep
    have ready' := step.ready ready htag
    obtain ⟨later, ready''⟩ := walkRows_ready (fun _ => True) ready'
      (fun r hr => htags r (List.mem_of_mem_drop hr)) (fun _ _ _ _ _ _ => trivial) hrest
    have place : before.rows.length = rowPlace sheet workbook pool data k := by
      rw [hrows, rowPlace, hblocks]
      rfl
    refine ⟨_, before, number, walk, out, next, pass, htag, ⟨sheetData, hd, rfl⟩, hbefore, ready, earlier, step,
      ready'.sound, hrest, later, ?_, place, ?_, ?_, (walkRows_rows hrest).2, rfl, rfl, rfl⟩
    · rw [hblocks, hblock, step.block]
    · rw [rowPlace, List.take_add_one, hblocks, hblock, Option.toList_some, List.flatten_append,
        List.length_append, ← hblocks, ← rowPlace, ← place, List.flatten_singleton, List.length_drop, step.rows,
        List.length_append]
      omega
    · exact rows_passSheet hd ready'' (walkRows_other Vocabulary.sheetData (by decide) hpass)

section
variable {sheet : Sheet} {workbook : Element} {pool : Pool} {data : Bindings} {filled : Filled} {k : Nat}
  {row : Element} {scope : Scope} {before : Pass} {number : Int} {walk : Walk} {out : Element} {next final : Pass}
  (reached : RowReached sheet workbook pool data filled k row scope before number walk out next final)
include reached

/-- The rows behind the place of the row mean what its block means. -/
theorem RowReached.row_at {i : Nat} {e : Element} (he : (out :: walk.work.newRows.map (·.row))[i]? = some e) :
    ∃ e', filled.sheet.rows[rowPlace sheet workbook pool data k + i]? = some e' ∧ e'.meaning = e.meaning := by
  have here : final.rows[before.rows.length + i]? = some e := by
    have hi := (List.getElem?_eq_some_iff.mp he).1
    rw [reached.rows_eq, reached.step.rows, List.append_assoc, List.getElem?_append_right (by omega),
      Nat.add_sub_cancel_left, List.getElem?_append_left hi]
    exact he
  have := congrArg (fun es => es[rowPlace sheet workbook pool data k + i]?) reached.rows
  rw [← reached.place] at this ⊢
  simp only [List.getElem?_map, here, Option.map_some, Option.map_eq_some_iff] at this
  exact this

/-- The next row of the sheet stands behind the row and its new rows. -/
theorem RowReached.place_succ : rowPlace sheet workbook pool data (k + 1) =
    rowPlace sheet workbook pool data k + (walk.work.newRows.length + 1) := by
  rw [← reached.next_place, ← reached.place, reached.step.rows, List.length_append, List.length_cons,
    List.length_map]

/-- The rows behind the new rows of the row mean what the later blocks mean. -/
theorem RowReached.rows_after :
    (filled.sheet.rows.drop (rowPlace sheet workbook pool data (k + 1))).map Element.meaning =
      ((rowBlocks sheet.name data scope (sheet.rows.drop (k + 1)) next).flatten).map Element.meaning := by
  rw [List.map_drop, reached.rows, reached.rows_eq, ← reached.next_place, ← List.map_drop, List.drop_left]

/-- Up to the row, texts are replaced only at places of the sheet. -/
theorem RowReached.earlier_holds (hp : pool.Sound) : Pool.Steps (Holds sheet) (Fills data) pool before.pool := by
  have htags : ∀ r ∈ sheet.rows.take k, r.tag = Vocabulary.worksheetRow :=
    fun r hr => tag_of_mem_rows (List.mem_of_mem_take hr)
  apply (walkRows_ready (Holds sheet) (passReady_start sheet workbook hp) htags _ reached.start).1
  intro r hr cell hcell i hi
  exact ⟨r, List.mem_of_mem_take hr, cell, hcell, hi⟩

/-- Behind the row, texts are replaced only at places of the sheet. -/
theorem RowReached.later_holds : Pool.Steps (Holds sheet) (Fills data) next.pool filled.pool := by
  have ready := reached.step.ready reached.ready reached.tag
  have htags : ∀ r ∈ sheet.rows.drop (k + 1), r.tag = Vocabulary.worksheetRow :=
    fun r hr => tag_of_mem_rows (List.mem_of_mem_drop hr)
  rw [reached.pool]
  apply (walkRows_ready (Holds sheet) ready htags _ reached.rest).1
  intro r hr cell hcell i hi
  exact ⟨r, List.mem_of_mem_drop hr, cell, hcell, hi⟩

/-- The walk along the row starts with what the rows above have left. -/
theorem RowReached.walkReady : WalkReady False (siteOf data scope row number) 0 (walkStart before) :=
  walkReady_start number reached.tag reached.ready.sound

/-- The cells of the filled row mean what the walk has put in. -/
theorem RowReached.cells {e : Element} (he : e.meaning = out.meaning) :
    (cellsOf e).map Element.meaning = walk.cells.map Element.meaning := by
  obtain ⟨-, filled, -⟩ := reached.step.walked_any reached.tag reached.ready.sound
  exact (Markup.childrenWith_eq_of_meaning he Vocabulary.cell).trans (reached.step.out_cells filled.tags)

/-- A cell of the row when the walk is at it, and the walk up to there. -/
theorem RowReached.cellReached {j : Nat} {cell : Element} (hj : (cellsOf row)[j]? = some cell) :
    ∃ mid c r, CellReached (siteOf data scope row number) (cellsOf row) 0 j cell (walkStart before) mid walk c r :=
  exists_cellReached reached.walkReady (fun _ hc => Element.tag_of_mem_childrenWith hc) reached.step.walk_eq hj

end

end Expand
end Gridfill

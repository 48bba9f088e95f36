import Gridfill.Proofs.Sheet.Widths

/-!
# What a pass adds to a sheet

A pass counts the rows that it inserts and the widest growth of any row. No row of the sheet goes and no cell of a
row goes (`walkRows_length`, `RowStep.length_cells`), and a row that grows without new rows grows by cells of its own.
So the counts tell whether the sheet has gained a row or one of its rows a cell (`moved_iff_gains`).
-/

namespace Gridfill

open Markup (Element Scope)

/-- The sheet has more rows, or one of its rows has more cells. -/
def Sheet.Gains (s s' : Sheet) : Prop :=
  s.rows.length < s'.rows.length ∨ ∃ (i : Nat) (row row' : Element), s.rows[i]? = some row ∧ s'.rows[i]? = some row' ∧
    (cellsOf row).length < (cellsOf row').length

namespace Expand

/-! ### The work on a row -/

/-- New rows stay, and the count of columns changes only with them. -/
structure Work.Gathers (w w' : Work) : Prop where
  rows : w.newRows.length ≤ w'.newRows.length
  columns : w'.newRows = [] → w'.stats.columnsInserted = w.stats.columnsInserted

theorem length_le_of_ensureRow {site : Site} {rows rows' : List NewRow} {place : Nat}
    (h : ensureRow site rows place = .ok rows') : rows.length ≤ rows'.length := by
  unfold ensureRow at h
  split at h
  · exact Nat.le_of_eq (congrArg List.length (Except.ok.inj h))
  · obtain ⟨fresh, -, h⟩ := bind_eq_ok_iff.mp h
    rw [← Except.ok.inj h, List.length_append]
    exact Nat.le_add_right _ _

theorem gathers : Along Work.Gathers where
  trans h h' := ⟨Nat.le_trans h.rows h'.rows, fun none => by
    have rows := h'.rows
    rw [none, List.length_nil, Nat.le_zero, List.length_eq_zero_iff] at rows
    exact (h'.columns none).trans (h.columns rows)⟩
  counted h := by
    obtain ⟨_, _, rfl⟩ := h
    exact ⟨Nat.le_refl _, fun _ => rfl⟩
  record h := by
    obtain ⟨rows, hrows, ⟨-, rfl⟩ | ⟨target, cells, ref, inserted, pool, grown, tables, widest, htarget, -, -, -, -,
      rfl⟩⟩ := placeRecord_cases h
    · exact ⟨Nat.le_refl _, fun _ => rfl⟩
    · have length := length_le_of_ensureRow hrows
      refine ⟨by simpa using length, fun none => ?_⟩
      rw [List.set_eq_nil_iff] at none
      rw [none] at htarget
      cases htarget

/-- A walk along a row puts in a cell for each cell, and those that it counts. -/
theorem length_walkCells {site : Site} : ∀ {cells : List Element} {last : Nat} {walk walk' : Walk},
    WalkReady False site last walk → (∀ cell ∈ cells, cell.tag = Vocabulary.cell) →
    walkCells site cells walk = .ok walk' →
      walk'.cells.length + walk.inserted = walk.cells.length + cells.length + walk'.inserted
  | [], _, walk, walk', _, _, h => by
      rw [← Except.ok.inj h]
      rfl
  | cell :: cells, last, walk, walk', ready, tags, h => by
      obtain ⟨next, hnext, h⟩ := bind_eq_ok_iff.mp h
      obtain ⟨c, r, step, rfl⟩ :=
        exists_cellStep ready (tags cell List.mem_cons_self) (fun _ _ => trivial) False.elim hnext
      have rest := length_walkCells step.next (fun d hd => tags d (List.mem_cons_of_mem cell hd)) h
      have first := step.done.lies.length
      simp only [Walk.filled, List.length_append, List.length_cons] at rest ⊢
      omega

/-! ### One row -/

section
variable {name : String} {data : Bindings} {scope : Scope} {pass next : Pass} {row out : Element} {number : Int}
  {walk : Walk} (step : RowStep name data scope pass row number walk out next) (ready : PassReady pass)
  (htag : row.tag = Vocabulary.worksheetRow)
include step ready htag

/-- The filled row has the cells of the row and those that were inserted. -/
theorem RowStep.length_cells : (cellsOf out).length = (cellsOf row).length + walk.inserted := by
  obtain ⟨-, filled, -⟩ := step.walked_any htag ready.sound
  have cells := congrArg List.length (step.out_cells filled.tags)
  have walked := length_walkCells (walkReady_start number htag ready.sound)
    (fun _ hc => Element.tag_of_mem_childrenWith hc) step.walk_eq
  have start : walk.cells.length + 0 = 0 + (cellsOf row).length + walk.inserted := walked
  rw [List.length_map, List.length_map] at cells
  omega

/-- The step counts its new rows. -/
theorem RowStep.counted : next.stats.rowsInserted = pass.stats.rowsInserted + walk.work.newRows.length := by
  obtain ⟨follows, -⟩ := step.walked_any htag ready.sound
  rw [step.rowsInserted, follows.rowsInserted]
  rfl

/-- Without new rows, the count of columns grows to the cells that were inserted. -/
theorem RowStep.columns_of_none (none : walk.work.newRows = []) :
    next.stats.columnsInserted = max pass.stats.columnsInserted walk.inserted := by
  have columns := (gathers.walkCells (walkReady_start number htag ready.sound)
    (fun _ hc => Element.tag_of_mem_childrenWith hc) step.walk_eq).columns none
  rw [step.columnsInserted, columns]
  rfl

end

/-! ### All rows -/

section
variable {name : String} {data : Bindings} {scope : Scope}

/-- A pass has put in a row for each row, and those that it counts. -/
theorem walkRows_length : ∀ {rows : List Element} {pass final : Pass}, PassReady pass →
    (∀ row ∈ rows, row.tag = Vocabulary.worksheetRow) → walkRows name data scope rows pass = .ok final →
      pass.stats.rowsInserted ≤ final.stats.rowsInserted ∧
      final.rows.length + pass.stats.rowsInserted = pass.rows.length + rows.length + final.stats.rowsInserted
  | [], _, _, _, _, h => by
      obtain rfl := Except.ok.inj h
      exact ⟨Nat.le_refl _, rfl⟩
  | row :: rows, pass, final, ready, htags, h => by
      obtain ⟨next, number, walk, out, -, step, htag, ready', htags', h⟩ := walkRows_cons_cases ready htags h
      obtain ⟨more, rest⟩ := walkRows_length ready' htags' h
      have counted := step.counted ready htag
      simp only [step.rows, List.length_append, List.length_cons, List.length_map] at rest ⊢
      omega

/-- Some row has more cells than the row that it came from. -/
def Wider (rows outs : List Element) : Prop :=
  ∃ (i : Nat) (row out : Element), rows[i]? = some row ∧ outs[i]? = some out ∧
    (cellsOf row).length < (cellsOf out).length

theorem wider_cons {row out : Element} {rows outs : List Element} :
    Wider (row :: rows) (out :: outs) ↔ (cellsOf row).length < (cellsOf out).length ∨ Wider rows outs := by
  constructor
  · rintro ⟨i, row', out', hrow, hout, wider⟩
    cases i with
    | zero =>
        obtain rfl := Option.some.inj hrow
        obtain rfl := Option.some.inj hout
        exact Or.inl wider
    | succ i => exact Or.inr ⟨i, row', out', hrow, hout, wider⟩
  · rintro (wider | ⟨i, row', out', hrow, hout, wider⟩)
    · exact ⟨0, row, out, rfl, rfl, wider⟩
    · exact ⟨i + 1, row', out', hrow, hout, wider⟩

/-- Rows that mean the same are as wide. -/
theorem Wider.of_meaning {rows outs outs' : List Element} (h : outs.map Element.meaning = outs'.map Element.meaning)
    (wider : Wider rows outs) : Wider rows outs' := by
  obtain ⟨i, row, out, hrow, hout, more⟩ := wider
  have there := congrArg (fun es => es[i]?) h
  simp only [List.getElem?_map, hout, Option.map_some] at there
  obtain ⟨out', hout', same⟩ := Option.map_eq_some_iff.mp there.symm
  have cells := congrArg List.length (Markup.childrenWith_eq_of_meaning same Vocabulary.cell)
  rw [List.length_map, List.length_map] at cells
  exact ⟨i, row, out', hrow, hout', Nat.lt_of_lt_of_eq more cells.symm⟩

/-- When no rows are inserted, each row has one in its place, and columns are counted if and only if one of them
is wider. -/
theorem walkRows_flat : ∀ {rows : List Element} {pass final : Pass}, PassReady pass →
    (∀ row ∈ rows, row.tag = Vocabulary.worksheetRow) → walkRows name data scope rows pass = .ok final →
    final.stats.rowsInserted = pass.stats.rowsInserted →
      ∃ outs, final.rows = pass.rows ++ outs ∧
        (final.stats.columnsInserted ≠ 0 ↔ pass.stats.columnsInserted ≠ 0 ∨ Wider rows outs)
  | [], pass, final, _, _, h, _ => by
      obtain rfl := Except.ok.inj h
      refine ⟨[], (List.append_nil _).symm, (or_iff_left ?_).symm⟩
      rintro ⟨_, _, _, hrow, -⟩
      cases hrow
  | row :: rows, pass, final, ready, htags, h, flat => by
      obtain ⟨next, number, walk, out, -, step, htag, ready', htags', h⟩ := walkRows_cons_cases ready htags h
      have counted := step.counted ready htag
      obtain ⟨more, -⟩ := walkRows_length ready' htags' h
      obtain ⟨outs, hrows, columns⟩ := walkRows_flat ready' htags' h (by omega)
      have none : walk.work.newRows = [] := List.length_eq_zero_iff.mp (by omega)
      have width := step.length_cells ready htag
      have first := step.columns_of_none ready htag none
      refine ⟨out :: outs, ?_, ?_⟩
      · rw [hrows, step.rows, none, List.append_assoc]
        rfl
      · rw [columns, wider_cons, ← or_assoc]
        refine or_congr_left ?_
        omega

end

/-- A pass counts rows or columns if and only if the sheet has gained a row or one of its rows a cell. -/
theorem gains_iff {sheet : Sheet} {workbook : Element} {pool : Pool} {data : Bindings} {filled : Filled}
    (hp : pool.Sound) (h : run sheet workbook pool data = .ok filled) {s : Sheet} (rows : s.rows = filled.sheet.rows) :
    sheet.Gains s ↔ filled.stats.rowsInserted ≠ 0 ∨ filled.stats.columnsInserted ≠ 0 := by
  rw [Sheet.Gains, rows]
  rcases run_cases h with ⟨-, rfl⟩ | ⟨sheetData, pass, hd, hpass, rfl⟩
  · have same : ¬ Wider sheet.rows sheet.rows := by
      rintro ⟨i, row, out, hrow, hout, wider⟩
      rw [Option.some.inj (hrow.symm.trans hout)] at wider
      exact Nat.lt_irrefl _ wider
    exact iff_of_false (not_or.mpr ⟨Nat.lt_irrefl _, same⟩) (by simp [Stats.zero])
  · have start := passReady_start sheet workbook hp
    have htags : ∀ row ∈ sheet.rows, row.tag = Vocabulary.worksheetRow := fun _ hr => tag_of_mem_rows hr
    obtain ⟨-, ready⟩ := walkRows_ready (fun _ => True) start htags (fun _ _ _ _ _ _ => trivial) hpass
    have means := rows_passSheet hd ready (walkRows_other Vocabulary.sheetData (by decide) hpass)
    have length : (passSheet sheet sheetData pass).rows.length = pass.rows.length := by
      simpa only [List.length_map] using congrArg List.length means
    obtain ⟨-, total⟩ := walkRows_length start htags hpass
    have total : pass.rows.length + 0 = 0 + sheet.rows.length + pass.stats.rowsInserted := total
    show sheet.rows.length < (passSheet sheet sheetData pass).rows.length ∨ Wider sheet.rows _ ↔
      pass.stats.rowsInserted ≠ 0 ∨ pass.stats.columnsInserted ≠ 0
    rw [length]
    by_cases flat : pass.stats.rowsInserted = 0
    · obtain ⟨outs, hrows, columns⟩ := walkRows_flat start htags hpass flat
      rw [hrows] at means
      have none : ¬ sheet.rows.length < pass.rows.length := by omega
      have start : ¬ (passStart sheet workbook pool).stats.columnsInserted ≠ 0 := fun some => some rfl
      rw [columns, flat, or_iff_right none, or_iff_right (fun some => some rfl), or_iff_right start]
      exact ⟨.of_meaning means, .of_meaning means.symm⟩
    · exact iff_of_true (Or.inl (by omega)) (Or.inl flat)

end Expand
end Gridfill

import Gridfill.Proofs.Sheet.NewRows

/-!
# Where the fields of records stand

A row whose cells all show fields of the same records, each with as many values in every record: the first record
stands on the row of the cells, where each field is moved by the cells inserted for the fields before it, and each
further record stands on a new row, where each field is moved twice as far (`columns_of_records`). So the records stand
under each other only when no field but the last takes more than one cell (`spreadColumns_eq_iff`).
-/

namespace Gridfill

open Markup (Element)
open CellRef (numbered)

namespace Expand

/-! ### Columns of fields -/

/-- The columns of fields with the given widths when each is moved, `times` over, by the cells inserted for the fields
before it. -/
def spreadColumns (times : Nat) : Nat → List Nat → List Nat → List Nat
  | shift, c :: columns, w :: ws =>
    List.range' (c + shift) w ++ spreadColumns times (shift + times * (w - 1)) columns ws
  | _, _, _ => []

theorem length_spreadColumns (times : Nat) : ∀ {columns ws : List Nat} (shift : Nat), columns.length = ws.length →
    (spreadColumns times shift columns ws).length = ws.sum
  | [], [], _, _ => rfl
  | c :: columns, w :: ws, shift, hlen => by
      rw [spreadColumns, List.length_append, List.length_range', length_spreadColumns times _ (Nat.succ.inj hlen),
        List.sum_cons]

/-- Fields that take columns start in the first of them. -/
theorem shift_eq_of_spreadColumns {t t' s s' c w : Nat} {columns ws : List Nat} (hw : 1 ≤ w)
    (h : spreadColumns t s (c :: columns) (w :: ws) = spreadColumns t' s' (c :: columns) (w :: ws)) :
    s = s' ∧ spreadColumns t (s + t * (w - 1)) columns ws = spreadColumns t' (s' + t' * (w - 1)) columns ws := by
  obtain ⟨own, rest⟩ := List.append_inj h (by rw [List.length_range', List.length_range'])
  obtain ⟨w, rfl⟩ := Nat.exists_eq_add_of_le' hw
  rw [List.range'_succ, List.range'_succ] at own
  have first : c + s = c + s' := (List.cons.inj own).1
  exact ⟨Nat.add_left_cancel first, rest⟩

/-- Fields moved twice as far stand in the same columns if and only if no cells are inserted before the last. -/
theorem spreadColumns_eq_iff : ∀ {columns ws : List Nat} (shift : Nat), columns.length = ws.length →
    (∀ w ∈ ws, 1 ≤ w) →
    (spreadColumns 2 shift columns ws = spreadColumns 1 shift columns ws ↔ ∀ w ∈ ws.dropLast, w = 1)
  | [], [], _, _, _ => ⟨nofun, fun _ => rfl⟩
  | [c], [w], shift, _, _ => ⟨nofun, fun _ => rfl⟩
  | c :: d :: columns, w :: v :: ws, shift, hlen, hpos => by
      have hw := hpos w List.mem_cons_self
      have hv := hpos v (by simp)
      have hlen : (d :: columns).length = (v :: ws).length := Nat.succ.inj hlen
      have rest := spreadColumns_eq_iff shift hlen fun u hu => hpos u (List.mem_cons_of_mem w hu)
      rw [List.dropLast_cons_cons]
      constructor
      · intro h
        obtain ⟨-, tail⟩ := shift_eq_of_spreadColumns hw h
        obtain ⟨same, -⟩ := shift_eq_of_spreadColumns hv tail
        obtain rfl : w = 1 := by omega
        intro u hu
        rcases List.mem_cons.mp hu with rfl | hu
        · rfl
        · exact rest.mp tail u hu
      · intro h
        obtain rfl : w = 1 := h w List.mem_cons_self
        have tail := rest.mpr fun u hu => h u (List.mem_cons_of_mem 1 hu)
        rw [spreadColumns, spreadColumns]
        exact congrArg (List.range' (c + shift) 1 ++ ·) tail

/-! ### Fields of the same records -/

/-- The cells show fields of the same records, and each field has as many values in every record. -/
def Uniform (data : Bindings) (pool : Pool) (records : List Value) (cells : List Element) : Prop :=
  ∀ cell ∈ cells, ∃ key, downOf? data (Cell.shownText pool cell) = some (data.parts key records) ∧
    ∀ record ∈ records,
      (sideBySide (data.part key record)).length = cellWidth data (Cell.shownText pool cell)

theorem cellWidth_of_downOf? {data : Bindings} {text : Option String} {items : List Value}
    (h : downOf? data text = some items) : cellWidth data text = recordsWidth items := by
  obtain ⟨s, p, rfl, scan, table, layout⟩ := downOf?_eq_some h
  simp only [cellWidth, Option.map_some, scan, layout, table, if_true]

theorem recordsWidth_pos : ∀ items : List Value, 1 ≤ recordsWidth items
  | [] => Nat.le_refl 1
  | item :: items => by
      rw [← length_sideBySide_eq item items, sideBySide]
      cases item.items? with
      | none => exact Nat.le_refl 1
      | some values => exact (length_laidOut values).symm ▸ Nat.le_max_left 1 _

theorem cellWidth_pos (data : Bindings) (text : Option String) : 1 ≤ cellWidth data text := by
  unfold cellWidth
  split
  · split
    · exact Nat.le_refl 1
    · split
      · exact recordsWidth_pos _
      · exact Nat.le_max_left 1 _
  · exact Nat.le_refl 1

section
variable {data : Bindings} {pool : Pool} {records : List Value}

/-- The first record stands in the columns of its fields, moved by the cells inserted before each. -/
theorem map_column_heads : ∀ {cells : List Element} {columns : List Nat} (shift : Nat),
    columns.length = cells.length → Uniform data pool records cells →
    ((downs data pool shift columns cells).flatMap Down.headSpots).map (·.column) =
      spreadColumns 1 shift columns (widths data pool cells)
  | [], [], _, _, _ => rfl
  | cell :: cells, c :: columns, shift, hlen, uniform => by
      obtain ⟨key, hd, values⟩ := uniform cell List.mem_cons_self
      have rest := map_column_heads (shift + 1 * (cellWidth data (Cell.shownText pool cell) - 1)) (Nat.succ.inj hlen)
        fun d h => uniform d (List.mem_cons_of_mem cell h)
      have length : (Down.heads ⟨cell, c + shift, data.parts key records⟩).length =
          cellWidth data (Cell.shownText pool cell) := by
        cases records with
        | nil => rw [cellWidth_of_downOf? hd]; rfl
        | cons record records => exact values record List.mem_cons_self
      rw [Nat.one_mul] at rest
      simp only [downs, hd, List.flatMap_cons, List.map_append, rest, Down.headSpots, map_column_spotsFrom, length]
      rw [widths, widths, List.map_cons, spreadColumns, Nat.one_mul]

/-- A further record stands in the columns of its fields, each moved twice: with the cell whose field it is, and by the
cells inserted for the record before it. -/
theorem map_column_recordSpots {i : Nat} (hi : i < records.length) : ∀ {cells : List Element} {columns : List Nat}
    (shift inserted : Nat), columns.length = cells.length → Uniform data pool records cells →
    (recordSpots i inserted (downs data pool shift columns cells)).map (·.column) =
      spreadColumns 2 (shift + inserted) columns (widths data pool cells)
  | [], [], _, _, _, _ => rfl
  | cell :: cells, c :: columns, shift, inserted, hlen, uniform => by
      obtain ⟨key, hd, values⟩ := uniform cell List.mem_cons_self
      have length : (Down.values ⟨cell, c + shift, data.parts key records⟩ i).length =
          cellWidth data (Cell.shownText pool cell) := by
        rw [Down.values, Bindings.parts, List.getElem?_map, List.getElem?_eq_getElem hi]
        exact values _ (List.getElem_mem hi)
      have rest := map_column_recordSpots hi (shift + (cellWidth data (Cell.shownText pool cell) - 1))
        (inserted + (cellWidth data (Cell.shownText pool cell) - 1)) (Nat.succ.inj hlen)
        fun d h => uniform d (List.mem_cons_of_mem cell h)
      have twice : shift + (cellWidth data (Cell.shownText pool cell) - 1) +
          (inserted + (cellWidth data (Cell.shownText pool cell) - 1)) =
            shift + inserted + 2 * (cellWidth data (Cell.shownText pool cell) - 1) := by omega
      simp only [downs, hd, recordSpots, List.map_append, map_column_spotsFrom, Down.extra, length, rest]
      rw [widths, widths, List.map_cons, spreadColumns, twice, Nat.add_assoc]

/-- A row of fields needs a new row for each further record. -/
theorem newRowCount_downs : ∀ {cells : List Element} {columns : List Nat} (shift : Nat),
    columns.length = cells.length → Uniform data pool records cells → cells ≠ [] →
    newRowCount (downs data pool shift columns cells) = records.length - 1
  | [], _, _, _, _, hsome => absurd rfl hsome
  | cell :: cells, c :: columns, shift, hlen, uniform, _ => by
      obtain ⟨key, hd, -⟩ := uniform cell List.mem_cons_self
      have hlen : columns.length = cells.length := Nat.succ.inj hlen
      have length : (data.parts key records).length = records.length := List.length_map _
      rw [downs]
      simp only [hd]
      by_cases hcells : cells = []
      · subst hcells
        obtain rfl := List.length_eq_zero_iff.mp hlen
        exact (newRowCount_singleton _).trans (congrArg (· - 1) length)
      · have rest := newRowCount_downs (shift + (cellWidth data (Cell.shownText pool cell) - 1)) hlen
          (fun d h => uniform d (List.mem_cons_of_mem cell h)) hcells
        show max ((data.parts key records).length - 1) _ = _
        rw [length, ← newRowCount, rest, Nat.max_self]

end

/-- Cells that take spots stand in the columns of these. -/
theorem stand_of_taken {pool : Pool} {number : Int} {spots : List Spot} {cells : List Element}
    (h : List.Forall₂ (Spot.TakenBy pool number) spots cells) : StandAt number (spots.map (·.column)) cells := by
  induction h with
  | nil => rfl
  | cons h _ rest =>
      rw [StandAt] at rest
      rw [StandAt, List.map_cons, List.map_cons, List.map_cons, h.ref, rest]

/-! ### A small row of fields -/

/-- A row with two fields of the same records. -/
def fieldRow : Element :=
  plainElement "row" [("r", "1")]
    [plainCell [("r", "A1"), ("t", "s")] "0", plainCell [("r", "B1"), ("t", "s")] "1"]

def fieldSheet : Sheet where
  info := ⟨1, "Data", "sheet1.xml", none⟩
  root := plainElement "worksheet" [] [plainElement "sheetData" [] [fieldRow]]
  tables := []

def fieldPool : Pool := .ofTexts ["${table:rs.f}", "${table:rs.g}"]

/-- Two records, each with two values in its first field. -/
def fieldRecords : List Value :=
  [.mapping [("f", .list [.int 1, .int 2]), ("g", .int 3)], .mapping [("f", .list [.int 4, .int 5]), ("g", .int 6)]]

def fieldData : Bindings := .ofValues [("rs", .list fieldRecords)]

theorem uniform_fieldRow : Uniform fieldData fieldPool fieldRecords (cellsOf fieldRow) := by
  have texts : (cellsOf fieldRow).map (Cell.shownText fieldPool) = [some "${table:rs.f}", some "${table:rs.g}"] := by
    decide +kernel
  have first : Placeholder.scan "${table:rs.f}" = [⟨"${table:rs.f}", "table", "rs", some "f", true, 0, 13⟩] := by
    decide +kernel
  have second : Placeholder.scan "${table:rs.g}" = [⟨"${table:rs.g}", "table", "rs", some "g", true, 0, 13⟩] := by
    decide +kernel
  intro cell hc
  have shown : Cell.shownText fieldPool cell ∈ [some "${table:rs.f}", some "${table:rs.g}"] :=
    texts ▸ List.mem_map_of_mem hc
  simp only [List.mem_cons, List.not_mem_nil, or_false] at shown
  rcases shown with shown | shown
  · rw [shown]
    exact ⟨some "f", downOf?_of_scan first rfl, by decide +kernel⟩
  · rw [shown]
    exact ⟨some "g", downOf?_of_scan second rfl, by decide +kernel⟩

/-! ### The columns of records -/

/-- The columns in which the records of a row of fields stand, and when they are the same for all records. -/
theorem columns_of_records {sheet : Sheet} {workbook : Element} {pool : Pool} {data : Bindings} {filled : Filled}
    (hpool : pool.Built) (hrun : run sheet workbook pool data = .ok filled) {k : Nat} {row : Element}
    (hrow : sheet.rows[k]? = some row) {records : List Value} (uniform : Uniform data pool records (cellsOf row))
    (hsome : cellsOf row ≠ []) :
    ∃ columns number out, effectiveColumns 0 (cellsOf row) = .ok columns ∧
      let ws := widths data pool (cellsOf row)
      let place := rowPlace sheet workbook pool data
      (filled.sheet.rows[place k]? = some out ∧ StandAt number (spreadColumns 1 0 columns ws) (cellsOf out)) ∧
      place (k + 1) = place k + (records.length - 1 + 1) ∧
      (∀ i, 1 ≤ i → i < records.length → ∃ e, filled.sheet.rows[place k + i]? = some e ∧
        StandAt (number + i) (spreadColumns 2 0 columns ws) (cellsOf e)) ∧
      (spreadColumns 2 0 columns ws = spreadColumns 1 0 columns ws ↔ ∀ w ∈ ws.dropLast, w = 1) := by
  have sound := Pool.sound_of_built hpool
  obtain ⟨scope, before, number, walk, out, next, final, reached⟩ := exists_rowReached sound hrun hrow
  have settled (cell : Element) (hc : cell ∈ cellsOf row) : Settled data pool cell := by
    obtain ⟨key, hd, -⟩ := uniform cell hc
    exact settled_of_downOf? sound hd
  obtain ⟨columns, hcolumns, length, rows, heads, sub, taken⟩ := reached.recorded settled
  have hlen : columns.length = (cellsOf row).length := length_of_effectiveColumns hcolumns
  have hws : columns.length = (widths data pool (cellsOf row)).length := hlen.trans (List.length_map _).symm
  obtain ⟨e, he, hm⟩ := reached.row_at (i := 0) rfl
  obtain ⟨heads', sub', taken'⟩ := reached.heads_at hm sub taken
  have count := newRowCount_downs 0 hlen uniform hsome
  have first := stand_of_taken taken'
  rw [map_column_heads 0 hlen uniform] at first
  -- all cells of the row show the first record
  have all : heads' = cellsOf e := by
    refine sub'.eq_of_length ?_
    have cells := congrArg List.length (reached.cells hm)
    have spots := congrArg List.length first
    rw [List.length_map, List.length_map] at cells spots
    rw [cells, length, spots, length_spreadColumns 1 0 hws]
  refine ⟨columns, number, e, hcolumns, ⟨he, all ▸ first⟩, ?_, fun i hi hlt => ?_, ?_⟩
  · rw [reached.place_succ, rows.length, count]
  · obtain ⟨e', he', holds⟩ := reached.newRow_at rows hi (by omega)
    have stand := stand_of_taken holds.cells
    rw [map_column_recordSpots hlt 0 0 hlen uniform] at stand
    exact ⟨e', he', stand⟩
  · refine spreadColumns_eq_iff 0 hws fun w hw => ?_
    obtain ⟨cell, -, rfl⟩ := List.mem_map.mp hw
    exact cellWidth_pos data _

/-- The second record of the small sheet has its second field one column to the right of that of the first. -/
theorem columns_of_records_two : ∃ filled out e, ∃ number : Int,
    run fieldSheet smallWorkbook fieldPool fieldData = .ok filled ∧
      filled.sheet.rows[0]? = some out ∧ StandAt number [1, 2, 3] (cellsOf out) ∧
      filled.sheet.rows[1]? = some e ∧ StandAt (number + 1) [1, 2, 4] (cellsOf e) := by
  have goes : (run fieldSheet smallWorkbook fieldPool fieldData).toBool = true := by decide +kernel
  obtain ⟨filled, hrun⟩ := exists_of_isOk goes
  have hpool : fieldPool.Built := .ofTexts _
  have hrow : fieldSheet.rows[0]? = some fieldRow := by rfl
  obtain ⟨columns, number, out, hcolumns, ⟨hout, first⟩, -, further, -⟩ :=
    columns_of_records hpool hrun hrow uniform_fieldRow (by decide +kernel)
  obtain rfl : [1, 2] = columns := by
    have : (effectiveColumns 0 (cellsOf fieldRow)).toOption = some [1, 2] := by decide +kernel
    exact Except.ok.inj ((toOption_eq_some_iff.mp this).symm.trans hcolumns)
  obtain ⟨e, he, second⟩ := further 1 (Nat.le_refl 1) (by decide)
  have ws : widths fieldData fieldPool (cellsOf fieldRow) = [2, 1] := by decide +kernel
  rw [ws] at first second
  exact ⟨filled, out, e, number, hrun, hout, first, he, second⟩

end Expand
end Gridfill

import Gridfill.Proofs.Sheet.Coverage
import Gridfill.Proofs.Sheet.Gains
import Gridfill.Proofs.Sheet.Texts

/-!
# The dimension of a sheet

The dimension grows once, by all rows that a pass has inserted and by the widest growth of any row, while each row
moves down by the rows inserted above it and each cell to the right by those inserted before it in its row. When no
value of a record is a sequence, the new rows of a row grow no further than the row itself (`walkCells_between`), so
no cell moves by more than the counts of the pass (`RowReached.between`).
-/

namespace Gridfill

open Markup (Element)
open CellRef (numbered)

/-! ### Cells between two columns -/

/-- The cells stand in a row, in columns from the first to the last. -/
def StandBetween (row : Int) (first last : Nat) (cells : List Element) : Prop :=
  ∃ columns, StandAt row columns cells ∧ ∀ c ∈ columns, first ≤ c ∧ c ≤ last

namespace StandBetween

variable {row : Int} {first last : Nat}

theorem nil : StandBetween row first last [] := ⟨[], rfl, by simp⟩

theorem append {cells more : List Element} (h : StandBetween row first last cells)
    (h' : StandBetween row first last more) : StandBetween row first last (cells ++ more) := by
  obtain ⟨as, stand, bounds⟩ := h
  obtain ⟨bs, stand', bounds'⟩ := h'
  refine ⟨as ++ bs, stand.append stand', fun c hc => ?_⟩
  rcases List.mem_append.mp hc with hc | hc
  · exact bounds c hc
  · exact bounds' c hc

theorem mono {last' : Nat} {cells : List Element} (h : StandBetween row first last cells) (more : last ≤ last') :
    StandBetween row first last' cells := by
  obtain ⟨columns, stand, bounds⟩ := h
  exact ⟨columns, stand, fun c hc => ⟨(bounds c hc).1, Nat.le_trans (bounds c hc).2 more⟩⟩

theorem of_meaning {cells others : List Element} (hm : others.map Element.meaning = cells.map Element.meaning)
    (h : StandBetween row first last cells) : StandBetween row first last others := by
  obtain ⟨columns, stand, bounds⟩ := h
  exact ⟨columns, stand.of_meaning hm, bounds⟩

/-- Cells side by side. -/
theorem of_range {column : Nat} {cells : List Element} (stand : StandAt row (List.range' column cells.length) cells)
    (left : first ≤ column) (right : column + cells.length ≤ last + 1) : StandBetween row first last cells := by
  refine ⟨_, stand, fun c hc => ?_⟩
  have := List.mem_range'_1.mp hc
  omega

end StandBetween

namespace Expand

/-! ### New rows -/

/-- The new rows behind a row have not moved cells to the right, and their cells stand between two columns. -/
def RowsBetween (number : Int) (first last : Nat) (rows : List NewRow) : Prop :=
  ∀ (i : Nat) (r : NewRow), rows[i]? = some r →
    r.shift = 0 ∧ StandBetween (number + i + 1) first last (cellsOf r.row)

section
variable {site : Site} {first last : Nat}

theorem RowsBetween.mono {number : Int} {last' : Nat} {rows : List NewRow} (h : RowsBetween number first last rows)
    (more : last ≤ last') : RowsBetween number first last' rows :=
  fun i r hr => ⟨(h i r hr).1, (h i r hr).2.mono more⟩

theorem rowsBetween_ensureRow {rows rows' : List NewRow} {place : Nat} (h : ensureRow site rows place = .ok rows')
    (between : RowsBetween site.number first last rows) : RowsBetween site.number first last rows' := by
  intro i r hr
  rcases getElem?_of_ensureRow h hr with old | ⟨-, -, fresh⟩
  · exact between i r old
  · obtain ⟨number, -, fresh⟩ := bind_eq_ok_iff.mp fresh
    rw [← Except.ok.inj fresh]
    exact ⟨rfl, .nil⟩

/-- Placing a record that is no sequence. -/
theorem rowsBetween_placeRecord (hrow : site.row.tag = Vocabulary.worksheetRow) {cell : Element}
    (htag : cell.tag = Vocabulary.cell) {c : Nat} (hc : 1 ≤ c) (left : first ≤ c) (right : c ≤ last)
    {chosen : List Bool} {place : Nat} {item : Value} (scalar : item.items? = none) {work work' : Work}
    (hp : work.pool.Sound) (fit : FitRows False site.number (reached c place) work.pool.size work.newRows)
    (between : RowsBetween site.number first last work.newRows)
    (h : placeRecord site cell (String.ofList (Reference.columnLetters c)) chosen place item work = .ok work') :
    RowsBetween site.number first last work'.newRows := by
  obtain ⟨rows, hrows, ⟨-, rfl⟩ | ⟨target, cells, ref, inserted, pool, grown, tables, widest, htarget, hcells, hgrown,
    -, -, rfl⟩⟩ := placeRecord_cases h
  · exact between
  have held := rowsBetween_ensureRow hrows between
  obtain ⟨unmoved, stand⟩ := held place target htarget
  have number := (fitRows_ensureRow hrow fit hrows place target htarget).parse
  obtain ⟨length, laid, -, -⟩ := recordCells_spec (fun _ => True) (Fills site.data) hc number hp hcells
  have single : item.isSequence = false := by
    rw [Value.isSequence_eq_isSome_items?, scalar]
    rfl
  obtain rfl := inserted_of_recordCells single hcells
  have tags : ∀ e ∈ cells, e.tag = Vocabulary.cell := fun e he => (laid.style e he).tag.trans htag
  have means := cells_of_addCells tags hgrown
  obtain ⟨row, -, hgrown⟩ := bind_eq_ok_iff.mp hgrown
  have more : StandBetween (site.number + place + 1) first last cells :=
    .of_range laid.stand (by omega) (by omega)
  intro i r hr
  rcases eq_or_of_getElem?_set hr with ⟨rfl, rfl⟩ | ⟨-, hr⟩
  · refine ⟨?_, (stand.append more).of_meaning means⟩
    rw [← Except.ok.inj hgrown]
    exact unmoved
  · exact held i r hr

/-- Placing records none of which is a sequence. -/
theorem rowsBetween_placeRecords (hrow : site.row.tag = Vocabulary.worksheetRow) {cell : Element}
    (htag : cell.tag = Vocabulary.cell) {c : Nat} (hc : 1 ≤ c) (left : first ≤ c) (right : c ≤ last)
    {chosen : List Bool} : ∀ {items : List Value} {place : Nat} {work work' : Work},
      (∀ item ∈ items, item.items? = none) → work.pool.Sound →
      chosen.length = work.tables.length →
      FitRows False site.number (reached c place) work.pool.size work.newRows →
      RowsBetween site.number first last work.newRows →
      placeRecords site cell (String.ofList (Reference.columnLetters c)) chosen place items work = .ok work' →
        RowsBetween site.number first last work'.newRows
  | [], _, _, _, _, _, _, _, between, h => by
      rw [← Except.ok.inj h]
      exact between
  | item :: items, place, work, work', scalar, hp, hlen, fit, between, h => by
      obtain ⟨next, hnext, h⟩ := bind_eq_ok_iff.mp h
      obtain ⟨follows, fit'⟩ := placeRecord_spec (fun _ => True) (Fills site.data) hrow htag hc hp hlen fit hnext
      exact rowsBetween_placeRecords hrow htag hc left right (fun r hr => scalar r (List.mem_cons_of_mem item hr))
        (follows.pool.sound hp) (hlen.trans follows.tables.length_eq) fit'
        (rowsBetween_placeRecord hrow htag hc left right (scalar item List.mem_cons_self) hp fit between hnext) h

/-- Filling a cell whose records are no sequences. -/
theorem rowsBetween_fillCell {cell : Element} {column : Nat} {work : Work} {r : Outcome}
    (ready : Ready False site cell column work) (left : first ≤ column) (right : column ≤ last)
    (scalar : ScalarRecords site.data (Cell.shownText work.pool cell))
    (between : RowsBetween site.number first last work.newRows) (h : fillCell site cell work = .ok r) :
    RowsBetween site.number first last r.work.newRows := by
  have filling := filling_of_fillCell h
  cases hd : downOf? site.data (Cell.shownText work.pool cell) with
  | none =>
      rw [(kept_of_filling filling hd).1]
      exact between
  | some items =>
      obtain ⟨s, p, shown, scan, table, layout⟩ := downOf?_eq_some hd
      have scalar := scalar items hd
      rw [fillCell_of_layout? shown scan layout, if_pos table] at h
      obtain ⟨r', hr', rfl⟩ := map_eq_ok_iff.mp h
      show RowsBetween site.number first last r'.work.newRows
      cases items with
      | nil =>
          rw [← Except.ok.inj hr']
          exact between
      | cons item items =>
          obtain ⟨chosen, below, cells, pool, work', hchosen, style, puts, hwork, rfl⟩ :=
            spreadDown_cases ready.pos ready.ref hr'
          obtain ⟨-, -, steps⟩ := puts_spec (fun _ => True) (Fills site.data) ready.pos ready.ref ready.sound puts
          have tag : below.tag = Vocabulary.cell := style.tag.trans ready.tag
          refine rowsBetween_placeRecords ready.row tag ready.pos left right ?_ ?_ ?_ ?_ ?_ hwork
          · exact fun r hr => scalar r (List.mem_cons_of_mem item hr)
          · exact steps.sound ready.sound
          · exact (mapM_eq_ok_iff.mp hchosen).length_eq.symm
          · exact ready.rows.mono (fun no => no.elim) steps.size_le
          · exact between

end

/-! ### The walk along a row -/

/-- The column of a cell with a reference is that of the reference. -/
theorem lettersNumber_of_effectiveColumn {last c : Nat} {cell : Element} {r : CellRef}
    (hr : CellRef.parse (cell.attributeOr "r" "") = .ok r) (hc : effectiveColumn last cell = .ok c) :
    Reference.lettersNumber r.column.toList = c := by
  unfold effectiveColumn at hc
  simp only at hc
  split at hc
  · next hempty =>
    rw [hempty] at hr
    cases hr
  · rw [hr] at hc
    exact Except.ok.inj ((CellRef.valid_of_parse hr).wide.columnNumber.symm.trans hc)

/-- Along a row whose cells carry columns between two columns, and whose records are no sequences, the cells that are
put in stand at most as many columns further to the right as cells were inserted into the row, and so do those in its
new rows. -/
theorem walkCells_between {site : Site} (first last : Nat) : ∀ {cells : List Element} {prev : Nat} {walk walk' : Walk},
    WalkReady False site prev walk → (∀ cell ∈ cells, cell.tag = Vocabulary.cell) →
    (∀ cell ∈ cells, ∃ r, CellRef.parse (cell.attributeOr "r" "") = .ok r ∧
      first ≤ Reference.lettersNumber r.column.toList ∧ Reference.lettersNumber r.column.toList ≤ last) →
    (∀ text ∈ walkTexts site cells walk, ScalarRecords site.data text) →
    StandBetween site.number first (last + walk.inserted) walk.cells →
    RowsBetween site.number first (last + walk.inserted) walk.work.newRows →
    walkCells site cells walk = .ok walk' →
      StandBetween site.number first (last + walk'.inserted) walk'.cells ∧
        RowsBetween site.number first (last + walk'.inserted) walk'.work.newRows
  | [], _, _, _, _, _, _, _, stand, rows, h => by
      rw [← Except.ok.inj h]
      exact ⟨stand, rows⟩
  | cell :: cells, prev, walk, walk', ready, tags, refs, scalar, stand, rows, h => by
      obtain ⟨next, hnext, h⟩ := bind_eq_ok_iff.mp h
      obtain ⟨c, r, step, rfl⟩ :=
        exists_cellStep ready (tags cell List.mem_cons_self) (fun _ _ => trivial) False.elim hnext
      obtain ⟨own, hown, left, right⟩ := refs cell List.mem_cons_self
      rw [lettersNumber_of_effectiveColumn hown step.column] at left right
      rw [walkTexts_cons hnext, List.forall_mem_cons] at scalar
      have here := scalar.1
      have more : last + walk.inserted ≤ last + (walk.inserted + r.inserted) := by omega
      have within : c + walk.inserted ≤ last + walk.inserted := by omega
      have filled := rowsBetween_fillCell step.start (by omega) within (by rwa [Cell.shownText_set_ref]) rows step.fill
      have length := step.done.lies.length
      refine walkCells_between first last step.next (fun d hd => tags d (List.mem_cons_of_mem cell hd))
        (fun d hd => refs d (List.mem_cons_of_mem cell hd)) scalar.2 ?_ (filled.mono more) h
      exact (stand.mono more).append (.of_range step.done.lies.stand (by omega) (by omega))

/-! ### In the filled sheet -/

/-- The cells of the rows carry references, each to a cell of its own row that the range holds. -/
def CoveredBy (range : CellRange) (rows : List Element) : Prop :=
  ∀ row ∈ rows, ∃ m, ownNumber row = .ok m ∧ ∀ cell ∈ cellsOf row, ∃ r,
    CellRef.parse (cell.attributeOr "r" "") = .ok r ∧ r.row = m ∧ range.holds r = .ok true

/-- Whether rows are covered can be computed. -/
theorem coveredBy_of_all {range : CellRange} {rows : List Element} (h : (rows.all fun row =>
    (ownNumber row).toOption.any fun m => (cellsOf row).all fun cell =>
      (CellRef.parse (cell.attributeOr "r" "")).toOption.any fun r =>
        decide (r.row = m) && decide ((range.holds r).toOption = some true)) = true) : CoveredBy range rows := by
  intro row hrow
  obtain ⟨m, hm, cells⟩ := (Option.any_eq_true _ _).mp (List.all_eq_true.mp h row hrow)
  refine ⟨m, toOption_eq_some_iff.mp hm, fun cell hcell => ?_⟩
  obtain ⟨r, hr, placed⟩ := (Option.any_eq_true _ _).mp (List.all_eq_true.mp cells cell hcell)
  obtain ⟨own, held⟩ := Bool.and_eq_true_iff.mp placed
  exact ⟨r, toOption_eq_some_iff.mp hr, of_decide_eq_true own, toOption_eq_some_iff.mp (of_decide_eq_true held)⟩

section
variable {sheet : Sheet} {workbook : Element} {pool : Pool} {data : Bindings} {filled : Filled} {k : Nat}
  {row : Element} {scope : Markup.Scope} {before : Pass} {number : Int} {walk : Walk} {out : Element}
  {next final : Pass}
  (reached : RowReached sheet workbook pool data filled k row scope before number walk out next final)
include reached

/-- Each row moves down by no more than the rows inserted in the pass, its new rows included. -/
theorem RowReached.number_le {m : Int} (hm : ownNumber row = .ok m) :
    m ≤ number ∧ number + walk.work.newRows.length ≤ m + filled.stats.rowsInserted := by
  have counted := reached.step.counted reached.ready reached.tag
  have ready := reached.step.ready reached.ready reached.tag
  obtain ⟨later, -⟩ :=
    walkRows_length ready (fun r hr => tag_of_mem_rows (List.mem_of_mem_drop hr)) reached.rest
  have number := currentNumber_eq hm reached.step.number_eq
  rw [reached.stats]
  omega

/-- No row grows by more columns than the pass counts. -/
theorem RowReached.inserted_le : walk.inserted ≤ filled.stats.columnsInserted := by
  have ready := reached.step.ready reached.ready reached.tag
  have later := walkRows_widest ready (fun r hr => tag_of_mem_rows (List.mem_of_mem_drop hr)) reached.rest
  rw [← reached.stats, reached.step.columnsInserted] at later
  exact Nat.le_trans (Nat.le_max_right _ _) later

/-- The rows that a pass puts in the place of a row whose cells stand between two columns. -/
theorem RowReached.between (first last : Nat)
    (refs : ∀ cell ∈ cellsOf row, ∃ r, CellRef.parse (cell.attributeOr "r" "") = .ok r ∧
      first ≤ Reference.lettersNumber r.column.toList ∧ Reference.lettersNumber r.column.toList ≤ last)
    (hrow : sheet.rows[k]? = some row)
    (scalar : ∀ text ∈ textsReached sheet workbook pool data, ScalarRecords data text) :
    ∀ e ∈ out :: walk.work.newRows.map (·.row), ∃ i : Nat, i ≤ walk.work.newRows.length ∧
      ownNumber e = .ok (number + i) ∧
      StandBetween (number + i) first (last + filled.stats.columnsInserted) (cellsOf e) := by
  obtain ⟨stand, rows⟩ := walkCells_between first last reached.walkReady
    (fun _ hc => Element.tag_of_mem_childrenWith hc) refs
    (fun text ht => scalar text (reached.mem_textsReached hrow ht)) .nil (fun _ _ hr => by cases hr)
    reached.step.walk_eq
  obtain ⟨-, placed, limit, fit⟩ := reached.step.walked_any reached.tag reached.ready.sound
  have wider : last + walk.inserted ≤ last + filled.stats.columnsInserted :=
    Nat.add_le_add_left reached.inserted_le last
  intro e he
  rcases List.mem_cons.mp he with rfl | he
  · refine ⟨0, Nat.zero_le _, ?_, ?_⟩
    · rw [reached.step.out_number]
      exact congrArg Except.ok (Int.add_zero number).symm
    · have here : number + ((0 : Nat) : Int) = number := Int.add_zero number
      rw [here]
      exact (stand.of_meaning (reached.step.out_cells placed.tags)).mono wider
  · obtain ⟨r, hr, rfl⟩ := List.mem_map.mp he
    obtain ⟨i, hi⟩ := List.mem_iff_getElem?.mp hr
    have there : number + ((i + 1 : Nat) : Int) = number + i + 1 := by omega
    refine ⟨i + 1, (List.getElem?_eq_some_iff.mp hi).1, ?_, ?_⟩
    · rw [there]
      exact (fit i r hi).parse
    · rw [there]
      exact (rows i r hi).2.mono wider

end

/-- In a sheet whose cells are covered, and whose records are no sequences, the rows that a pass leaves stand within
the rows and columns moved on by the counts of the pass. -/
theorem covered_of_run {sheet : Sheet} {workbook : Element} {pool : Pool} {data : Bindings} {filled : Filled}
    (hp : pool.Sound) (hrun : run sheet workbook pool data = .ok filled) {range : CellRange} (valid : range.Valid)
    (covered : CoveredBy range sheet.rows)
    (scalar : ∀ text ∈ textsReached sheet workbook pool data, ScalarRecords data text) :
    ∀ e ∈ filled.sheet.rows, ∃ number columns, ownNumber e = .ok number ∧ StandAt number columns (cellsOf e) ∧
      ∀ c ∈ columns, (range.start.row ≤ number ∧ number ≤ range.stop.row + filled.stats.rowsInserted) ∧
        Reference.lettersNumber range.start.column.toList ≤ c ∧
        c ≤ Reference.lettersNumber range.stop.column.toList + filled.stats.columnsInserted := by
  intro e he
  obtain ⟨length, means⟩ := rows_of_run hp hrun
  obtain ⟨d, hd, same⟩ := List.mem_map.mp (means ▸ List.mem_map_of_mem he)
  obtain ⟨block, hblock, hd⟩ := List.mem_flatten.mp hd
  obtain ⟨k, hk⟩ := List.mem_iff_getElem?.mp hblock
  have hlt := (List.getElem?_eq_some_iff.mp hk).1
  rw [length] at hlt
  have hrow : sheet.rows[k]? = some sheet.rows[k] := List.getElem?_eq_getElem hlt
  obtain ⟨scope, before, number, walk, out, next, final, reached⟩ := exists_rowReached hp hrun hrow
  obtain rfl := Option.some.inj (hk.symm.trans reached.block)
  obtain ⟨m, hm, cells⟩ := covered _ (List.getElem_mem hlt)
  obtain ⟨low, high⟩ := reached.number_le hm
  have own : ownNumber e = ownNumber d := by rw [ownNumber, ownNumber, Markup.attributeOr_eq_of_meaning same]
  have alike := Markup.childrenWith_eq_of_meaning same.symm Vocabulary.cell
  have stands (first last : Nat) (inside : ∀ cell ∈ cellsOf sheet.rows[k], ∀ r,
      CellRef.parse (cell.attributeOr "r" "") = .ok r → range.holds r = .ok true →
        first ≤ Reference.lettersNumber r.column.toList ∧ Reference.lettersNumber r.column.toList ≤ last) :=
    reached.between first last (fun cell hc => by
      obtain ⟨r, hr, -, held⟩ := cells cell hc
      exact ⟨r, hr, inside cell hc r hr held⟩) hrow scalar d hd
  have holds {cell : Element} {r : CellRef} (hr : CellRef.parse (cell.attributeOr "r" "") = .ok r)
      (held : range.holds r = .ok true) : range.extent.Holds (Reference.lettersNumber r.column.toList) r.row := by
    rw [CellRange.holds_of_columnNumber valid.start.wide valid.stop.wide
      (CellRef.valid_of_parse hr).wide.columnNumber] at held
    exact of_decide_eq_true (Except.ok.inj held)
  rcases hcells : cellsOf sheet.rows[k] with - | ⟨cell, rest⟩
  · -- a row without cells stays without cells, wherever it stands
    obtain ⟨i, hi, number_eq, columns, stand, bounds⟩ :=
      stands (filled.stats.columnsInserted + 1) 0 (by simp [hcells])
    refine ⟨number + i, columns, own.trans number_eq, stand.of_meaning alike, fun c hc => ?_⟩
    have := bounds c hc
    omega
  · obtain ⟨r, hr, rfl, held⟩ := cells cell (hcells ▸ List.mem_cons_self)
    obtain ⟨⟨top, bottom⟩, -⟩ := holds hr held
    have top : range.start.row ≤ r.row := top
    have bottom : r.row ≤ range.stop.row := bottom
    obtain ⟨i, hi, number_eq, columns, stand, bounds⟩ := stands (Reference.lettersNumber range.start.column.toList)
      (Reference.lettersNumber range.stop.column.toList) fun _ _ _ hr held => (holds hr held).2
    exact ⟨number + i, columns, own.trans number_eq, stand.of_meaning alike,
      fun c hc => ⟨by omega, bounds c hc⟩⟩

end Expand

/-! ### The reference of the dimension -/

/-- The reference of a dimension spells the range: it reads as the range or is its written form, be it in columns that
do not read. -/
def DimensionSpells (r : CellRange) (s : String) : Prop :=
  Shift.dimensionRange s = .ok r ∨ (r.start.Wide ∧ r.stop.Wide ∧ r.stop.sheet = none) ∧ s = r.text

/-- The range of a dimension lies between two valid corners. -/
theorem valid_of_dimensionRange {s : String} {r : CellRange} (h : Shift.dimensionRange s = .ok r) : r.Valid := by
  unfold Shift.dimensionRange at h
  split at h
  · exact CellRange.valid_of_parse h
  · obtain ⟨cell, -, h⟩ := bind_eq_ok_iff.mp h
    obtain ⟨written, -, h⟩ := bind_eq_ok_iff.mp h
    exact CellRange.valid_of_parse h

/-- A reference that was moved to the right. -/
theorem CellRef.right_spec {r moved : CellRef} {columns : Nat} (h : r.right columns = .ok moved)
    (named : ∃ n, 1 ≤ n ∧ r.column = String.ofList (Reference.columnLetters n)) :
    (∃ n, 1 ≤ n ∧ moved.column = String.ofList (Reference.columnLetters n)) ∧
      Reference.lettersNumber moved.column.toList = Reference.lettersNumber r.column.toList + columns ∧
      moved.row = r.row ∧ moved.sheet = r.sheet := by
  obtain ⟨n, pos, hcolumn⟩ := named
  have number : r.columnNumber = .ok n := by
    rw [CellRef.columnNumber, hcolumn, Reference.columnNumber_columnLetters pos]
  obtain ⟨n', hn, h⟩ := bind_eq_ok_iff.mp h
  obtain rfl : n = n' := Except.ok.inj (number.symm.trans hn)
  obtain ⟨letters, hletters, h⟩ := bind_eq_ok_iff.mp h
  obtain ⟨-, rfl⟩ := Reference.columnName_eq_ok hletters
  rw [← Except.ok.inj h, hcolumn]
  have sum : ((n : Int) + columns).toNat = n + columns := by omega
  refine ⟨⟨n + columns, by omega, by rw [← sum]⟩, ?_, rfl, rfl⟩
  rw [String.toList_ofList, String.toList_ofList, Reference.lettersNumber_columnLetters,
    Reference.lettersNumber_columnLetters, sum]

/-- The dimension grows at its end, by the rows and columns that were inserted. -/
theorem exists_dimension_of_grow {rows columns : Nat} {sheet root d : Element} {range : CellRange}
    (h : Shift.growDimension rows columns sheet = .ok root) (hd : sheet.child? Vocabulary.dimension = some d)
    (hrange : Shift.dimensionRange (d.attributeOr "ref" "") = .ok range) :
    ∃ d' range', root.child? Vocabulary.dimension = some d' ∧ DimensionSpells range' (d'.attributeOr "ref" "") ∧
      range'.start = range.start ∧ range'.stop.row = range.stop.row + rows ∧
      Reference.lettersNumber range'.stop.column.toList =
        Reference.lettersNumber range.stop.column.toList + columns := by
  have valid := valid_of_dimensionRange hrange
  simp only [Shift.growDimension, hd] at h
  split at h
  · next none =>
    rw [← Except.ok.inj h]
    have : rows = 0 ∧ columns = 0 := by omega
    obtain ⟨rfl, rfl⟩ := this
    exact ⟨d, range, hd, Or.inl hrange, rfl, (Int.add_zero _).symm, rfl⟩
  · obtain ⟨range₀, hrange₀, h⟩ := bind_eq_ok_iff.mp h
    obtain rfl : range = range₀ := Except.ok.inj (hrange.symm.trans hrange₀)
    obtain ⟨stop, hstop, h⟩ := bind_eq_ok_iff.mp h
    obtain ⟨ref, href, h⟩ := bind_eq_ok_iff.mp h
    obtain ⟨-, hstopRow, rfl⟩ := CellRange.write_eq_ok_iff.mp href
    have grown : (range.stop.down (max (rows : Int) 0)).row = range.stop.row + rows := by
      show range.stop.row + max (rows : Int) 0 = _
      omega
    have more : max (columns : Int) 0 = columns := by omega
    rw [more] at hstop
    obtain ⟨named, column, row, sheet_eq⟩ := CellRef.right_spec hstop valid.stop.wide.column
    have pos := valid.stop.row_pos
    have last : stop.row = range.stop.row + rows := row.trans grown
    rw [← Except.ok.inj h]
    refine ⟨_, ⟨range.start, stop⟩, Element.child?_changeChild (f := (·.set "ref" _)) (fun _ hc => hc) hd,
      Or.inr ⟨⟨valid.start.wide, ⟨named, ?_, hstopRow⟩, sheet_eq.trans valid.stop_sheet⟩, ?_⟩, rfl, last, column⟩
    · show 1 ≤ stop.row
      omega
    · rw [Element.attributeOr, Element.attribute?_set]
      rfl

end Gridfill

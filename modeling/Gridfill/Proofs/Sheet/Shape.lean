import Gridfill.Proofs.Sheet.Coverage
import Gridfill.Proofs.Sheet.Header
import Gridfill.Proofs.Sheet.TableChanges

/-!
# Tables keep their shape

Whatever moves a table or makes it longer does the same to the corners of its filter, and takes nothing from its
list of columns (`keepsShape_of_setRef`). A pass changes tables in no other way (`Kept.run`). The columns that are
added to a table afterwards are added to its range and its list alike, and the list is numbered anew
(`shape_of_fillTable`).
-/

namespace Gridfill

open Markup (Element Node Scope)
open Reference (columnLetters lettersNumber)

/-! ### Shapes -/

/-- How far the corners of a filter are from those of the range of its table: the rows and columns between the
first two and between the last two. -/
def Extent.offsets (range filter : Extent) : (Int × Int) × (Int × Int) :=
  ((filter.top - range.top, (lettersNumber filter.left.toList : Int) - lettersNumber range.left.toList),
    (filter.bottom - range.bottom, (lettersNumber filter.right.toList : Int) - lettersNumber range.right.toList))

/-- A range with its filter and the number of its columns is of the same shape as another: the filter lies alike,
there are as many columns in the range that are not listed, and the range starts in the same column. -/
structure SameShape (range filter : Extent) (listed : Nat) (range' filter' : Extent) (listed' : Nat) : Prop where
  offsets : range'.offsets filter' = range.offsets filter
  unlisted : range'.columnCount - listed' = range.columnCount - listed
  left : range'.left = range.left

theorem SameShape.refl (e f : Extent) (n : Nat) : SameShape e f n e f n := ⟨rfl, rfl, rfl⟩

theorem SameShape.trans {e e' e'' f f' f'' : Extent} {n n' n'' : Nat} (h : SameShape e f n e' f' n')
    (h' : SameShape e' f' n' e'' f'' n'') : SameShape e f n e'' f'' n'' where
  offsets := h'.offsets.trans h.offsets
  unlisted := h'.unlisted.trans h.unlisted
  left := h'.left.trans h.left

namespace Table

/-- A table has a range that reads, a filter with a range of its own, and a list of columns. -/
structure Shaped (t : Table) (range filter : Extent) (columns : List Element) : Prop where
  range : t.Spans range
  filter : ∃ f r, t.filter? = some f ∧ CellRange.SpelledBy r (f.attributeOr "ref" "") ∧ r.extent = filter
  columns : ∃ list, t.columns? = some list ∧ list.childrenWith Vocabulary.tableColumn = columns

/-- The table is as it was but for where it is: it has the same columns, and its range and filter are of the same
shape. -/
def KeepsShape (t t' : Table) : Prop :=
  ∀ e f columns, t.Shaped e f columns →
    ∃ e' f', t'.Shaped e' f' columns ∧ SameShape e f columns.length e' f' columns.length

theorem KeepsShape.refl (t : Table) : t.KeepsShape t := by
  intro e f columns h
  exact ⟨e, f, h, .refl e f _⟩

theorem KeepsShape.trans {a b c : Table} (h : a.KeepsShape b) (h' : b.KeepsShape c) : a.KeepsShape c := by
  intro e f columns ha
  obtain ⟨e', f', hb, first⟩ := h e f columns ha
  obtain ⟨e'', f'', hc, second⟩ := h' e' f' columns hb
  exact ⟨e'', f'', hc, first.trans second⟩

/-! ### Setting the range -/

/-- A corner of the filter stays as far from the corner of the table as it was. -/
theorem moveCorner_spec {old new corner moved : CellRef} (hold : old.Wide) (hnew : new.Wide) (hcorner : corner.Wide)
    (hdown : old.row ≤ new.row) (h : moveCorner old new corner = .ok moved)
    (writable : moved.row.natAbs < Text.integerBound) :
    moved.Wide ∧ moved.sheet = corner.sheet ∧ moved.row - new.row = corner.row - old.row ∧
      (lettersNumber moved.column.toList : Int) - lettersNumber new.column.toList =
        (lettersNumber corner.column.toList : Int) - lettersNumber old.column.toList := by
  unfold moveCorner at h
  rw [hnew.columnNumber, hold.columnNumber] at h
  have h : (corner.down (new.row - old.row)).right
      ((lettersNumber new.column.toList : Int) - lettersNumber old.column.toList) = .ok moved := h
  obtain ⟨k, hk, h⟩ := bind_eq_ok_iff.mp h
  obtain ⟨column, hcolumn, h⟩ := bind_eq_ok_iff.mp h
  have own : (corner.down (new.row - old.row)).columnNumber = .ok (lettersNumber corner.column.toList) :=
    hcorner.columnNumber
  obtain rfl : lettersNumber corner.column.toList = k := Except.ok.inj (own.symm.trans hk)
  obtain ⟨positive, rfl⟩ := Reference.columnName_eq_ok hcolumn
  have row : 1 ≤ corner.row + (new.row - old.row) := by
    have := hcorner.row_pos
    omega
  rw [← Except.ok.inj h] at writable ⊢
  refine ⟨⟨⟨_, by omega, rfl⟩, row, writable⟩, rfl, ?_, ?_⟩
  · show corner.row + (new.row - old.row) - new.row = corner.row - old.row
    omega
  · simp only [String.toList_ofList, Reference.lettersNumber_columnLetters]
    omega

/-- Setting the range of a table that has a filter goes through only when the new range reads. -/
theorem exists_parse_of_setRef {t t' : Table} {ref : String} (h : t.setRef ref = .ok t') {e f : Extent}
    {columns : List Element} (hs : t.Shaped e f columns) : ∃ after, CellRange.parse ref = .ok after := by
  obtain ⟨r, hr, -⟩ := hs.range
  obtain ⟨filter, spelt, hfilter, spelled, -⟩ := hs.filter
  obtain ⟨-, after, -, -, -, -, hafter, -⟩ := exists_filter_of_setRef hr hfilter spelled.ne_empty h
  exact ⟨after, hafter⟩

/-- When the range of a table is set further down or to the right, the filter lies alike, and the columns stay. -/
theorem shaped_of_setRef {t t' : Table} {r after : CellRange} {ref : String} (hr : t.range = .ok r)
    (hafter : CellRange.parse ref = .ok after) (htop : r.start.row ≤ after.start.row)
    (hbottom : r.stop.row ≤ after.stop.row) (h : t.setRef ref = .ok t') {f : Extent} {columns : List Element}
    (hs : t.Shaped r.extent f columns) :
    ∃ f', t'.Shaped after.extent f' columns ∧ after.extent.offsets f' = r.extent.offsets f := by
  have valid := CellRange.valid_of_parse hr
  have valid' := CellRange.valid_of_parse hafter
  obtain ⟨filter, spelt, hfilter, spelled, rfl⟩ := hs.filter
  obtain ⟨filter', after', fr, start, stop, hfilter', hafter', hfr, hstart, hstop, hwritten⟩ :=
    exists_filter_of_setRef hr hfilter spelled.ne_empty h
  obtain rfl : after = after' := Except.ok.inj (hafter.symm.trans hafter')
  have fvalid := CellRange.valid_of_parse hfr
  obtain ⟨hrow, hrow', hspelling⟩ := CellRange.write_eq_ok_iff.mp hwritten
  obtain ⟨wide, -, rows, columns₁⟩ :=
    moveCorner_spec valid.start.wide valid'.start.wide fvalid.start.wide htop hstart hrow
  obtain ⟨wide', sheet, rows', columns₂⟩ :=
    moveCorner_spec valid.stop.wide valid'.stop.wide fvalid.stop.wide hbottom hstop hrow'
  refine ⟨CellRange.extent ⟨start, stop⟩, ⟨⟨after, ?_, rfl⟩, ?_, ?_⟩, ?_⟩
  · rw [Table.range, ref_of_setRef h, hafter]
  · exact ⟨filter', ⟨start, stop⟩, hfilter', .inr ⟨⟨wide, wide', sheet.trans fvalid.stop_sheet⟩, hspelling⟩, rfl⟩
  · rw [columns?_of_setRef h]
    exact hs.columns
  · rw [← spelled.extent_eq hfr]
    unfold Extent.offsets CellRange.extent
    simp only [rows, rows', columns₁, columns₂]

/-- Moving both corners of a table down keeps its shape. -/
theorem keepsShape_of_setRef {t t' : Table} {r : CellRange} (hr : t.range = .ok r) {a b : Int} (ha : 0 ≤ a)
    (hb : 0 ≤ b) {ref : String} (hw : CellRange.write ⟨r.start.down a, r.stop.down b⟩ = .ok ref)
    (h : t.setRef ref = .ok t') : t.KeepsShape t' := by
  intro e f columns hs
  obtain ⟨r', hr', rfl⟩ := hs.range
  obtain rfl : r = r' := Except.ok.inj (hr.symm.trans hr')
  have valid := CellRange.valid_of_parse hr
  have hparse := CellRange.parse_of_write ⟨valid.start, valid.stop⟩ valid.stop_sheet
    (by have := valid.start.row_pos; omega) (by have := valid.stop.row_pos; omega) hw
  have htop : r.start.row ≤ r.start.row + a := by omega
  have hbottom : r.stop.row ≤ r.stop.row + b := by omega
  obtain ⟨f', hs', offsets⟩ := shaped_of_setRef hr hparse htop hbottom h hs
  exact ⟨_, f', hs', offsets, rfl, rfl⟩

/-- Moving the right edge of a table moves that of its filter alike. -/
theorem shaped_of_setRef_right {t t' : Table} {r : CellRange} (hr : t.range = .ok r) {k : Nat} {stop : CellRef}
    (hstop : r.stop.right k = .ok stop) {ref : String} (hw : CellRange.write ⟨r.start, stop⟩ = .ok ref)
    (h : t.setRef ref = .ok t') {f : Extent} {columns : List Element} (hs : t.Shaped r.extent f columns) :
    ∃ e' f', t'.Shaped e' f' columns ∧ e'.offsets f' = r.extent.offsets f ∧
      e'.columnCount = r.extent.columnCount + k ∧ e'.left = r.extent.left := by
  have valid := CellRange.valid_of_parse hr
  obtain ⟨hcolumn, wide, hrow, hsheet⟩ := right_eq valid.stop valid.stop.wide.columnNumber hstop
  have further := Except.ok.inj (wide.columnNumber.symm.trans hcolumn)
  obtain ⟨after, hafter⟩ := exists_parse_of_setRef h hs
  obtain ⟨-, -, rfl⟩ := CellRange.write_eq_ok_iff.mp hw
  obtain ⟨-, rfl⟩ := CellRange.eq_of_parse_text (r := ⟨r.start, stop⟩) valid.start.wide wide
    (hsheet.trans valid.stop_sheet) hafter
  obtain ⟨f', hs', offsets⟩ :=
    shaped_of_setRef hr hafter (Int.le_refl r.start.row) (Int.le_of_eq hrow.symm) h hs
  refine ⟨_, f', hs', offsets, ?_, rfl⟩
  unfold Extent.columnCount CellRange.extent CellRange.normal
  simp only [further]
  omega

/-! ### The changes of a pass -/

theorem keepsShape_growTable {cell : String} {t t' : Table} (h : Shift.growTable cell t = .ok t') :
    t.KeepsShape t' := by
  obtain ⟨r, -, -, hr, -, -, ⟨-, rfl⟩ | ⟨-, ref, hw, hset⟩⟩ := growTable_cases h
  · exact .refl t'
  · rw [← CellRef.down_zero r.start] at hw
    exact keepsShape_of_setRef hr (Int.le_refl 0) Int.one_nonneg hw hset

theorem keepsShape_shiftTable {number : Int} {count : Nat} {t t' : Table}
    (h : Shift.shiftTable number count t = .ok t') : t.KeepsShape t' := by
  obtain ⟨r, hr, h⟩ := bind_eq_ok_iff.mp h
  split at h
  · obtain ⟨ref, hw, h⟩ := bind_eq_ok_iff.mp h
    exact keepsShape_of_setRef hr (Int.natCast_nonneg count) (Int.natCast_nonneg count) hw h
  · rw [← Except.ok.inj h]
    exact .refl t

/-- Growing by a row and moving down keep the shape of a table. -/
theorem kept_keepsShape : Kept KeepsShape where
  refl := .refl
  trans h h' := h.trans h'
  grow := keepsShape_growTable
  shift := keepsShape_shiftTable

end Table

/-! ### The numbers of the columns -/

/-- The columns are numbered in order from a number on. -/
def NumberedFrom (first : Nat) (columns : List Element) : Prop :=
  columns.map (·.attribute? "id") = (List.range' first columns.length).map fun n => some (toString n)

namespace NumberedFrom

theorem append {first : Nat} {as bs : List Element} (h : NumberedFrom first as)
    (h' : NumberedFrom (first + as.length) bs) : NumberedFrom first (as ++ bs) := by
  unfold NumberedFrom at h h' ⊢
  rw [List.map_append, h, h', List.length_append, ← List.map_append, List.range'_append_1]

theorem singleton {first : Nat} {column : Element} (h : column.attribute? "id" = some (toString first)) :
    NumberedFrom first [column] := by
  unfold NumberedFrom
  rw [List.map_singleton, h]
  rfl

theorem of_meaning {first : Nat} {columns others : List Element}
    (h : others.map Element.meaning = columns.map Element.meaning) (hn : NumberedFrom first columns) :
    NumberedFrom first others := by
  have length : others.length = columns.length := by
    rw [← List.length_map Element.meaning, h, List.length_map]
  have ids : others.map (·.attribute? "id") = columns.map (·.attribute? "id") := by
    have := congrArg (List.map (·.attribute? "id")) h
    simpa only [List.map_map, Function.comp_def, Element.attribute?_meaning] using this
  unfold NumberedFrom at hn ⊢
  rw [ids, length, hn]

end NumberedFrom

namespace Header

variable {data : Bindings}

@[simp] theorem id_setPlace (column : Element) (place : Nat) :
    (setPlace column place).attribute? "id" = some (toString place) := Element.attribute?_set _ _ _

theorem id_of_setName {column column' : Element} {name : String} (h : setName column name = .ok column') :
    column'.attribute? "id" = column.attribute? "id" := by
  unfold setName at h
  split at h
  · rw [← Except.ok.inj h]
    exact Element.attribute?_set_ne column name (by decide)
  · cases h

theorem id_of_setNameTo {column column' : Element} {v : Value} (h : setNameTo column v = .ok column') :
    column'.attribute? "id" = column.attribute? "id" := by
  obtain ⟨name, -, h⟩ := bind_eq_ok_iff.mp h
  exact id_of_setName h

theorem id_of_fillName {ps : List Placeholder} {name : String} {column column' : Element}
    (h : fillName data ps name column = .ok column') : column'.attribute? "id" = column.attribute? "id" := by
  induction ps generalizing name column with
  | nil => rw [← Except.ok.inj h]
  | cons p ps ih =>
      unfold fillName at h
      split at h
      · exact ih h
      · obtain ⟨new, -, h⟩ := bind_eq_ok_iff.mp h
        obtain ⟨next, hnext, h⟩ := bind_eq_ok_iff.mp h
        rw [ih h, id_of_setName hnext]

theorem numbered_of_furtherColumns {vs : List Value} {column : Element} {place : Nat} {columns : List Element}
    (h : furtherColumns column place vs = .ok columns) : NumberedFrom (place + 1) columns := by
  induction vs generalizing column place columns with
  | nil =>
      rw [← Except.ok.inj h]
      rfl
  | cons v vs ih =>
      obtain ⟨next, hnext, h⟩ := bind_eq_ok_iff.mp h
      obtain ⟨rest, hrest, h⟩ := bind_eq_ok_iff.mp h
      have own : next.attribute? "id" = some (toString (place + 1)) := by
        rw [id_of_setNameTo hnext, id_setPlace]
      rw [← Except.ok.inj h]
      exact (NumberedFrom.singleton own).append (ih hrest)

/-- The columns that a column becomes carry its place and those behind it. -/
theorem numbered_of_fillColumn {column : Element} {place : Nat} {columns : List Element}
    (h : fillColumn data column place = .ok columns) : NumberedFrom place columns := by
  rcases fillColumn_cases data column place with ⟨items, -, spread⟩ | ⟨-, filled⟩
  · rw [spread] at h
    cases items with
    | nil =>
        rw [← Except.ok.inj h]
        exact .singleton (id_setPlace column place)
    | cons v vs =>
        obtain ⟨first, hfirst, h⟩ := bind_eq_ok_iff.mp h
        obtain ⟨rest, hrest, h⟩ := bind_eq_ok_iff.mp h
        have own : first.attribute? "id" = some (toString place) := by
          rw [id_of_setNameTo hfirst, id_setPlace]
        rw [← Except.ok.inj h]
        exact (NumberedFrom.singleton own).append (numbered_of_furtherColumns hrest)
  · rw [filled] at h
    obtain ⟨c, hc, rfl⟩ := map_eq_ok_iff.mp h
    apply NumberedFrom.singleton
    rw [id_of_fillName hc, id_setPlace]

theorem numbered_of_fillColumns {cs columns : List Element} {place : Nat}
    (h : fillColumns data place cs = .ok columns) : NumberedFrom (place + 1) columns := by
  induction cs generalizing place columns with
  | nil =>
      rw [← Except.ok.inj h]
      rfl
  | cons c cs ih =>
      obtain ⟨filled, hfilled, h⟩ := bind_eq_ok_iff.mp h
      obtain ⟨rest, hrest, h⟩ := bind_eq_ok_iff.mp h
      rw [← Except.ok.inj h]
      apply (numbered_of_fillColumn hfilled).append
      have := ih hrest
      rwa [Nat.add_right_comm] at this

/-! ### The columns that are added -/

/-- A table whose list of columns is replaced has the new columns, and its range and filter stay. -/
theorem shaped_putColumns {t : Table} {e f : Extent} {old columns : List Element} (hs : t.Shaped e f old)
    {list list' : Element} (hlist : t.columns? = some list) (tag : list'.tag = list.tag)
    (hcolumns : list'.childrenWith Vocabulary.tableColumn = columns) : (putColumns t list').Shaped e f columns := by
  obtain ⟨hcols, hfilter, href⟩ := putColumns_spec hlist list' tag
  refine ⟨?_, ?_, list', hcols, hcolumns⟩
  · obtain ⟨r, hr, he⟩ := hs.range
    refine ⟨r, ?_, he⟩
    rw [Table.range, href]
    exact hr
  · rw [hfilter]
    exact hs.filter

/-- Filling the column names of a table keeps its shape: the columns that are added to the list are added to the
range and to the filter at their right edge. The columns are numbered from one on. -/
theorem shape_of_fillTable {t t' : Table} {n : Nat} (h : fillTable data t = .ok (t', n)) {e f : Extent}
    {columns : List Element} (hs : t.Shaped e f columns) :
    ∃ e' f' columns', t'.Shaped e' f' columns' ∧ SameShape e f columns.length e' f' columns'.length ∧
      NumberedFrom 1 columns' := by
  obtain ⟨list, hlist, rfl⟩ := hs.columns
  rcases fillTable_cases h with ⟨none, -⟩ | ⟨own, filled, hown, hfilled, headed⟩
  · rw [hlist] at none
    cases none
  obtain rfl : list = own := Option.some.inj (hlist.symm.trans hown)
  obtain ⟨more, tags⟩ := spec_of_fillColumns (fun c hc => Element.tag_of_mem_childrenWith hc) hfilled
  have length := length_listOf t list tags
  have numbered : NumberedFrom 1 ((listOf t list filled).childrenWith Vocabulary.tableColumn) :=
    .of_meaning (Element.meaning_childrenWith_replaceContent [t.root.frame] list tags)
      (numbered_of_fillColumns hfilled)
  cases headed with
  | same none =>
      refine ⟨e, f, _, shaped_putColumns hs hlist rfl rfl, ?_, numbered⟩
      have same : filled.length = (list.childrenWith Vocabulary.tableColumn).length := by omega
      rw [length, same]
      exact .refl e f _
  | @grown range wide count ref _ hrange hcount hwide href hset =>
      obtain ⟨stop, hstop, hwide⟩ := bind_eq_ok_iff.mp hwide
      rw [← Except.ok.inj hwide] at href
      obtain ⟨r, hr, rfl⟩ := hs.range
      obtain rfl : range = r := Except.ok.inj (hrange.symm.trans hr)
      have put : (putColumns t ((listOf t list filled).set "count" count)).Shaped range.extent f
          ((listOf t list filled).childrenWith Vocabulary.tableColumn) := shaped_putColumns hs hlist rfl rfl
      have own : (putColumns t ((listOf t list filled).set "count" count)).range = .ok range := by
        have stays := (putColumns_spec hlist ((listOf t list filled).set "count" count) rfl).2.2
        rw [Table.range, stays]
        exact hr
      obtain ⟨e', f', hs', offsets, wider, left⟩ := Table.shaped_of_setRef_right own hstop href hset put
      refine ⟨e', f', _, hs', ⟨offsets, ?_, left⟩, numbered⟩
      rw [wider, length]
      omega

end Header
end Gridfill

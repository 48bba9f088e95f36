import Gridfill.Proofs.Sheet.Shows

/-!
# Records below a row

Which cells go into the new rows of a row, said by the texts of its cells alone. A cell whose records are laid
out downwards (`Down`) puts the values of its record `i` side by side into the row of that record, in its own
column moved by the cells inserted into that row for the cells before it (`recordSpots`). There are as many new
rows as the longest list of records has further ones (`newRowCount`). When no value is a sequence nothing is
inserted, and each cell of a new row is in the column of its own cell (`recordSpots_of_scalar`).
-/

namespace Gridfill

open Markup (Element)
open CellRef (numbered)

namespace Expand

/-! ### Spots -/

/-- A value, the column that it takes, and the cell whose style it is shown in. -/
structure Spot where
  cell : Element
  column : Nat
  value : Value

/-- The spots of values side by side. -/
def spotsFrom (cell : Element) : Nat → List Value → List Spot
  | _, [] => []
  | column, v :: vs => ⟨cell, column, v⟩ :: spotsFrom cell (column + 1) vs

theorem map_column_spotsFrom (cell : Element) : ∀ (column : Nat) (vs : List Value),
    (spotsFrom cell column vs).map (·.column) = List.range' column vs.length
  | _, [] => rfl
  | column, _ :: vs => by
      rw [spotsFrom, List.map_cons, map_column_spotsFrom cell (column + 1) vs, List.length_cons,
        List.range'_succ]

theorem length_spotsFrom (cell : Element) (column : Nat) (vs : List Value) :
    (spotsFrom cell column vs).length = vs.length := by
  have := congrArg List.length (map_column_spotsFrom cell column vs)
  rwa [List.length_map, List.length_range'] at this

theorem cell_of_mem_spotsFrom {cell : Element} {spot : Spot} : ∀ {vs : List Value} {column : Nat},
    spot ∈ spotsFrom cell column vs → spot.cell = cell
  | v :: vs, column, h => by
      rw [spotsFrom] at h
      rcases List.mem_cons.mp h with rfl | h
      · rfl
      · exact cell_of_mem_spotsFrom h

theorem value_of_mem_spotsFrom {cell : Element} {spot : Spot} : ∀ {vs : List Value} {column : Nat},
    spot ∈ spotsFrom cell column vs → spot.value ∈ vs
  | v :: vs, column, h => by
      rw [spotsFrom] at h
      rcases List.mem_cons.mp h with rfl | h
      · exact List.mem_cons_self
      · exact List.mem_cons_of_mem v (value_of_mem_spotsFrom h)

/-- A cell of a row takes a spot: it stands there, in the style of the cell of the spot, and shows the value. -/
structure Spot.TakenBy (pool : Pool) (number : Int) (spot : Spot) (e : Element) : Prop where
  style : SameStyle e spot.cell
  ref : e.attribute? "r" = some (numbered spot.column number).text
  lasts : Cell.Lasts pool e spot.value

theorem Spot.TakenBy.of_meaning {pool : Pool} {number : Int} {spot : Spot} {e e' : Element}
    (hm : e'.meaning = e.meaning) (h : spot.TakenBy pool number e) : spot.TakenBy pool number e' where
  style := (SameStyle.of_meaning hm).trans h.style
  ref := (Markup.attribute?_eq_of_meaning hm "r").trans h.ref
  lasts := h.lasts.of_meaning hm

theorem Spot.TakenBy.steps {holds : Nat → Prop} {data : Bindings} {p q : Pool} {number : Int} {spot : Spot}
    {e : Element} (hs : Pool.Steps holds (Fills data) p q) (hp : p.Sound) (h : spot.TakenBy p number e) :
    spot.TakenBy q number e :=
  { h with lasts := h.lasts.steps hs hp }

/-- Cells side by side that show values take the spots of these values. -/
theorem taken_of_stand {pool : Pool} {number : Int} {origin : Element} {values : List Value} {cells : List Element}
    {column : Nat} (stand : StandAt number (List.range' column cells.length) cells)
    (style : ∀ e ∈ cells, SameStyle e origin) (lasts : List.Forall₂ (fun v e => Cell.Lasts pool e v) values cells) :
    List.Forall₂ (Spot.TakenBy pool number) (spotsFrom origin column values) cells := by
  induction lasts generalizing column with
  | nil => exact .nil
  | @cons v e vs es h _ ih =>
      rw [StandAt, List.length_cons, List.range'_succ, List.map_cons, List.map_cons] at stand
      obtain ⟨ref, stand⟩ := List.cons.inj stand
      exact .cons ⟨style e List.mem_cons_self, ref, h⟩ (ih stand fun d hd => style d (List.mem_cons_of_mem e hd))

/-! ### Cells with records below -/

/-- A cell whose records are laid out downwards, the column in which it stands on its own row, and the items that
its records show. -/
structure Down where
  cell : Element
  column : Nat
  items : List Value

namespace Down

/-- The values that stand side by side for the record `i`. -/
def values (d : Down) (i : Nat) : List Value :=
  d.items[i]?.elim [] sideBySide

/-- The number of cells inserted for the record `i`. -/
def extra (d : Down) (i : Nat) : Nat := (d.values i).length - 1

/-- The values that stand side by side on the row of the cell: a blank when there are no records. -/
def heads (d : Down) : List Value :=
  match d.items with
  | [] => [.null]
  | item :: _ => sideBySide item

/-- The spots on the row of the cell. -/
def headSpots (d : Down) : List Spot := spotsFrom d.cell d.column d.heads

/-- The spot that a record takes whose value stands alone. -/
def spotAt (d : Down) (i : Nat) : Option Spot :=
  d.items[i]?.map fun item => ⟨d.cell, d.column, item⟩

/-- The cell with more records below. -/
def extend (d : Down) (items : List Value) : Down := { d with items := d.items ++ items }

/-- No record shows a sequence. -/
def Scalar (d : Down) : Prop := ∀ item ∈ d.items, item.items? = none

theorem values_eq_nil {d : Down} {i : Nat} (h : d.items.length ≤ i) : d.values i = [] := by
  rw [values, List.getElem?_eq_none h]
  rfl

/-- One more record changes the values of that record only. -/
theorem values_extend_ne (d : Down) (item : Value) {i : Nat} (h : i ≠ d.items.length) :
    (d.extend [item]).values i = d.values i := by
  have same : (d.items ++ [item])[i]? = d.items[i]? := by
    rcases Nat.lt_or_ge i d.items.length with hi | hi
    · exact List.getElem?_append_left hi
    · rw [List.getElem?_eq_none (by rw [List.length_append, List.length_singleton]; omega),
        List.getElem?_eq_none hi]
  simp only [values, extend, same]

theorem values_extend_length (d : Down) (item : Value) :
    (d.extend [item]).values d.items.length = sideBySide item := by
  rw [values, extend, List.getElem?_append_right (Nat.le_refl _), Nat.sub_self]
  rfl

theorem Scalar.values {d : Down} (h : d.Scalar) (i : Nat) :
    d.values i = (d.spotAt i).elim [] fun spot => [spot.value] := by
  rw [Down.values, spotAt]
  cases hi : d.items[i]? with
  | none => rfl
  | some item => exact sideBySide_of_items?_none (h item (List.mem_of_getElem? hi))

theorem Scalar.extra {d : Down} (h : d.Scalar) (i : Nat) : d.extra i = 0 := by
  rw [Down.extra, h.values]
  cases d.spotAt i <;> rfl

end Down

/-- The number of cells inserted into the row of the record `i`. -/
def recordShift (i : Nat) (ds : List Down) : Nat := (ds.map (·.extra i)).sum

/-- The spots on the row of the record `i`, moved to the right by the cells inserted before them. -/
def recordSpots (i : Nat) : Nat → List Down → List Spot
  | _, [] => []
  | shift, d :: ds => spotsFrom d.cell (d.column + shift) (d.values i) ++ recordSpots i (shift + d.extra i) ds

/-- The number of new rows that cells with records need. -/
def newRowCount (ds : List Down) : Nat := (ds.map fun d => d.items.length - 1).foldr max 0

section
variable {i : Nat}

theorem recordShift_append (ds es : List Down) : recordShift i (ds ++ es) = recordShift i ds + recordShift i es := by
  rw [recordShift, List.map_append, List.sum_append]
  rfl

theorem recordSpots_append : ∀ (shift : Nat) (ds es : List Down),
    recordSpots i shift (ds ++ es) = recordSpots i shift ds ++ recordSpots i (shift + recordShift i ds) es
  | shift, [], es => rfl
  | shift, d :: ds, es => by
      have total : recordShift i (d :: ds) = d.extra i + recordShift i ds := rfl
      rw [List.cons_append, recordSpots, recordSpots_append (shift + d.extra i) ds es, recordSpots,
        List.append_assoc, total, Nat.add_assoc]

theorem newRowCount_append : ∀ (ds es : List Down),
    newRowCount (ds ++ es) = max (newRowCount ds) (newRowCount es)
  | [], es => (Nat.zero_max _).symm
  | d :: ds, es => by
      have ih := newRowCount_append ds es
      simp only [newRowCount, List.cons_append, List.map_cons, List.foldr_cons] at ih ⊢
      rw [ih, Nat.max_assoc]

theorem newRowCount_singleton (d : Down) : newRowCount [d] = d.items.length - 1 := Nat.max_zero _

theorem length_le_of_mem {d : Down} : ∀ {ds : List Down}, d ∈ ds → d.items.length - 1 ≤ newRowCount ds
  | e :: es, h => by
      show _ ≤ max (e.items.length - 1) (newRowCount es)
      rcases List.mem_cons.mp h with rfl | h
      · exact Nat.le_max_left _ _
      · exact Nat.le_trans (length_le_of_mem h) (Nat.le_max_right _ _)

/-- Behind the new rows that are needed nothing is placed. -/
theorem recordSpots_eq_nil : ∀ (shift : Nat) {ds : List Down}, newRowCount ds < i →
    recordSpots i shift ds = [] ∧ recordShift i ds = 0
  | _, [], _ => ⟨rfl, rfl⟩
  | shift, d :: ds, h => by
      have h' : max (d.items.length - 1) (newRowCount ds) < i := h
      obtain ⟨spots, inserted⟩ := recordSpots_eq_nil (shift + d.extra i) (show newRowCount ds < i by omega)
      have none : d.values i = [] := Down.values_eq_nil (by omega)
      have total : recordShift i (d :: ds) = d.extra i + recordShift i ds := rfl
      rw [recordSpots, spots, none, total, inserted, Down.extra, none]
      exact ⟨rfl, rfl⟩

/-- A cell adds nothing to the row of a record that it does not have. -/
theorem recordSpots_concat (ds : List Down) {d : Down} (h : d.values i = []) :
    recordSpots i 0 (ds ++ [d]) = recordSpots i 0 ds ∧ recordShift i (ds ++ [d]) = recordShift i ds := by
  have none : recordShift i [d] = 0 := by
    show (d.values i).length - 1 + 0 = 0
    rw [h]
    rfl
  refine ⟨?_, by rw [recordShift_append, none, Nat.add_zero]⟩
  rw [recordSpots_append, recordSpots, h]
  exact List.append_nil _

/-- One more record of the last cell adds nothing to the rows of other records. -/
theorem recordSpots_extend_ne (ds : List Down) {d : Down} (item : Value) (h : i ≠ d.items.length) :
    recordSpots i 0 (ds ++ [d.extend [item]]) = recordSpots i 0 (ds ++ [d]) ∧
      recordShift i (ds ++ [d.extend [item]]) = recordShift i (ds ++ [d]) := by
  have same := d.values_extend_ne item h
  have total : recordShift i [d.extend [item]] = recordShift i [d] := by
    show ((d.extend [item]).values i).length - 1 + 0 = (d.values i).length - 1 + 0
    rw [same]
  refine ⟨?_, by rw [recordShift_append, recordShift_append, total]⟩
  rw [recordSpots_append, recordSpots_append, recordSpots, recordSpots, same]
  rfl

/-- When no value is a sequence, each record takes one spot in the column of its cell. -/
theorem recordSpots_of_scalar : ∀ {ds : List Down}, (∀ d ∈ ds, d.Scalar) →
    recordSpots i 0 ds = ds.filterMap (·.spotAt i) ∧ recordShift i ds = 0
  | [], _ => ⟨rfl, rfl⟩
  | d :: ds, h => by
      obtain ⟨spots, inserted⟩ := recordSpots_of_scalar fun e he => h e (List.mem_cons_of_mem d he)
      have scalar := h d List.mem_cons_self
      have total : recordShift i (d :: ds) = d.extra i + recordShift i ds := rfl
      refine ⟨?_, by rw [total, scalar.extra, inserted]⟩
      rw [recordSpots, scalar.extra, spots, scalar.values, List.filterMap_cons]
      cases hs : d.spotAt i with
      | none => rfl
      | some spot =>
          obtain ⟨item, -, rfl⟩ := Option.map_eq_some_iff.mp hs
          rfl

end

/-! ### The cells of a row with records below -/

/-- The items below each other for a text that is nothing but a placeholder whose records are laid out downwards. -/
def downOf? (data : Bindings) (text : Option String) : Option (List Value) :=
  match text.map Placeholder.scan with
  | some [p] => if p.isTable then p.layout? data else none
  | _ => none

/-- The cells of a row whose records are laid out downwards, each in its column, moved by `shift` and by the cells
inserted before it. -/
def downs (data : Bindings) (pool : Pool) : Nat → List Nat → List Element → List Down
  | shift, column :: columns, cell :: cells =>
    let text := Cell.shownText pool cell
    let rest := downs data pool (shift + (cellWidth data text - 1)) columns cells
    match downOf? data text with
    | some items => ⟨cell, column + shift, items⟩ :: rest
    | none => rest
  | _, _, _ => []

/-- The cells with records are cells of the row, with the items that their texts ask for. -/
theorem exists_of_mem_downs {data : Bindings} {pool : Pool} {d : Down} : ∀ {cells : List Element} {shift : Nat}
    {columns : List Nat}, d ∈ downs data pool shift columns cells →
      d.cell ∈ cells ∧ downOf? data (Cell.shownText pool d.cell) = some d.items
  | [], _, columns, h => by cases columns <;> cases h
  | _ :: _, _, [], h => by cases h
  | cell :: cells, shift, column :: columns, h => by
      rw [downs] at h
      have later (h : d ∈ downs data pool (shift + (cellWidth data (Cell.shownText pool cell) - 1)) columns cells) :
          d.cell ∈ cell :: cells ∧ downOf? data (Cell.shownText pool d.cell) = some d.items := by
        obtain ⟨mem, items⟩ := exists_of_mem_downs h
        exact ⟨List.mem_cons_of_mem cell mem, items⟩
      cases hd : downOf? data (Cell.shownText pool cell) with
      | none =>
          simp only [hd] at h
          exact later h
      | some r =>
          simp only [hd] at h
          rcases List.mem_cons.mp h with rfl | h
          · exact ⟨List.mem_cons_self, hd⟩
          · exact later h

/-- A cell of the row that has records is among them, in its column moved by the cells inserted before it. -/
theorem mem_downs {data : Bindings} {pool : Pool} {cell : Element} {items : List Value} {c : Nat}
    (hd : downOf? data (Cell.shownText pool cell) = some items) :
    ∀ {cells : List Element} {columns : List Nat} {j : Nat} (shift : Nat), cells[j]? = some cell →
      columns[j]? = some c →
      ⟨cell, c + (shift + insertedBy ((widths data pool cells).take j)), items⟩ ∈
        downs data pool shift columns cells
  | [], _, _, _, hj, _ => by cases hj
  | _ :: _, [], _, _, _, hc => by cases hc
  | d :: cells, b :: columns, 0, shift, hj, hc => by
      obtain rfl := Option.some.inj hj
      obtain rfl := Option.some.inj hc
      simp only [downs, hd]
      exact List.mem_cons_self
  | d :: cells, b :: columns, j + 1, shift, hj, hc => by
      rw [List.getElem?_cons_succ] at hj hc
      have later := mem_downs hd (shift + (cellWidth data (Cell.shownText pool d) - 1)) hj hc
      have total : shift + insertedBy ((widths data pool (d :: cells)).take (j + 1)) =
          shift + (cellWidth data (Cell.shownText pool d) - 1) + insertedBy ((widths data pool cells).take j) := by
        rw [widths, List.map_cons, List.take_succ_cons, insertedBy, List.map_cons, List.sum_cons, ← Nat.add_assoc]
        rfl
      rw [total, downs]
      cases downOf? data (Cell.shownText pool d) with
      | none => exact later
      | some _ => exact List.mem_cons_of_mem _ later

/-- No record that goes below a cell with the text shows a sequence. -/
def ScalarRecords (data : Bindings) (text : Option String) : Prop :=
  ∀ items ∈ downOf? data text, ∀ item ∈ items, item.items? = none

instance (data : Bindings) (text : Option String) : Decidable (ScalarRecords data text) :=
  inferInstanceAs (Decidable (∀ items ∈ downOf? data text, ∀ item ∈ items, item.items? = none))

theorem scalar_of_mem_downs {data : Bindings} {pool : Pool} {cells : List Element}
    (h : ∀ cell ∈ cells, ScalarRecords data (Cell.shownText pool cell)) {shift : Nat} {columns : List Nat} :
    ∀ d ∈ downs data pool shift columns cells, d.Scalar := by
  intro d hd
  obtain ⟨mem, items⟩ := exists_of_mem_downs hd
  exact h d.cell mem d.items items

theorem downOf?_eq_some {data : Bindings} {text : Option String} {items : List Value}
    (h : downOf? data text = some items) :
    ∃ s p, text = some s ∧ Placeholder.scan s = [p] ∧ p.isTable = true ∧ p.layout? data = some items := by
  unfold downOf? at h
  split at h
  · next p hp =>
    split at h
    · next table =>
      obtain ⟨s, rfl, hs⟩ := Option.map_eq_some_iff.mp hp
      exact ⟨s, p, rfl, hs, table, h⟩
    · cases h
  · cases h

theorem downOf?_of_scan {data : Bindings} {s : String} {p : Placeholder} (scan : Placeholder.scan s = [p])
    {items : List Value} (layout : p.layout? data = some items) :
    downOf? data (some s) = if p.isTable then some items else none := by
  simp only [downOf?, Option.map_some, scan, layout]

end Expand
end Gridfill

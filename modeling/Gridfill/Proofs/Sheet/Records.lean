import Gridfill.Proofs.Sheet.Spread
import Gridfill.Proofs.Sheet.Table

/-!
# Records in new rows

The further records of a placeholder go into the new rows of its row, which all cells of the row share.
A new row stands directly behind those before it, and its cells stand in increasing columns, up to that of
the last cell that was filled, moved by the cells inserted into the new row (`Fit`). Placing the records of
one cell after the other keeps this (`placeRecords_spec`).
-/

namespace Gridfill

open Markup (Element)
open CellRef (numbered)

/-- The cells of a row. -/
def cellsOf (row : Element) : List Element := row.childrenWith Vocabulary.cell

namespace Markup.Element

theorem meaning_childrenWith_append (scope : Scope) (e child : Element) (tag : Tag) :
    ((e.append scope child).childrenWith tag).map meaning =
      (e.childrenWith tag).map meaning ++ if child.tag = tag then [child.meaning] else [] := by
  rw [childrenWith, children, append, List.filterMap_append, List.filter_append, List.map_append,
    childrenWith, children]
  congr 1
  have ht : (child.moveTo (e.frame :: scope)).tag = child.tag := tag_eq_of_meaning (meaning_moveTo _ _)
  simp only [List.filterMap_cons, List.filterMap_nil, Node.element?, List.filter_cons, ht, List.filter_nil]
  split
  · next h =>
    rw [if_pos (by simpa using h), List.map_singleton, meaning_moveTo]
  · next h =>
    rw [if_neg (by simpa using h), List.map_nil]

/-- Children of one tag that are put in one after the other stand behind those that were there. -/
theorem meaning_childrenWith_foldl_append (scope : Scope) {tag : Tag} :
    ∀ {cs : List Element} (e : Element), (∀ c ∈ cs, c.tag = tag) →
      ((cs.foldl (fun e c => e.append scope c) e).childrenWith tag).map meaning =
        (e.childrenWith tag).map meaning ++ cs.map meaning
  | [], e, _ => by rw [List.foldl_nil, List.map_nil, List.append_nil]
  | c :: cs, e, h => by
      rw [List.foldl_cons, meaning_childrenWith_foldl_append scope _ fun d hd => h d (by simp [hd]),
        meaning_childrenWith_append, if_pos (h c (by simp)), List.append_assoc, List.map_cons]
      rfl

@[simp] theorem get?_foldl_append (scope : Scope) (tag : Tag) :
    ∀ (cs : List Element) (e : Element),
      (cs.foldl (fun e c => e.append scope c) e).get? tag = e.get? tag
  | [], _ => rfl
  | c :: cs, e => by rw [List.foldl_cons, get?_foldl_append scope tag cs, get?_append]

@[simp] theorem tag_foldl_append (scope : Scope) :
    ∀ (cs : List Element) (e : Element), (cs.foldl (fun e c => e.append scope c) e).tag = e.tag
  | [], _ => rfl
  | c :: cs, e => by rw [List.foldl_cons, tag_foldl_append scope cs, tag_append]

end Markup.Element

namespace Expand

/-- The number that a row carries. -/
def ownNumber (row : Element) : Except Failure Int := parseInteger (row.attributeOr "r" "")

/-- The extent of a row is all that widening it may change. -/
theorem widenRow_cases {row row' : Element} {n : Int} (h : widenRow row n = .ok row') :
    row' = row ∨ ∃ spans, row' = row.set "spans" spans := by
  unfold widenRow at h
  split at h
  · exact Or.inl (Except.ok.inj h).symm
  · split at h
    · exact Or.inl (Except.ok.inj h).symm
    · simp only at h
      split at h
      · cases h
      · obtain ⟨wide, -, h⟩ := bind_eq_ok_iff.mp h
        split at h
        · exact Or.inl (Except.ok.inj h).symm
        · exact Or.inr ⟨_, (Except.ok.inj h).symm⟩

theorem widenRow_zero (row : Element) : widenRow row 0 = .ok row := by
  unfold widenRow
  split
  · rfl
  · rw [if_pos (Or.inr rfl)]

section
variable {row row' : Element} {n : Int} (h : widenRow row n = .ok row')
include h

/-- Widening a row by nothing changes nothing, and otherwise at most its extent. -/
theorem get?_of_widenRow {tag : Markup.Tag} (ht : n = 0 ∨ tag ≠ ⟨none, "spans"⟩) : row'.get? tag = row.get? tag := by
  rcases ht with rfl | ht
  · rw [widenRow_zero] at h
    rw [← Except.ok.inj h]
  · rcases widenRow_cases h with rfl | ⟨spans, rfl⟩
    · rfl
    · exact row.get?_set_ne spans ht

theorem tag_of_widenRow : row'.tag = row.tag := by
  rcases widenRow_cases h with rfl | ⟨spans, rfl⟩
  · rfl
  · rfl

theorem ref_of_widenRow : row'.attribute? "r" = row.attribute? "r" := by
  rcases widenRow_cases h with rfl | ⟨spans, rfl⟩
  · rfl
  · exact row.attribute?_set_ne spans (by decide)

theorem cells_of_widenRow : cellsOf row' = cellsOf row := by
  rcases widenRow_cases h with rfl | ⟨spans, rfl⟩
  · rfl
  · rfl

end

/-! ### New rows -/

/-- A row carries its number, and its cells stand somewhere in it and hold places below `size`. When the
cells that are filled come in order, the columns increase up to a limit. -/
structure Fit (ordered : Prop) (number : Int) (limit size : Nat) (row : Element) : Prop where
  tag : row.tag = Vocabulary.worksheetRow
  ref : ∃ s, writeInteger number = .ok s ∧ row.attribute? "r" = some s
  cells : ∃ columns, StandAt number columns (cellsOf row) ∧
    (ordered → columns.Pairwise (· < ·) ∧ ∀ c ∈ columns, 1 ≤ c ∧ c ≤ limit)
  placed : ∀ e ∈ cellsOf row, Cell.Placed size e

section
variable {ordered : Prop}

theorem Fit.mono {number : Int} {l l' s s' : Nat} {row : Element} (h : Fit ordered number l s row)
    (hl : ordered → l ≤ l') (hs : s ≤ s') : Fit ordered number l' s' row where
  tag := h.tag
  ref := h.ref
  cells := by
    obtain ⟨columns, stand, bounds⟩ := h.cells
    refine ⟨columns, stand, fun ho => ⟨(bounds ho).1, fun c hc => ?_⟩⟩
    obtain ⟨h1, h2⟩ := (bounds ho).2 c hc
    exact ⟨h1, Nat.le_trans h2 (hl ho)⟩
  placed e he := (h.placed e he).mono hs

theorem Fit.parse {number : Int} {l s : Nat} {row : Element} (h : Fit ordered number l s row) :
    parseInteger (row.attributeOr "r" "") = .ok number := by
  obtain ⟨t, ht, hr⟩ := h.ref
  rw [Element.attributeOr, hr]
  exact parseInteger_of_write ht

/-- The new rows of the row `number` are fit, the one at the place `i` up to the column `limit i` moved by
the cells inserted into it. -/
def FitRows (ordered : Prop) (number : Int) (limit : Nat → Nat) (size : Nat) (rows : List NewRow) : Prop :=
  ∀ (i : Nat) (r : NewRow), rows[i]? = some r → Fit ordered (number + i + 1) (limit i + r.shift) size r.row

theorem FitRows.mono {number : Int} {l l' : Nat → Nat} {s s' : Nat} {rows : List NewRow}
    (h : FitRows ordered number l s rows) (hl : ordered → ∀ i, l i ≤ l' i) (hs : s ≤ s') :
    FitRows ordered number l' s' rows :=
  fun i r hr => (h i r hr).mono (fun ho => Nat.add_le_add_right (hl ho i) _) hs

/-- A list in which an item was replaced holds the new item in its place, and elsewhere what it held. -/
theorem eq_or_of_getElem?_set {α : Type} {xs : List α} {x y : α} {place i : Nat} (h : (xs.set place x)[i]? = some y) :
    i = place ∧ y = x ∨ i ≠ place ∧ xs[i]? = some y := by
  by_cases hi : i = place
  · rw [hi, List.getElem?_set_self'] at h
    obtain ⟨_, -, rfl⟩ := Option.map_eq_some_iff.mp h
    exact Or.inl ⟨hi, rfl⟩
  · rw [List.getElem?_set_ne (Ne.symm hi)] at h
    exact Or.inr ⟨hi, h⟩

theorem FitRows.set {number : Int} {limit : Nat → Nat} {size : Nat} {rows : List NewRow} {place : Nat}
    {r : NewRow} (h : ∀ (i : Nat) (q : NewRow), i ≠ place → rows[i]? = some q →
      Fit ordered (number + i + 1) (limit i + q.shift) size q.row)
    (hr : Fit ordered (number + place + 1) (limit place + r.shift) size r.row) :
    FitRows ordered number limit size (rows.set place r) := by
  intro i q hq
  rcases eq_or_of_getElem?_set hq with ⟨rfl, rfl⟩ | ⟨hi, hq⟩
  · exact hr
  · exact h i q hi hq

theorem fit_freshRow {site : Site} (htag : site.row.tag = Vocabulary.worksheetRow) {count : Nat}
    {r : NewRow} (h : freshRow site count = .ok r) (limit size : Nat) :
    Fit ordered (site.number + count + 1) limit size r.row := by
  obtain ⟨s, hs, h⟩ := bind_eq_ok_iff.mp h
  rw [← Except.ok.inj h]
  have none : cellsOf ((site.row.copyBare site.scope).set "r" s) = [] := rfl
  refine ⟨?_, ⟨s, hs, Element.attribute?_set _ _ _⟩, ⟨[], by rw [none]; rfl, fun _ => ⟨.nil, by simp⟩⟩, ?_⟩
  · exact (Element.tag_copyBare site.scope site.row).trans htag
  · rw [none]
    intro e he
    cases he

/-- A row of a list that was made long enough is one that was there, or the next one, which was needed. -/
theorem getElem?_of_ensureRow {site : Site} {rows rows' : List NewRow} {place i : Nat} {r : NewRow}
    (h : ensureRow site rows place = .ok rows') (hr : rows'[i]? = some r) :
    rows[i]? = some r ∨ i = rows.length ∧ i ≤ place ∧ freshRow site i = .ok r := by
  unfold ensureRow at h
  split at h
  · rw [← Except.ok.inj h] at hr
    exact Or.inl hr
  · next short =>
    obtain ⟨fresh, hfresh, h⟩ := bind_eq_ok_iff.mp h
    rw [← Except.ok.inj h] at hr
    rcases Nat.lt_or_ge i rows.length with hi | hi
    · rw [List.getElem?_append_left hi] at hr
      exact Or.inl hr
    · rw [List.getElem?_append_right hi] at hr
      obtain ⟨first, rfl⟩ := List.getElem?_eq_some_iff.mp hr
      rw [List.length_singleton] at first
      obtain rfl : i = rows.length := by omega
      exact Or.inr ⟨rfl, Nat.not_lt.mp short, by simpa using hfresh⟩

theorem fitRows_ensureRow {site : Site} (htag : site.row.tag = Vocabulary.worksheetRow)
    {limit : Nat → Nat} {size : Nat} {rows rows' : List NewRow} {place : Nat}
    (hf : FitRows ordered site.number limit size rows) (h : ensureRow site rows place = .ok rows') :
    FitRows ordered site.number limit size rows' := by
  intro i r hr
  rcases getElem?_of_ensureRow h hr with old | ⟨-, -, fresh⟩
  · exact hf i r old
  · exact fit_freshRow htag fresh _ _

/-- The cells of a record stand behind those that its row had. -/
theorem cells_of_addCells {target grown : NewRow} {cells : List Element} {inserted : Nat}
    (tags : ∀ e ∈ cells, e.tag = Vocabulary.cell) (h : addCells target cells inserted = .ok grown) :
    (cellsOf grown.row).map Element.meaning = (cellsOf target.row ++ cells).map Element.meaning := by
  obtain ⟨row, hrow, h⟩ := bind_eq_ok_iff.mp h
  rw [← Except.ok.inj h, cells_of_widenRow hrow, List.map_append]
  exact Element.meaning_childrenWith_foldl_append [] target.row tags

/-- Cells that are put at the end of a fit row, behind all its columns. -/
theorem fit_addCells {target grown : NewRow} {number : Int} {c size size' inserted : Nat}
    {cell : Element} {cells : List Element} (hc : 1 ≤ c) (htag : cell.tag = Vocabulary.cell)
    (hf : Fit ordered number (c - 1 + target.shift) size target.row)
    (laid : Laid number (c + target.shift) cell size' cells) (hle : size ≤ size')
    (hlen : cells.length = inserted + 1) (h : addCells target cells inserted = .ok grown) :
    Fit ordered number (c + grown.shift) size' grown.row := by
  have tags : ∀ e ∈ cells, e.tag = Vocabulary.cell := fun e he => (laid.style e he).tag.trans htag
  have hcells := cells_of_addCells tags h
  obtain ⟨row, hrow, h⟩ := bind_eq_ok_iff.mp h
  rw [← Except.ok.inj h] at hcells ⊢
  obtain ⟨columns, stand, bounds⟩ := hf.cells
  refine ⟨?_, ?_, ⟨columns ++ List.range' (c + target.shift) cells.length, ?_, fun ho => ⟨?_, ?_⟩⟩, ?_⟩
  · exact (tag_of_widenRow hrow).trans ((Element.tag_foldl_append [] cells target.row).trans hf.tag)
  · obtain ⟨s, hs, hr⟩ := hf.ref
    exact ⟨s, hs, (ref_of_widenRow hrow).trans ((Element.get?_foldl_append [] _ cells target.row).trans hr)⟩
  · exact StandAt.of_meaning hcells (stand.append laid.stand)
  · rw [List.pairwise_append]
    refine ⟨(bounds ho).1, List.pairwise_lt_range', ?_⟩
    intro a ha b hb
    have := ((bounds ho).2 a ha).2
    have := (List.mem_range'_1.mp hb).1
    omega
  · intro x hx
    show 1 ≤ x ∧ x ≤ c + (target.shift + inserted)
    rcases List.mem_append.mp hx with hx | hx
    · have := (bounds ho).2 x hx
      omega
    · have := List.mem_range'_1.mp hx
      omega
  · intro e he
    obtain ⟨d, hd, hm⟩ := List.mem_map.mp (hcells ▸ List.mem_map_of_mem he)
    refine Cell.Placed.of_meaning hm.symm ?_
    rcases List.mem_append.mp hd with hd | hd
    · exact (hf.placed d hd).mono hle
    · exact laid.placed d hd

end

/-! ### The work on a row -/

section
variable {holds : Nat → Prop} {becomes : String → String → Prop} {ordered : Prop}

/-- How filling cells goes on: the pool changes by steps, the tables grow, and no row is counted yet. -/
structure Work.Follows (holds : Nat → Prop) (becomes : String → String → Prop) (w w' : Work) : Prop where
  pool : Pool.Steps holds becomes w.pool w'.pool
  tables : List.Forall₂ (Table.Follows id) w.tables w'.tables
  rowsInserted : w'.stats.rowsInserted = w.stats.rowsInserted

theorem Work.Follows.refl (w : Work) : Work.Follows holds becomes w w :=
  ⟨.refl, Table.forall₂_follows_refl _, rfl⟩

theorem Work.Follows.trans {a b c : Work} (h : Work.Follows holds becomes a b)
    (h' : Work.Follows holds becomes b c) : Work.Follows holds becomes a c where
  pool := h.pool.trans h'.pool
  tables := Table.forall₂_follows_trans h.tables h'.tables
  rowsInserted := h'.rowsInserted.trans h.rowsInserted

variable (holds becomes)

/-- The columns that a row's new cells may reach while the records of the cell in column `c` are placed:
the rows up to `place` have got theirs. -/
def reached (c place : Nat) (i : Nat) : Nat := if i < place then c else c - 1

/-- What placing a record comes to: the list of new rows is long enough for it, its cells are put at the end of
its row, and the chosen tables grow. -/
theorem placeRecord_cases {site : Site} {cell : Element} {column : String} {chosen : List Bool} {place : Nat}
    {item : Value} {work work' : Work} (h : placeRecord site cell column chosen place item work = .ok work') :
    ∃ rows, ensureRow site work.newRows place = .ok rows ∧
      (rows[place]? = none ∧ work' = work ∨
        ∃ target cells ref inserted pool grown tables widest, rows[place]? = some target ∧
          recordCells cell column target item work.pool = .ok (cells, ref, inserted, pool) ∧
          addCells target cells inserted = .ok grown ∧ Shift.growTables chosen ref work.tables = .ok tables ∧
          widest = (if item.isSequence then max work.stats.columnsInserted grown.shift
            else work.stats.columnsInserted) ∧
          work' = ⟨pool, tables, rows.set place grown, { work.stats with columnsInserted := widest }⟩) := by
  obtain ⟨rows, hrows, h⟩ := bind_eq_ok_iff.mp h
  refine ⟨rows, hrows, ?_⟩
  split at h
  · next hnone => exact Or.inl ⟨hnone, (Except.ok.inj h).symm⟩
  · next target htarget =>
    obtain ⟨⟨cells, ref, inserted, pool⟩, hcells, h⟩ := bind_eq_ok_iff.mp h
    obtain ⟨grown, hgrown, h⟩ := bind_eq_ok_iff.mp h
    obtain ⟨tables, htables, h⟩ := bind_eq_ok_iff.mp h
    exact Or.inr ⟨target, cells, ref, inserted, pool, grown, tables, _, htarget, hcells, hgrown, htables, rfl,
      (Except.ok.inj h).symm⟩

theorem placeRecord_spec {site : Site} (hrow : site.row.tag = Vocabulary.worksheetRow) {cell : Element}
    (htag : cell.tag = Vocabulary.cell) {c : Nat} (hc : 1 ≤ c) {chosen : List Bool} {place : Nat}
    {item : Value} {work work' : Work} (hp : work.pool.Sound)
    (hlen : chosen.length = work.tables.length)
    (hf : FitRows ordered site.number (reached c place) work.pool.size work.newRows)
    (h : placeRecord site cell (String.ofList (Reference.columnLetters c)) chosen place item work =
      .ok work') :
    Work.Follows holds becomes work work' ∧
      FitRows ordered site.number (reached c (place + 1)) work'.pool.size work'.newRows := by
  have wider (i : Nat) : reached c place i ≤ reached c (place + 1) i := by
    unfold reached
    split <;> split <;> omega
  obtain ⟨rows, hrows, ⟨-, rfl⟩ | ⟨target, cells, ref, inserted, pool, grown, tables, widest, htarget, hcells,
    hgrown, htables, -, rfl⟩⟩ := placeRecord_cases h
  · exact ⟨.refl work', hf.mono (fun _ => wider) (Nat.le_refl _)⟩
  · have fit := fitRows_ensureRow hrow hf hrows
    have target_fit := fit place target htarget
    obtain ⟨len, laid, steps, -⟩ :=
      recordCells_spec holds becomes hc target_fit.parse hp hcells
    refine ⟨⟨steps, Table.growTables_follows hlen htables, rfl⟩, ?_⟩
    have here : reached c place place = c - 1 := if_neg (Nat.lt_irrefl _)
    have there : reached c (place + 1) place = c := if_pos (Nat.lt_succ_self _)
    rw [here] at target_fit
    apply FitRows.set
    · intro i q _ hq
      exact (fit i q hq).mono (fun _ => Nat.add_le_add_right (wider i) _) steps.size_le
    · rw [there]
      exact fit_addCells hc htag target_fit laid steps.size_le len hgrown

/-- Placing the further records of a cell, the first of them into the new row at `place`. -/
theorem placeRecords_spec {site : Site} (hrow : site.row.tag = Vocabulary.worksheetRow) {cell : Element}
    (htag : cell.tag = Vocabulary.cell) {c : Nat} (hc : 1 ≤ c) {chosen : List Bool} :
    ∀ {items : List Value} {place : Nat} {work work' : Work},
      placeRecords site cell (String.ofList (Reference.columnLetters c)) chosen place items work = .ok work' →
      work.pool.Sound → chosen.length = work.tables.length →
      FitRows ordered site.number (reached c place) work.pool.size work.newRows →
      Work.Follows holds becomes work work' ∧
        FitRows ordered site.number (fun _ => c) work'.pool.size work'.newRows
  | [], place, work, work', h, _, _, hf => by
      rw [← Except.ok.inj h]
      refine ⟨.refl work, hf.mono (fun _ i => ?_) (Nat.le_refl _)⟩
      unfold reached
      split <;> omega
  | item :: items, place, work, work', h, hp, hlen, hf => by
      obtain ⟨next, hnext, h⟩ := bind_eq_ok_iff.mp h
      obtain ⟨first, fit⟩ :=
        placeRecord_spec holds becomes hrow htag hc hp hlen hf hnext
      have hlen' : chosen.length = next.tables.length := hlen.trans first.tables.length_eq
      obtain ⟨rest, fit'⟩ := placeRecords_spec hrow htag hc h (first.pool.sound hp) hlen' fit
      exact ⟨first.trans rest, fit'⟩

end

end Expand
end Gridfill

import Gridfill.Proofs.Sheet.HeaderCells

/-!
# The header row of a table

In a row whose cells stand in increasing columns the cells of a table stand side by side (`Headed.exists_split`). When
they display the names of its columns and no cell to the left of them takes more than one column, the row in its place
has cells from the same column on, side by side, that display the names that these become (`RowReached.headed`).
-/

namespace Gridfill

open Markup (Element)

/-- Increasing columns that hold all columns of a stretch hold them in one piece. -/
theorem exists_piece_of_increasing {columns : List Nat} (increasing : columns.Pairwise (· < ·)) {first n : Nat}
    (h : ∀ j < n, first + j ∈ columns) :
    ∃ front back, columns = front ++ List.range' first n ++ back ∧ ∀ c ∈ front, c < first := by
  induction columns generalizing first n with
  | nil =>
      cases n with
      | zero => exact ⟨[], [], rfl, by simp⟩
      | succ n => cases h 0 (Nat.succ_pos n)
  | cons c cs ih =>
      obtain ⟨behind, rest⟩ := List.pairwise_cons.mp increasing
      cases n with
      | zero => exact ⟨[], c :: cs, rfl, by simp⟩
      | succ n =>
          by_cases head : c = first
          · subst head
            have others : ∀ j < n, c + 1 + j ∈ cs := by
              intro j hj
              have mem := h (j + 1) (by omega)
              rw [show c + (j + 1) = c + 1 + j by omega] at mem
              exact (List.mem_cons.mp mem).resolve_left (by omega)
            obtain ⟨front, back, rfl, below⟩ := ih rest others
            have none : front = [] := by
              apply List.eq_nil_iff_forall_not_mem.mpr
              intro d hd
              have above := behind d (by simp [hd])
              have := below d hd
              omega
            subst none
            exact ⟨[], back, rfl, by simp⟩
          · have first_mem := h 0 (Nat.succ_pos n)
            have before : c < first := behind first ((List.mem_cons.mp first_mem).resolve_left (Ne.symm head))
            have others : ∀ j < n + 1, first + j ∈ cs := by
              intro j hj
              exact (List.mem_cons.mp (h j hj)).resolve_left (by omega)
            obtain ⟨front, back, rfl, below⟩ := ih rest others
            exact ⟨c :: front, back, rfl, List.forall_mem_cons.mpr ⟨before, below⟩⟩

/-- What stands in the middle of a list. -/
theorem getElem?_middle {α : Type} {front mid : List α} (back : List α) {j : Nat} (h : j < mid.length) :
    (front ++ mid ++ back)[front.length + j]? = mid[j]? := by
  rw [List.append_assoc, List.getElem?_append_right (Nat.le_add_right _ _), Nat.add_sub_cancel_left,
    List.getElem?_append_left h]

/-- What stands in the first of three parts of a list has a partner in the first part of a list beside it. -/
theorem exists_column_of_mem {α β : Type} {as cs bs : List α} {front mid back : List β}
    (length : as.length = front.length) {x : β} (hx : x ∈ front) :
    ∃ (i : Nat), ∃ c ∈ as, (as ++ cs ++ bs)[i]? = some c ∧ (front ++ mid ++ back)[i]? = some x := by
  obtain ⟨i, hi, rfl⟩ := List.mem_iff_getElem.mp hx
  have hi' : i < as.length := by omega
  refine ⟨i, as[i], List.getElem_mem hi', ?_, ?_⟩
  · rw [List.append_assoc, List.getElem?_append_left hi', List.getElem?_eq_getElem hi']
  · rw [List.append_assoc, List.getElem?_append_left hi, List.getElem?_eq_getElem hi]

/-- The column at a place of a stretch of columns. -/
theorem getElem?_stretch (as bs : List Nat) (first : Nat) {n j : Nat} (h : j < n) :
    (as ++ List.range' first n ++ bs)[as.length + j]? = some (first + j) := by
  rw [getElem?_middle bs (by rw [List.length_range']; exact h), List.getElem?_range' h, Nat.one_mul]

open Cell (Displays)

/-- Of cells in the given columns, those in the columns from the first on display the names, one after the other. -/
def Headed (pool : Pool) (columns : List Nat) (cells : List Element) (first : Nat) (names : List String) : Prop :=
  ∀ (j : Nat) (name : String), names[j]? = some name →
    ∃ (i : Nat) (cell : Element), columns[i]? = some (first + j) ∧ cells[i]? = some cell ∧ Displays pool cell name

section
variable {pool : Pool} {columns : List Nat} {cells : List Element} {first : Nat} {names : List String}

theorem headed_movedTo (root : Element) :
    Headed (pool.movedTo root) columns cells first names ↔ Headed pool columns cells first names := by
  simp only [Headed, Displays, Cell.shownText_movedTo]

theorem Headed.of_meaning {others : List Element} (hm : others.map Element.meaning = cells.map Element.meaning)
    (h : Headed pool columns cells first names) : Headed pool columns others first names := by
  intro j name hj
  obtain ⟨i, cell, hi, hcell, displays⟩ := h j name hj
  have here := congrArg (fun es => es[i]?) hm
  simp only [List.getElem?_map, hcell, Option.map_some] at here
  obtain ⟨other, hother, same⟩ := Option.map_eq_some_iff.mp here
  exact ⟨i, other, hi, hother, displays.of_meaning same⟩

/-- In increasing columns the cells that display the names stand side by side. -/
theorem Headed.exists_split (h : Headed pool columns cells first names) (increasing : columns.Pairwise (· < ·))
    (length : columns.length = cells.length) :
    ∃ as bs front headers back, columns = as ++ List.range' first names.length ++ bs ∧
      cells = front ++ headers ++ back ∧ as.length = front.length ∧ (∀ c ∈ as, c < first) ∧
      List.Forall₂ (fun s e => Displays pool e s) names headers := by
  have all : ∀ j < names.length, first + j ∈ columns := by
    intro j hj
    obtain ⟨i, -, hi, -⟩ := h j _ (List.getElem?_eq_getElem hj)
    exact List.mem_of_getElem? hi
  obtain ⟨as, bs, hcolumns, below⟩ := exists_piece_of_increasing increasing all
  have size : as.length + names.length ≤ cells.length := by
    rw [← length, hcolumns]
    simp
  refine ⟨as, bs, cells.take as.length, (cells.drop as.length).take names.length,
    (cells.drop as.length).drop names.length, hcolumns, ?_, ?_, below, ?_⟩
  · rw [List.append_assoc, List.take_append_drop, List.take_append_drop]
  · rw [List.length_take]
    omega
  · apply List.forall₂_iff_get.mpr
    refine ⟨by simp only [List.length_take, List.length_drop]; omega, ?_⟩
    intro j hj hj'
    obtain ⟨i, cell, hi, hcell, displays⟩ := h j names[j] (List.getElem?_eq_getElem hj)
    have here : columns[as.length + j]? = some (first + j) := by
      rw [hcolumns]
      exact getElem?_stretch as bs first hj
    have place : i = as.length + j := by
      have nodup : columns.Nodup := increasing.imp fun lt => Nat.ne_of_lt lt
      exact (List.getElem?_inj (List.getElem?_eq_some_iff.mp hi).1 nodup).mp (hi.trans here.symm)
    have same : ((cells.drop as.length).take names.length)[j]? = some cell := by
      rw [List.getElem?_take_of_lt hj, List.getElem?_drop, ← place]
      exact hcell
    rw [List.getElem?_eq_getElem hj'] at same
    rw [List.get_eq_getElem, List.get_eq_getElem, Option.some.inj same]
    exact displays

theorem headed_of_split {as bs : List Nat} {front headers back : List Element} (length : as.length = front.length)
    (h : List.Forall₂ (fun s e => Displays pool e s) names headers) :
    Headed pool (as ++ List.range' first names.length ++ bs) (front ++ headers ++ back) first names := by
  intro j name hj
  obtain ⟨hlt, rfl⟩ := List.getElem?_eq_some_iff.mp hj
  obtain ⟨size, all⟩ := List.forall₂_iff_get.mp h
  have hlt' : j < headers.length := by omega
  refine ⟨as.length + j, headers[j], getElem?_stretch as bs first hlt, ?_, all j hlt hlt'⟩
  rw [length, getElem?_middle back hlt', List.getElem?_eq_getElem hlt']

end

namespace Expand

open Cell (Stays)
open Header (Worded newNames)

/-- A walk along cells of which some display names side by side, and those before them take a single column each: in
the place of these stand cells side by side from the same column on that display the names that the names become. -/
theorem walkCells_headed {site : Site} {holds : Nat → Prop} {p₀ : Pool} (hp : p₀.Sound) (hmarks : site.data.Unmarked)
    (hholds : ∀ i, holds i → i < p₀.size) {front headers back : List Element} {as bs : List Nat} {first : Nat}
    {names : List String} {walk walk' : Walk} (ready : WalkReady False site 0 walk) (start : walk.inserted = 0)
    (tags : ∀ cell ∈ front ++ headers ++ back, cell.tag = Vocabulary.cell)
    (places : ∀ cell ∈ front ++ headers ++ back, ∀ i, Cell.place? cell = some i → holds i)
    (steps : Pool.Steps holds (Fills site.data) p₀ walk.work.pool)
    (hcolumns : effectiveColumns 0 (front ++ headers ++ back) = .ok (as ++ List.range' first names.length ++ bs))
    (length : as.length = front.length) (narrow : ∀ cell ∈ front, cellWidth site.data (Cell.shownText p₀ cell) = 1)
    (worded : ∀ name ∈ names, Worded site.data name)
    (stays : ∀ s ∈ names.flatMap (newNames site.data), Stays holds site.data p₀ s)
    (displays : List.Forall₂ (fun s e => Displays p₀ e s) names headers)
    (h : walkCells site (front ++ headers ++ back) walk = .ok walk')
    (writable : walk'.work.pool.size < Text.integerBound) :
    ∃ before block behind, walk'.cells = before ++ block ++ behind ∧
      StandAt site.number (List.range' first block.length) block ∧
      List.Forall₂ (fun s e => Displays walk'.work.pool e s) (names.flatMap (newNames site.data)) block := by
  rw [List.forall_mem_append, List.forall_mem_append] at tags places
  obtain ⟨⟨frontTags, headerTags⟩, backTags⟩ := tags
  obtain ⟨⟨frontPlaces, headerPlaces⟩, backPlaces⟩ := places
  obtain ⟨mid, hmid, hback⟩ := walkCells_append h
  obtain ⟨left, hleft, hheaders⟩ := walkCells_append hmid
  -- the columns of the three parts
  obtain ⟨cs, bs', hsplit, hcs, -⟩ := exists_of_effectiveColumns_append hcolumns
  obtain ⟨as', hs, rfl, has, hhs⟩ := exists_of_effectiveColumns_append hcs
  have same : as' = as ∧ hs = List.range' first names.length := by
    have sizes := length_of_effectiveColumns has
    have sizes' := length_of_effectiveColumns hhs
    rw [List.append_assoc, List.append_assoc] at hsplit
    obtain ⟨hfirst, hrest⟩ := List.append_inj hsplit (by omega)
    refine ⟨hfirst.symm, (List.append_inj hrest ?_).1.symm⟩
    rw [List.length_range', sizes', displays.length_eq]
  obtain ⟨rfl, rfl⟩ := same
  rw [displays.length_eq] at hhs
  -- the walk along them
  obtain ⟨⟨added, hadded⟩, follows, columns, hfront, ready'⟩ := walkCells_goes holds ready frontTags frontPlaces hleft
  obtain rfl : as' = columns := Except.ok.inj (has.symm.trans hfront)
  have flat := inserted_of_narrow hp hholds hmarks.plain ready frontTags frontPlaces steps narrow hleft
  have steps' := steps.trans follows.pool
  obtain ⟨-, follows', _, -, ready''⟩ := walkCells_goes holds ready' headerTags headerPlaces hheaders
  obtain ⟨⟨behind, hbehind⟩, follows'', -⟩ := walkCells_goes holds ready'' backTags backPlaces hback
  have writable' := Nat.lt_of_le_of_lt follows''.pool.size_le writable
  obtain ⟨block, hblock, stand, shows⟩ := walkCells_headers hp hholds hmarks ready' headerTags headerPlaces steps' hhs
    worded stays displays hheaders writable'
  rw [flat, start, Nat.add_zero] at stand
  refine ⟨walk.cells ++ added, block, behind, ?_, stand, ?_⟩
  · rw [hbehind, hblock, hadded]
  · exact displays_steps hp hholds hmarks.plain (steps'.trans follows'.pool) follows''.pool stays shows

section
variable {sheet : Sheet} {workbook : Element} {pool : Pool} {data : Bindings} {filled : Filled} {k : Nat}
  {row : Element} {scope : Markup.Scope} {before : Pass} {number : Int} {walk : Walk} {out : Element}
  {next final : Pass}
  (reached : RowReached sheet workbook pool data filled k row scope before number walk out next final)
include reached

/-- The row in the place of one that displays names from a column on displays there the names that these become, when
no cell to the left of that column takes more than one column. -/
theorem RowReached.headed (hp : pool.Sound) (hmarks : data.Unmarked) (hholds : ∀ i, Holds sheet i → i < pool.size)
    (writable : filled.pool.size < Text.integerBound) (hrow : sheet.rows[k]? = some row) {columns : List Nat}
    (hcolumns : effectiveColumns 0 (cellsOf row) = .ok columns) (increasing : columns.Pairwise (· < ·)) {first : Nat}
    {names : List String} (headed : Headed pool columns (cellsOf row) first names)
    (narrow : ∀ (i : Nat) (c : Nat) (cell : Element), columns[i]? = some c → (cellsOf row)[i]? = some cell → c < first →
      cellWidth data (Cell.shownText pool cell) = 1)
    (worded : ∀ name ∈ names, Worded data name)
    (stays : ∀ s ∈ names.flatMap (newNames data), Stays (Holds sheet) data pool s) {e : Element}
    (he : e.meaning = out.meaning) :
    ∃ columns', StandAt number columns' (cellsOf e) ∧ columns'.Pairwise (· < ·) ∧
      Headed filled.pool columns' (cellsOf e) first (names.flatMap (newNames data)) := by
  have tags : ∀ cell ∈ cellsOf row, cell.tag = Vocabulary.cell := fun _ hc => Element.tag_of_mem_childrenWith hc
  have places : ∀ cell ∈ cellsOf row, ∀ i, Cell.place? cell = some i → Holds sheet i :=
    fun cell hc i hi => ⟨row, List.mem_of_getElem? hrow, cell, hc, hi⟩
  -- the cells of the filled row stand in increasing columns
  have behind : (0 :: columns).Pairwise (· < ·) :=
    List.pairwise_cons.mpr ⟨pos_of_effectiveColumns hcolumns, increasing⟩
  obtain ⟨follows, laid, -⟩ := reached.step.walked (Holds sheet) reached.tag reached.ready.sound places
    fun _ : True => columnsIncrease_of_pairwise hcolumns behind
  obtain ⟨columns', stand, ordered⟩ := laid.stand
  -- and among them those that display the names stand side by side
  have size := reached.later_holds.size_le
  rw [reached.step.pool] at size
  have writable' : walk.work.pool.size < Text.integerBound := Nat.lt_of_le_of_lt size writable
  have before_ := reached.earlier_holds hp
  have length := length_of_effectiveColumns hcolumns
  obtain ⟨as, bs, front, headers, back, rfl, hcells, hfront, below, displays⟩ := headed.exists_split increasing length
  have walked := reached.step.walk_eq
  have narrow' : ∀ cell ∈ front, cellWidth data (Cell.shownText pool cell) = 1 := by
    intro cell hc
    obtain ⟨i, c, hmem, hcolumn, hcell⟩ := exists_column_of_mem hfront hc
    exact narrow i c cell hcolumn (hcells ▸ hcell) (below c hmem)
  rw [hcells] at walked tags places hcolumns
  obtain ⟨left, block, right, hblock, standing, shows⟩ := walkCells_headed hp hmarks hholds
    (walkReady_start number reached.tag reached.ready.sound) rfl tags places before_ hcolumns hfront narrow' worded
    stays displays walked writable'
  rw [hblock] at stand
  obtain ⟨cs, rights, rfl, stand', standRight⟩ := stand.exists_append
  obtain ⟨lefts, middle, rfl, standLeft, standMiddle⟩ := stand'.exists_append
  obtain rfl := standMiddle.unique standing
  have meaning := reached.cells he
  rw [hblock] at meaning
  refine ⟨lefts ++ List.range' first block.length ++ rights, ?_, (ordered trivial).1, ?_⟩
  · exact StandAt.of_meaning meaning ((standLeft.append standing).append standRight)
  · have final_ : List.Forall₂ (fun s e => Displays filled.pool e s) (names.flatMap (newNames data)) block := by
      have later := reached.later_holds
      rw [reached.step.pool] at later
      exact displays_steps hp hholds hmarks.plain (before_.trans follows.pool) later stays shows
    rw [← final_.length_eq]
    exact (headed_of_split standLeft.length_eq.symm final_).of_meaning meaning

end

end Expand
end Gridfill

import Gridfill.Proofs.Sheet.Order
import Gridfill.Proofs.Text.DigitRun
import Gridfill.Workbook.Check

/-!
# What a report without errors says

The check of a sheet finds no errors exactly when the sheet is consistent (`passes_checkSheet_iff`): its rows
and the cells in them are in order, the places in the pool that cells hold are places of the pool, all ranges
read, and tables have as many columns as they say. This holds of sheets whose rows and cells all carry
references; of other sheets it is only used that the pool may grow (`passes_checkSheet_mono`).
-/

namespace Gridfill

open Markup (Element)

namespace Check

/-! ### Consistent sheets -/

/-- If the cell holds a place in the pool, it is one of a pool of the given size. -/
def PlaceExists (size : Nat) (cell : Element) : Prop :=
  cell.attribute? "t" = some "s" →
    let text := Text.strip ((Cell.valueText cell).getD "").toList
    Text.isDigitRun text = true ∧ ∃ i, parseInteger (String.ofList text) = .ok i ∧ i < size

/-- A sheet without errors. -/
structure Consistent (size : Nat) (s : Sheet) : Prop where
  rows : RowsInOrder 0 s.rows
  places : ∀ row ∈ s.rows, ∀ cell ∈ cellsOf row, PlaceExists size cell
  merges : MergesRead s.root
  tables : ∀ t ∈ s.tables, t.Consistent

/-! ### Checks that find no errors -/

/-- The check goes through and finds no errors. -/
def Passes (outcome : Except Failure (List Issue)) : Prop :=
  ∃ issues, outcome = .ok issues ∧ ∀ i ∈ issues, i.severity ≠ .error

theorem passes_ok_iff {issues : List Issue} :
    Passes (.ok issues) ↔ ∀ i ∈ issues, i.severity ≠ .error := by
  constructor
  · rintro ⟨found, h, hn⟩
    rwa [Except.ok.inj h]
  · exact fun h => ⟨issues, rfl, h⟩

theorem not_passes_error (f : Failure) : ¬ Passes (.error f) := by
  rintro ⟨issues, h, -⟩
  cases h

theorem passes_nil : Passes (.ok []) := passes_ok_iff.mpr fun _ hi => by cases hi

theorem not_passes_issue {i : Issue} (hi : i.severity = .error) : ¬ Passes (.ok [i]) := fun h =>
  passes_ok_iff.mp h i (List.mem_singleton_self i) hi

/-- Issues one after the other are without errors when each of them are. -/
theorem passes_append_iff {as bs : List Issue} :
    Passes (.ok (as ++ bs)) ↔ Passes (.ok as) ∧ Passes (.ok bs) := by
  simp only [passes_ok_iff, List.mem_append]
  exact ⟨fun h => ⟨fun i hi => h i (Or.inl hi), fun i hi => h i (Or.inr hi)⟩,
    fun h i hi => hi.elim (h.1 i) (h.2 i)⟩

/-- A check that makes an issue of a condition passes when the condition holds. -/
theorem passes_if_iff {c : Prop} [Decidable c] {sheet : String} {category : Category} {message : String} :
    Passes (.ok (if c then [] else [problem sheet category message])) ↔ c := by
  split
  · next h => exact ⟨fun _ => h, fun _ => passes_nil⟩
  · next h => exact ⟨fun hp => absurd hp (not_passes_issue rfl), fun hc => absurd hc h⟩

/-- Two checks one after the other, behind issues found before. -/
theorem passes_between_iff {as : List Issue} {x y : Except Failure (List Issue)} :
    Passes (do return as ++ (← x) ++ (← y)) ↔ Passes (.ok as) ∧ Passes x ∧ Passes y := by
  cases x with
  | error f => exact ⟨fun h => absurd h (not_passes_error f), fun h => absurd h.2.1 (not_passes_error f)⟩
  | ok bs =>
      cases y with
      | error f => exact ⟨fun h => absurd h (not_passes_error f), fun h => absurd h.2.2 (not_passes_error f)⟩
      | ok cs =>
          show Passes (.ok (as ++ bs ++ cs)) ↔ _
          rw [passes_append_iff, passes_append_iff, and_assoc]

/-- Two checks one after the other pass when both do. -/
theorem passes_bind_iff {x y : Except Failure (List Issue)} :
    Passes (do return (← x) ++ (← y)) ↔ Passes x ∧ Passes y := by
  cases x with
  | error f => exact ⟨fun h => absurd h (not_passes_error f), fun h => absurd h.1 (not_passes_error f)⟩
  | ok as =>
      cases y with
      | error f => exact ⟨fun h => absurd h (not_passes_error f), fun h => absurd h.2 (not_passes_error f)⟩
      | ok bs => exact passes_append_iff

/-! ### Places in the pool -/

/-- A run of digits is not read as a negative number. -/
theorem nonneg_of_isDigitRun {cs : List Char} (h : Text.isDigitRun cs = true) {i : Int}
    (hi : parseInteger (String.ofList cs) = .ok i) : 0 ≤ i := by
  rw [parseInteger_eq_ok_iff, String.toList_ofList] at hi
  obtain ⟨ds, -, -, rfl⟩ := Text.isDigitRun_and_readInteger_iff.mp ⟨h, hi⟩
  exact Int.natCast_nonneg _

/-- A place that exists is a place of a pool of the size, and the other way round when the size can be
written. -/
theorem PlaceExists.placed {size : Nat} {cell : Element} (h : PlaceExists size cell) :
    Cell.Placed size cell := by
  intro ht
  obtain ⟨digits, i, hi, hlt⟩ := h ht
  obtain ⟨k, rfl⟩ := Int.eq_ofNat_of_zero_le (nonneg_of_isDigitRun digits hi)
  exact ⟨k, by omega, fun _ => ⟨digits, hi⟩⟩

theorem placeExists_of_placed {size : Nat} (hs : size < Text.integerBound) {cell : Element}
    (h : Cell.Placed size cell) : PlaceExists size cell := by
  intro ht
  obtain ⟨i, hi, hread⟩ := h ht
  obtain ⟨digits, hi'⟩ := hread (Nat.lt_trans hi hs)
  exact ⟨digits, i, hi', by omega⟩

section
variable (sheet : String) (size : Nat)

theorem passes_checkPlace_iff {cell : Element} :
    Passes (checkPlace sheet size cell) ↔ PlaceExists size cell := by
  unfold checkPlace PlaceExists
  split
  · next ht =>
    simp only [ht, forall_const]
    generalize Text.strip ((Cell.valueText cell).getD "").toList = text
    cases hd : Text.isDigitRun text with
    | false =>
        exact ⟨fun h => absurd h (not_passes_issue rfl), fun h => absurd h.1 (by decide)⟩
    | true =>
        cases hi : parseInteger (String.ofList text) with
        | error f =>
            refine ⟨fun h => absurd h (not_passes_error f), ?_⟩
            rintro ⟨-, i, h, -⟩
            cases h
        | ok i =>
            show Passes (if decide (i < size) = true then _ else _) ↔ _
            by_cases hlt : i < size
            · rw [if_pos (decide_eq_true hlt)]
              exact ⟨fun _ => ⟨rfl, i, rfl, hlt⟩, fun _ => passes_nil⟩
            · rw [if_neg (by simpa using hlt)]
              refine ⟨fun h => absurd h (not_passes_issue rfl), ?_⟩
              rintro ⟨-, j, hj, h⟩
              rw [← Except.ok.inj hj] at h
              exact absurd h hlt
  · next ht => exact ⟨fun _ h => absurd h ht, fun _ => passes_nil⟩

/-! ### Rows and cells -/

/-- The check of a cell whose reference reads. -/
theorem checkCell_eq (row last : Int) {cell : Element} {r : CellRef} {c : Nat}
    (hr : CellRef.parse (cell.attributeOr "r" "") = .ok r) (hc : r.columnNumber = .ok c) :
    ∃ inRow inOrder : String, ∀ size, checkCell sheet size row last cell = (do
      let place ← checkPlace sheet size cell
      return ((if r.row = row then [] else [problem sheet .rowOrder inRow]) ++
        (if last < c then [] else [problem sheet .cellOrder inOrder]) ++ place, (c : Int))) := by
  have ne : cell.attributeOr "r" "" ≠ "" := by
    intro e
    rw [e] at hr
    cases hr
  refine ⟨"Cell " ++ cell.attributeOr "r" "" ++ " is inside row " ++ toString row,
    "Cell " ++ cell.attributeOr "r" "" ++ " is out of column order in row " ++ toString row, fun size => ?_⟩
  unfold checkCell
  simp only [ne, if_false, hr, orIssue]
  show (r.columnNumber >>= fun column => _) = _
  rw [hc]
  rfl

/-- The check of a cell without a reference is that of its place. -/
theorem checkCell_of_bare (row last : Int) {cell : Element} (h : cell.attributeOr "r" "" = "") :
    checkCell sheet size row last cell = (do return (← checkPlace sheet size cell, last)) := by
  unfold checkCell
  simp only [h, if_true]

/-- Cells pass when the first, whose reference reads, stands in the row behind `last` and holds a place, and the
others pass behind it. -/
theorem passes_checkCells_cons {number : Int} {last : Nat} {cell : Element} {r : CellRef} {c : Nat}
    (hr : CellRef.parse (cell.attributeOr "r" "") = .ok r) (hc : r.columnNumber = .ok c) (cells : List Element) :
    Passes (checkCells sheet size number last (cell :: cells)) ↔
      ((r.row = number ∧ last < c) ∧ PlaceExists size cell) ∧ Passes (checkCells sheet size number c cells) := by
  obtain ⟨inRow, inOrder, h⟩ := checkCell_eq sheet number last hr hc
  rw [checkCells, h size, ← passes_checkPlace_iff sheet size]
  cases checkPlace sheet size cell with
  | error f => exact ⟨fun hp => absurd hp (not_passes_error f), fun hp => absurd hp.1.2 (not_passes_error f)⟩
  | ok place =>
      refine Iff.trans (passes_bind_iff (x := .ok (_ ++ _ ++ place))) ?_
      rw [passes_append_iff, passes_append_iff, passes_if_iff, passes_if_iff, Int.ofNat_lt]

theorem passes_checkCells_iff {number : Int} : ∀ {cells : List Element} {last : Nat},
    (∀ cell ∈ cells, ∃ r, CellRef.parse (cell.attributeOr "r" "") = .ok r) →
      (Passes (checkCells sheet size number last cells) ↔
        CellsInOrder number last cells ∧ ∀ cell ∈ cells, PlaceExists size cell)
  | [], last, _ => ⟨fun _ => ⟨trivial, fun _ h => by cases h⟩, fun _ => passes_nil⟩
  | cell :: cells, last, hcells => by
      obtain ⟨r, hr⟩ := hcells cell List.mem_cons_self
      obtain ⟨c, -, -, hc, -⟩ := (CellRef.valid_of_parse hr).columnNumber
      have ih : Passes (checkCells sheet size number c cells) ↔ _ :=
        passes_checkCells_iff fun d hd => hcells d (List.mem_cons_of_mem cell hd)
      rw [passes_checkCells_cons sheet size hr hc, ih, List.forall_mem_cons]
      constructor
      · rintro ⟨⟨⟨hrow, hlt⟩, place⟩, order, places⟩
        exact ⟨⟨r, c, hr, hrow, hc, hlt, order⟩, place, places⟩
      · rintro ⟨⟨r', c', hr', hrow, hc', hlt, order⟩, place, places⟩
        obtain rfl : r = r' := Except.ok.inj (hr.symm.trans hr')
        obtain rfl : c = c' := Except.ok.inj (hc.symm.trans hc')
        exact ⟨⟨⟨hrow, hlt⟩, place⟩, order, places⟩

/-- The number that a row carries is the one that it is checked by. -/
theorem rowNumber_eq {row : Element} {number : Int} (h : Expand.ownNumber row = .ok number) (last : Int) :
    rowNumber last row = .ok number := by
  unfold Expand.ownNumber Element.attributeOr at h
  unfold rowNumber
  cases hr : row.attribute? "r" with
  | none =>
      rw [hr] at h
      cases h
  | some s =>
      rw [hr] at h
      exact h

/-- Rows pass when the first, whose number reads, comes behind `last` with cells that pass, and the others pass
behind it. -/
theorem passes_checkRows_cons {last number : Int} {row : Element} (h : rowNumber last row = .ok number)
    (rows : List Element) : Passes (checkRows sheet size last (row :: rows)) ↔ last < number ∧
      Passes (checkCells sheet size number 0 (cellsOf row)) ∧ Passes (checkRows sheet size number rows) := by
  rw [checkRows, h]
  refine (passes_between_iff (x := checkCells sheet size number 0 (cellsOf row))).trans ?_
  rw [passes_if_iff]

theorem passes_checkRows_iff : ∀ {rows : List Element} {last : Int},
    (∀ row ∈ rows, (∃ number, Expand.ownNumber row = .ok number) ∧
      ∀ cell ∈ cellsOf row, ∃ r, CellRef.parse (cell.attributeOr "r" "") = .ok r) →
      (Passes (checkRows sheet size last rows) ↔
        RowsInOrder last rows ∧ ∀ row ∈ rows, ∀ cell ∈ cellsOf row, PlaceExists size cell)
  | [], last, _ => ⟨fun _ => ⟨trivial, fun _ h => by cases h⟩, fun _ => passes_nil⟩
  | row :: rows, last, hrows => by
      obtain ⟨⟨number, hnumber⟩, hcells⟩ := hrows row List.mem_cons_self
      have ih : Passes (checkRows sheet size number rows) ↔ _ :=
        passes_checkRows_iff fun r hr => hrows r (List.mem_cons_of_mem row hr)
      have cells : Passes (checkCells sheet size number 0 (cellsOf row)) ↔ _ :=
        passes_checkCells_iff sheet size hcells
      rw [passes_checkRows_cons sheet size (rowNumber_eq hnumber last), ih, cells, List.forall_mem_cons]
      constructor
      · rintro ⟨hlt, ⟨order, place⟩, rest, places⟩
        exact ⟨⟨number, hnumber, hlt, order, rest⟩, place, places⟩
      · rintro ⟨⟨number', hnumber', hlt, order, rest⟩, place, places⟩
        obtain rfl : number = number' := Except.ok.inj (hnumber.symm.trans hnumber')
        exact ⟨hlt, ⟨order, place⟩, rest, places⟩

end

/-! ### Ranges -/

/-- A failure is an issue, or stays a failure. -/
theorem orIssue_error {α : Type} (f : Failure) (issue : String → Issue) :
    (∃ m, orIssue (α := α) (.error f) issue = .ok (.inl (issue m))) ∨
      ∃ e, orIssue (α := α) (.error f) issue = .error e := by
  cases f with
  | reference kind text => exact Or.inl ⟨_, rfl⟩
  | _ => exact Or.inr ⟨_, rfl⟩

/-- The check of what fails to read finds an error or fails. -/
theorem not_passes_orIssue {α : Type} {f : Failure} {issue : String → Issue}
    (hi : ∀ m, (issue m).severity = .error) {next : Issue ⊕ α → Except Failure (List Issue)}
    (hnext : ∀ i, next (.inl i) = .ok [i]) : ¬ Passes (orIssue (.error f) issue >>= next) := by
  intro h
  rcases orIssue_error (α := α) f issue with ⟨m, hm⟩ | ⟨e, he⟩
  · rw [hm] at h
    have h : Passes (next (.inl (issue m))) := h
    rw [hnext] at h
    exact not_passes_issue (hi m) h
  · rw [he] at h
    exact not_passes_error e h

theorem passes_checkRange_iff {sheet lead ref : String} :
    Passes (checkRange sheet lead ref) ↔ ∃ r, CellRange.parse ref = .ok r := by
  unfold checkRange
  cases CellRange.parse ref with
  | ok r => exact ⟨fun _ => ⟨r, rfl⟩, fun _ => passes_nil⟩
  | error e =>
      constructor
      · intro h
        exact absurd h (not_passes_orIssue (fun _ => rfl) fun _ => rfl)
      · rintro ⟨r, h⟩
        cases h

/-- A check of each element passes when all of them do. -/
theorem passes_mapM_iff {α : Type} {f : α → Except Failure (List Issue)} : ∀ {xs : List α},
    Passes (do return (← xs.mapM f).flatten) ↔ ∀ x ∈ xs, Passes (f x)
  | [] => ⟨fun _ _ h => (List.not_mem_nil h).elim, fun _ => passes_nil⟩
  | x :: xs => by
      have rest : _ ↔ ∀ y ∈ xs, Passes (f y) := passes_mapM_iff
      rw [List.forall_mem_cons, ← rest, List.mapM_cons]
      cases f x with
      | error e => exact ⟨fun h => absurd h (not_passes_error e), fun h => absurd h.1 (not_passes_error e)⟩
      | ok a =>
          cases xs.mapM f with
          | error e =>
              exact ⟨fun h => absurd h (not_passes_error e), fun h => absurd h.2 (not_passes_error e)⟩
          | ok as => exact passes_append_iff

/-! ### Tables -/

theorem passes_checkColumns_iff {sheet name : String} {t : Table} {width : Int} :
    Passes (checkColumns sheet name t width) ↔ t.ColumnsAgree := by
  unfold checkColumns Table.ColumnsAgree
  cases t.columns? with
  | none =>
      refine ⟨fun _ list h => ?_, fun _ => passes_nil⟩
      cases h
  | some list =>
      -- the width of the range is a warning at most
      have warned (actual : Int) (m : String) : Passes (.ok (if width = actual then []
          else [⟨sheet, .warning, .table, m, none⟩])) := by
        split
        · exact passes_nil
        · refine passes_ok_iff.mpr fun i hi => ?_
          rw [List.mem_singleton.mp hi]
          intro h
          cases h
      cases hs : list.attribute? "count" with
      | none =>
          simp only [hs]
          refine ⟨fun _ l hl s h => ?_, fun _ => ?_⟩
          · rw [← Option.some.inj hl, hs] at h
            cases h
          · exact passes_append_iff.mpr ⟨passes_if_iff.mpr rfl, warned _ _⟩
      | some s =>
          cases hi : parseInteger s with
          | error f =>
              simp only [hs, hi]
              refine ⟨fun h => absurd h (not_passes_error f), fun h => ?_⟩
              have := h list rfl s hs
              rw [hi] at this
              cases this
          | ok i =>
              simp only [hs, hi]
              show Passes (.ok ((if i = _ then [] else _) ++ _)) ↔ _
              rw [passes_append_iff, passes_if_iff]
              constructor
              · rintro ⟨rfl, -⟩ l hl r hr
                rw [← Option.some.inj hl] at hr ⊢
                rw [← Option.some.inj (hs.symm.trans hr)]
                exact hi
              · intro h
                exact ⟨Except.ok.inj (hi.symm.trans (h list rfl s hs)), warned _ _⟩

theorem tableWidth_of_range {t : Table} {r : CellRange} (hr : t.range = .ok r) :
    ∃ width, tableWidth t = .ok width := by
  have valid := CellRange.valid_of_parse hr
  obtain ⟨last, -, -, hlast, -⟩ := valid.stop.columnNumber
  obtain ⟨first, -, -, hfirst, -⟩ := valid.start.columnNumber
  have width : r.width = .ok ((last : Int) - first + 1) :=
    bind_eq_ok_iff.mpr ⟨last, hlast, bind_eq_ok_iff.mpr ⟨first, hfirst, rfl⟩⟩
  exact ⟨_, bind_eq_ok_iff.mpr ⟨r, hr, width⟩⟩

theorem passes_checkTable_iff {sheet : String} {t : Table} :
    Passes (checkTable sheet t) ↔ t.Consistent := by
  unfold checkTable
  cases hr : t.range with
  | error f =>
      have width : tableWidth t = .error f := by
        rw [tableWidth, hr]
        rfl
      rw [width]
      refine ⟨fun h => absurd h (not_passes_orIssue (fun _ => rfl) fun _ => rfl), fun h => ?_⟩
      obtain ⟨r, h⟩ := h.range
      rw [hr] at h
      cases h
  | ok r =>
      obtain ⟨width, hwidth⟩ := tableWidth_of_range hr
      rw [hwidth]
      cases hf : t.filter? with
      | none =>
          refine (passes_bind_iff (x := .ok [])).trans ?_
          rw [passes_checkColumns_iff]
          refine ⟨fun h => ⟨⟨r, hr⟩, fun f h' => ?_, h.2⟩, fun h => ⟨passes_nil, h.columns⟩⟩
          rw [hf] at h'
          cases h'
      | some f =>
          refine passes_bind_iff.trans ?_
          rw [passes_checkRange_iff, passes_checkColumns_iff]
          constructor
          · rintro ⟨reads, columns⟩
            refine ⟨⟨r, hr⟩, fun g hg => ?_, columns⟩
            rw [← Option.some.inj (hf.symm.trans hg)]
            exact reads
          · exact fun h => ⟨h.filter f hf, h.columns⟩

/-! ### Sheets -/

/-- A sheet passes when its rows, its merged ranges and its tables do. -/
theorem passes_checkSheet_parts {size : Nat} {s : Sheet} :
    Passes (checkSheet size s) ↔
      Passes (checkRows s.name size 0 s.rows) ∧ MergesRead s.root ∧ ∀ t ∈ s.tables, t.Consistent := by
  have merges : Passes (do return (← (s.root.descendants [Vocabulary.mergeCells, Vocabulary.mergeCell]).mapM
      fun m => checkRange s.name "Merged cell: " (m.attributeOr "ref" "")).flatten) ↔ MergesRead s.root := by
    rw [passes_mapM_iff]
    exact forall_congr' fun m => forall_congr' fun _ => passes_checkRange_iff
  have tables : Passes (do return (← s.tables.mapM (checkTable s.name)).flatten) ↔
      ∀ t ∈ s.tables, t.Consistent := by
    rw [passes_mapM_iff]
    exact forall_congr' fun t => forall_congr' fun _ => passes_checkTable_iff
  rw [← merges, ← tables]
  unfold checkSheet
  cases checkRows s.name size 0 s.rows with
  | error f => exact ⟨fun h => absurd h (not_passes_error f), fun h => absurd h.1 (not_passes_error f)⟩
  | ok rows =>
      refine Iff.trans ?_ passes_between_iff
      cases (s.root.descendants [Vocabulary.mergeCells, Vocabulary.mergeCell]).mapM
        fun m => checkRange s.name "Merged cell: " (m.attributeOr "ref" "") with
      | error f => exact Iff.rfl
      | ok merges =>
          cases s.tables.mapM (checkTable s.name) with
          | error f => exact Iff.rfl
          | ok tables => exact Iff.rfl

/-- The check of a sheet whose rows and cells carry references finds no errors exactly when the sheet is
consistent. -/
theorem passes_checkSheet_iff {size : Nat} {s : Sheet}
    (hrows : ∀ row ∈ s.rows, (∃ number, Expand.ownNumber row = .ok number) ∧
      ∀ cell ∈ cellsOf row, ∃ r, CellRef.parse (cell.attributeOr "r" "") = .ok r) :
    Passes (checkSheet size s) ↔ Consistent size s := by
  rw [passes_checkSheet_parts, passes_checkRows_iff s.name size hrows]
  exact ⟨fun ⟨⟨rows, places⟩, merges, tables⟩ => ⟨rows, places, merges, tables⟩,
    fun h => ⟨⟨h.rows, h.places⟩, h.merges, h.tables⟩⟩

theorem Consistent.passes {size : Nat} {s : Sheet} (h : Consistent size s) : Passes (checkSheet size s) :=
  (passes_checkSheet_iff h.rows.references).mpr h

/-! ### A growing pool -/

theorem PlaceExists.mono {m n : Nat} {cell : Element} (h : PlaceExists m cell) (hle : m ≤ n) :
    PlaceExists n cell := by
  intro ht
  obtain ⟨digits, i, hi, hlt⟩ := h ht
  exact ⟨digits, i, hi, by omega⟩

section
variable {sheet : String} {m n : Nat} (hle : m ≤ n)
include hle

theorem checkPlace_mono {cell : Element} (h : Passes (checkPlace sheet m cell)) :
    checkPlace sheet n cell = checkPlace sheet m cell := by
  have nothing {size : Nat} (h : PlaceExists size cell) : checkPlace sheet size cell = .ok [] := by
    unfold checkPlace
    split
    · next ht =>
      obtain ⟨digits, i, hi, hlt⟩ := h ht
      simp only [digits, if_true, hi]
      show (if decide (i < size) = true then _ else _) = _
      rw [if_pos (decide_eq_true hlt)]
      rfl
    · rfl
  have exists_m := (passes_checkPlace_iff sheet m).mp h
  rw [nothing exists_m, nothing (exists_m.mono hle)]

/-- A cell without errors is checked the same way by a larger pool. -/
theorem checkCell_mono {row last next : Int} {cell : Element} {issues : List Issue}
    (h : checkCell sheet m row last cell = .ok (issues, next)) (hi : Passes (.ok issues)) :
    checkCell sheet n row last cell = .ok (issues, next) := by
  by_cases own : cell.attributeOr "r" "" = ""
  · rw [checkCell_of_bare sheet _ row last own] at h ⊢
    obtain ⟨place, hplace, h⟩ := bind_eq_ok_iff.mp h
    rw [← (Prod.mk.inj (Except.ok.inj h)).1] at hi
    rw [checkPlace_mono hle (hplace ▸ hi), hplace]
    exact h
  · cases hr : CellRef.parse (cell.attributeOr "r" "") with
    | error f =>
        have unread : ∃ outcome, ∀ size, checkCell sheet size row last cell = outcome := by
          rcases orIssue_error (α := CellRef) f (problem sheet .range) with ⟨text, ht⟩ | ⟨e, he⟩
          · refine ⟨.ok ([problem sheet .range text], last), fun size => ?_⟩
            unfold checkCell
            simp only [own, if_false, hr, ht]
            rfl
          · refine ⟨.error e, fun size => ?_⟩
            unfold checkCell
            simp only [own, if_false, hr, he]
            rfl
        obtain ⟨outcome, same⟩ := unread
        rw [same] at h ⊢
        exact h
    | ok r =>
        obtain ⟨c, -, -, hc, -⟩ := (CellRef.valid_of_parse hr).columnNumber
        obtain ⟨inRow, inOrder, placed⟩ := checkCell_eq sheet row last hr hc
        rw [placed] at h ⊢
        obtain ⟨place, hplace, h⟩ := bind_eq_ok_iff.mp h
        rw [← (Prod.mk.inj (Except.ok.inj h)).1, passes_append_iff] at hi
        rw [checkPlace_mono hle (hplace ▸ hi.2), hplace]
        exact h

theorem checkCells_mono {row : Int} : ∀ {cells : List Element} {last : Int},
    Passes (checkCells sheet m row last cells) → Passes (checkCells sheet n row last cells)
  | [], _, h => h
  | cell :: cells, last, ⟨issues, h, hi⟩ => by
      obtain ⟨⟨own, next⟩, hown, h⟩ := bind_eq_ok_iff.mp h
      obtain ⟨rest, hrest, h⟩ := bind_eq_ok_iff.mp h
      rw [← Except.ok.inj h] at hi
      obtain ⟨first, others⟩ := passes_append_iff.mp (passes_ok_iff.mpr hi)
      have more := checkCells_mono (hrest ▸ others)
      rw [checkCells, checkCell_mono hle hown first]
      exact passes_bind_iff (x := .ok own).mpr ⟨first, more⟩

theorem checkRows_mono : ∀ {rows : List Element} {last : Int},
    Passes (checkRows sheet m last rows) → Passes (checkRows sheet n last rows)
  | [], _, h => h
  | row :: rows, last, h => by
      rw [checkRows] at h ⊢
      cases hr : rowNumber last row with
      | error f =>
          rw [hr] at h
          exact absurd h (not_passes_error f)
      | ok number =>
          rw [hr] at h
          obtain ⟨order, cells, rest⟩ := passes_between_iff.mp h
          exact passes_between_iff.mpr ⟨order, checkCells_mono hle cells, checkRows_mono rest⟩

/-- A sheet that passes also passes when the pool has grown. -/
theorem passes_checkSheet_mono {s : Sheet} (h : Passes (checkSheet m s)) : Passes (checkSheet n s) := by
  rw [passes_checkSheet_parts] at h ⊢
  exact ⟨checkRows_mono hle h.1, h.2⟩

end

/-! ### The report -/

/-- A report is without errors when all opened sheets pass. -/
theorem exists_report_iff {w : Workbook} :
    (∃ r, report w = .ok r ∧ r.hasErrors = false) ↔ ∀ s ∈ w.opened, Passes (checkSheet w.pool.size s) := by
  rw [← passes_mapM_iff]
  have clean (issues : List Issue) :
      (issues.any fun i => i.severity = .error) = false ↔ ∀ i ∈ issues, i.severity ≠ .error := by
    simp
  unfold report
  cases w.opened.mapM (checkSheet w.pool.size) with
  | error f =>
      refine ⟨fun ⟨r, h, _⟩ => ?_, fun h => absurd h (not_passes_error f)⟩
      cases h
  | ok issues =>
      constructor
      · rintro ⟨r, h, hr⟩
        rw [← Except.ok.inj h] at hr
        exact passes_ok_iff.mpr ((clean issues.flatten).mp hr)
      · exact fun h => ⟨_, rfl, (clean issues.flatten).mpr (passes_ok_iff.mp h)⟩

end Check
end Gridfill

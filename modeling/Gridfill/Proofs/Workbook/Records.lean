import Gridfill.Proofs.Sheet.Coverage
import Gridfill.Proofs.Workbook.Filled

/-!
# New rows after a substitution

When a substitution has gone through and no record of a row has a sequence as its value, the row is followed by as
many new rows as its longest list of records needs. Each of them has the attributes of the row and shows its record,
below the cells that show the first one (`records_after_substitute`). A table that covers a cell with records when it
is filled covers the cells of all its records, as long as no later row is put above the row.
-/

namespace Gridfill

open Markup (Element)
open CellRef (numbered)

namespace Expand

/-! ### Rows of records -/

section
variable {data : Bindings} (hmarks : data.Unmarked) {pool : Pool} {shift : Nat} {columns : List Nat}
  {cells : List Element} {d : Down} (hd : d ∈ downs data pool shift columns cells)
include hmarks hd

omit hmarks in
theorem supplies_of_mem_downs : ∀ item ∈ d.items, data.Supplies item := by
  obtain ⟨-, items⟩ := exists_of_mem_downs hd
  obtain ⟨-, p, -, -, -, layout⟩ := downOf?_eq_some items
  exact Placeholder.supplies_of_layout? layout

theorem unmarked_of_mem_headSpots {spot : Spot} (hspot : spot ∈ d.headSpots) : spot.value.Unmarked := by
  have hv := value_of_mem_spotsFrom hspot
  have all := supplies_of_mem_downs hd
  unfold Down.heads at hv
  cases hr : d.items with
  | nil =>
      rw [hr] at hv
      rw [List.mem_singleton.mp hv]
      exact Value.unmarked_null
  | cons item items =>
      rw [hr] at hv all
      exact hmarks _ ((all item List.mem_cons_self).of_mem_sideBySide spot.value hv)

theorem unmarked_of_spotAt {i : Nat} {spot : Spot} (hspot : d.spotAt i = some spot) : spot.value.Unmarked := by
  obtain ⟨item, hi, rfl⟩ := Option.map_eq_some_iff.mp hspot
  exact hmarks _ (supplies_of_mem_downs hd item (List.mem_of_getElem? hi))

end

/-- A cell of a row shows a spot: it stands there, in the style of the cell of the spot, and shows the value. -/
structure Spot.ShownBy (pool : Pool) (number : Int) (spot : Spot) (e : Element) : Prop where
  style : SameStyle e spot.cell
  ref : e.attribute? "r" = some (numbered spot.column number).text
  shows : Cell.Shows pool e spot.value

theorem Spot.ShownBy.movedTo {pool : Pool} {number : Int} {spot : Spot} {e : Element} (h : spot.ShownBy pool number e)
    (root : Element) : spot.ShownBy (pool.movedTo root) number e :=
  { h with shows := (Cell.shows_movedTo root).mpr h.shows }

/-- The cells that take spots show them, when the values have no marks and the places of the pool can be written. -/
theorem shown_of_taken {pool : Pool} {number : Int} (writable : pool.size < Text.integerBound) {spots : List Spot}
    {cells : List Element} (unmarked : ∀ spot ∈ spots, spot.value.Unmarked)
    (h : List.Forall₂ (Spot.TakenBy pool number) spots cells) :
    List.Forall₂ (Spot.ShownBy pool number) spots cells :=
  ((List.forall₂_and_left spots cells).mpr ⟨unmarked, h⟩).imp fun _ _ ⟨hv, taken⟩ =>
    ⟨taken.style, taken.ref, taken.lasts hv writable⟩

/-- A row is the new row of the record `i` of cells with records, none of which is a sequence: it carries its number
and the attributes of the row, and has one cell for each of the cells that has the record, in its column. -/
structure RecordRow (pool : Pool) (row : Element) (number : Int) (ds : List Down) (i : Nat) (e : Element) : Prop where
  tag : e.tag = row.tag
  ref : e.attribute? "r" = some (toString (number + i))
  attributes : ∀ tag : Markup.Tag, tag ≠ ⟨none, "r"⟩ → e.get? tag = row.get? tag
  cells : List.Forall₂ (Spot.ShownBy pool (number + i)) (ds.filterMap (·.spotAt i)) (cellsOf e)

theorem RecordRow.movedTo {pool : Pool} {row e : Element} {number : Int} {ds : List Down} {i : Nat}
    (h : RecordRow pool row number ds i e) (root : Element) : RecordRow (pool.movedTo root) row number ds i e :=
  { h with cells := h.cells.imp fun _ _ shown => shown.movedTo root }

theorem HoldsRecord.recordRow {pool : Pool} {row e : Element} {number : Int} {ds : List Down} {i : Nat}
    (h : HoldsRecord pool row number ds i e) (scalar : ∀ d ∈ ds, d.Scalar)
    (unmarked : ∀ d ∈ ds, ∀ spot, d.spotAt i = some spot → spot.value.Unmarked)
    (writable : pool.size < Text.integerBound) : RecordRow pool row number ds i e := by
  obtain ⟨tag, ref, attributes, cells⟩ := h
  obtain ⟨spots, inserted⟩ := recordSpots_of_scalar (i := i) scalar
  rw [spots] at cells
  refine ⟨tag, ref, fun t ht => attributes t ht (Or.inl inserted), shown_of_taken writable ?_ cells⟩
  intro spot hspot
  obtain ⟨d, hd, hs⟩ := List.mem_filterMap.mp hspot
  exact unmarked d hd spot hs

end Expand

/-! ### Two small sheets -/

namespace Small

open Expand (plainElement plainCell)

/-- A row with two lists of records. -/
def recordRow : Element :=
  plainElement "row" [("r", "1"), ("ht", "20")]
    [plainCell [("r", "A1"), ("t", "s")] "0", plainCell [("r", "C1"), ("t", "s"), ("s", "2")] "1"]

/-- A sheet with two lists of records in its first row. -/
def recordSheet : Sheet where
  info := ⟨1, "Data", "sheet1.xml", none⟩
  root := plainElement "worksheet" []
    [plainElement "sheetData" []
      [recordRow,
       plainElement "row" [("r", "2")] [plainCell [("r", "A2")] "8"]]]
  tables := []

/-- A sheet whose second row stands above its first. The table covers a cell with records. -/
def unsortedSheet : Sheet where
  info := ⟨1, "Data", "sheet1.xml", none⟩
  root := plainElement "worksheet" []
    [plainElement "sheetData" []
      [plainElement "row" [("r", "5")] [plainCell [("r", "A5"), ("t", "s")] "1"],
       plainElement "row" [("r", "2")] [plainCell [("r", "B2"), ("t", "s")] "0"]]]
  tables := [⟨"table1.xml", plainElement "table" [("ref", "A5:A5")] []⟩]

def recordTexts : List String := ["${table:xs}", "${table:rs.n}"]

/-- Values for the placeholders of the two sheets: the first list has a blank among its records, and a record of the
second, which is shorter, has no such part. -/
def recordData : Bindings := .ofValues
  [("xs", .list [.int 10, .null, .int 30]), ("rs", .list [.mapping [("n", .int 1)], .mapping []])]

theorem unmarked_recordData : recordData.Unmarked := Bindings.unmarked_ofValues (by decide +kernel)

def recordBook : Workbook := openedBook recordSheet recordTexts

def unsortedBook : Workbook := openedBook unsortedSheet recordTexts

end Small

namespace Workbook

open Expand (RecordRow Spot Down ScalarRecords downs downOf? effectiveColumns insertedBy newRowCount ownNumber rowPlace
  tablesAt widths)

/-- A row none of whose records has a sequence as its value: its cells with records show the first ones, the rows that
its longest list of records needs follow directly, each with its record, and then the next row. A table that covers a
cell with records when the pass fills it covers the cells of its records afterwards, unless a later row of the sheet
was put above the row. -/
theorem records_after_substitute {w w' ready : Workbook} {key : SheetKey} {data : Bindings} {stats : Expand.Stats}
    {sheet : Sheet} (hpool : w.pool.Built) (hopen : w.openSheet key = .ok (sheet, ready))
    (hplaces : ∀ row ∈ sheet.rows, ∀ cell ∈ cellsOf row, ∀ k, Cell.place? cell = some k → k < w.pool.size)
    (hmarks : data.Unmarked) (hsub : w.substitute key data = (w', .ok stats)) {k : Nat} {row : Element}
    (hrow : sheet.rows[k]? = some row)
    (scalar : ∀ cell ∈ cellsOf row, ScalarRecords data (Cell.shownText w.pool cell)) :
    ∃ filled sheet' columns out number, FilledBy w key data stats sheet w' filled sheet' ∧
      effectiveColumns 0 (cellsOf row) = .ok columns ∧
      let ds := downs data w.pool 0 columns (cellsOf row)
      let place := rowPlace sheet w.document w.pool data
      (filled.sheet.rows[place k]? = some out ∧ ownNumber out = .ok number ∧
        ∃ heads, heads.Sublist (cellsOf out) ∧
          List.Forall₂ (Spot.ShownBy w'.pool number) (ds.flatMap Down.headSpots) heads) ∧
      (place (k + 1) = place k + (newRowCount ds + 1) ∧ filled.sheet.rows.length = place sheet.rows.length ∧
        ∀ i, 1 ≤ i → i ≤ newRowCount ds →
          ∃ e, filled.sheet.rows[place k + i]? = some e ∧ RecordRow w'.pool row number ds i e) ∧
      ((∀ e ∈ filled.sheet.rows.drop (place (k + 1)), ∀ n, ownNumber e = .ok n → number ≤ n) →
        ∀ j cell items c, (cellsOf row)[j]? = some cell → columns[j]? = some c →
          downOf? data (Cell.shownText w.pool cell) = some items →
          let column := c + insertedBy ((widths data w.pool (cellsOf row)).take j)
          ⟨cell, column, items⟩ ∈ ds ∧ ∃ ts, tablesAt sheet w.document w.pool data k j = .ok ts ∧
            List.Forall₂ (fun t t' : Table =>
              t.Covers column number → ∀ i < items.length, t'.Covers column (number + i))
              ts filled.sheet.tables) := by
  obtain ⟨filled, sheet', by_⟩ := exists_filledBy hpool hopen hsub
  have sound := Pool.sound_of_built hpool
  obtain ⟨scope, before, number, walk, out, next, final, reached⟩ := Expand.exists_rowReached sound by_.run hrow
  have settled (cell : Element) (hc : cell ∈ cellsOf row) : Expand.Settled data w.pool cell :=
    Expand.settled_of_plain hmarks.plain sound (hplaces row (List.mem_of_getElem? hrow) cell hc)
  obtain ⟨columns, hcolumns, -, rows, heads, sub, taken⟩ := reached.recorded settled
  obtain ⟨e, he, hm⟩ := reached.row_at (i := 0) rfl
  obtain ⟨heads', sub', taken'⟩ := reached.heads_at hm sub taken
  refine ⟨filled, sheet', columns, e, number, by_, hcolumns, ⟨he, ?_, heads', sub', ?_⟩, ⟨?_, ?_, ?_⟩, ?_⟩
  · rw [ownNumber, Markup.attributeOr_eq_of_meaning hm]
    exact reached.step.out_number
  · rw [by_.pool]
    refine (Expand.shown_of_taken by_.writable (fun spot hspot => ?_) taken').imp fun _ _ shown => shown.movedTo _
    obtain ⟨d, hd, hs⟩ := List.mem_flatMap.mp hspot
    exact Expand.unmarked_of_mem_headSpots hmarks hd hs
  · rw [reached.place_succ, rows.length]
  · obtain ⟨length, all⟩ := Expand.rows_of_run sound by_.run
    have := congrArg List.length all
    rw [List.length_map, List.length_map] at this
    rw [this, rowPlace, ← length, List.take_length]
  · intro i hi hle
    obtain ⟨e, he, holds⟩ := reached.newRow_at rows hi hle
    have record := holds.recordRow (Expand.scalar_of_mem_downs scalar)
      (fun d hd spot hs => Expand.unmarked_of_spotAt hmarks hd hs) by_.writable
    exact ⟨e, he, by_.pool ▸ record.movedTo _⟩
  · intro below j cell items c hj hc hd
    have later : ∀ e ∈ (Expand.rowBlocks sheet.name data scope (sheet.rows.drop (k + 1)) next).flatten,
        ∀ n, ownNumber e = .ok n → number ≤ n := by
      intro e he n hn
      have mem := List.mem_map_of_mem (f := Element.meaning) he
      rw [← reached.rows_after] at mem
      obtain ⟨e', he', same⟩ := List.mem_map.mp mem
      exact below e' he' n (by rw [ownNumber, Markup.attributeOr_eq_of_meaning same]; exact hn)
    refine ⟨?_, reached.covers hrow settled scalar later hj hd hcolumns hc⟩
    have mem := Expand.mem_downs hd 0 hj hc
    rwa [Nat.zero_add] at mem

/-- The first row of the small sheet is followed by two new rows, the second of which has only the record of the longer
list. -/
theorem records_after_substitute_two : ∃ w' stats filled sheet' e₁ e₂, ∃ number : Int,
    Small.recordBook.substitute (.name "Data") Small.recordData = (w', .ok stats) ∧
      FilledBy Small.recordBook (.name "Data") Small.recordData stats Small.recordSheet w' filled sheet' ∧
      filled.sheet.rows[1]? = some e₁ ∧ filled.sheet.rows[2]? = some e₂ ∧
      (cellsOf e₁).length = 2 ∧ (cellsOf e₂).length = 1 ∧ e₂.attribute? "r" = some (toString (number + 2)) := by
  have goes : (Small.recordBook.substitute (.name "Data") Small.recordData).2.toBool = true := by decide +kernel
  obtain ⟨w', stats, hsub⟩ := Small.exists_substitute_openedBook goes
  have hopen := Small.openSheet_openedBook Small.recordSheet Small.recordTexts
  have hrow : Small.recordSheet.rows[0]? = some Small.recordRow := by rfl
  obtain ⟨filled, sheet', columns, out, number, by_, hcolumns, -, ⟨-, -, rows⟩, -⟩ := records_after_substitute
    (.ofTexts _) hopen (Small.places_of_all (by decide +kernel)) Small.unmarked_recordData hsub hrow (by decide +kernel)
  obtain rfl : [1, 3] = columns := by
    have : (effectiveColumns 0 (cellsOf Small.recordRow)).toOption = some [1, 3] := by decide +kernel
    exact Except.ok.inj ((toOption_eq_some_iff.mp this).symm.trans hcolumns)
  obtain ⟨e₁, h₁, record₁⟩ := rows 1 (by decide) (by decide +kernel)
  obtain ⟨e₂, h₂, record₂⟩ := rows 2 (by decide) (by decide +kernel)
  refine ⟨w', stats, filled, sheet', e₁, e₂, number, hsub, by_, h₁, h₂, ?_, ?_, record₂.ref⟩
  · rw [← record₁.cells.length_eq]
    decide +kernel
  · rw [← record₂.cells.length_eq]
    decide +kernel

/-- A later row that was put above the row takes the table away from the cell of the second record. -/
theorem record_leaves_table :
    (∃ w' stats, Small.unsortedBook.substitute (.name "Data") Small.recordData = (w', .ok stats)) ∧
      (∀ row ∈ Small.unsortedSheet.rows, ∀ cell ∈ cellsOf row, ∀ k, Cell.place? cell = some k →
        k < Small.unsortedBook.pool.size) ∧
      Small.recordData.Unmarked ∧
      (∀ row ∈ Small.unsortedSheet.rows, ∀ cell ∈ cellsOf row,
        ScalarRecords Small.recordData (Cell.shownText Small.unsortedBook.pool cell)) ∧
      ∃ filled ts t e t', Expand.run Small.unsortedSheet Small.unsortedBook.document Small.unsortedBook.pool
          Small.recordData = .ok filled ∧
        tablesAt Small.unsortedSheet Small.unsortedBook.document Small.unsortedBook.pool Small.recordData 0 0 =
          .ok ts ∧
        ts[0]? = some t ∧ t.Covers 1 5 ∧
        filled.sheet.rows[1]? = some e ∧ (cellsOf e).map (·.attribute? "r") = [some "A6"] ∧
        filled.sheet.tables[0]? = some t' ∧ ¬ t'.Covers 1 6 := by
  have goes : (Small.unsortedBook.substitute (.name "Data") Small.recordData).2.toBool = true := by decide +kernel
  have start : (tablesAt Small.unsortedSheet Small.unsortedBook.document Small.unsortedBook.pool Small.recordData 0
      0).toOption.any (fun ts => ts[0]?.any fun t => t.Covers 1 5) = true := by decide +kernel
  have done : (Expand.run Small.unsortedSheet Small.unsortedBook.document Small.unsortedBook.pool
      Small.recordData).toOption.any (fun filled =>
        (filled.sheet.rows[1]?.any fun e => (cellsOf e).map (·.attribute? "r") = [some "A6"]) &&
          filled.sheet.tables[0]?.any fun t => ¬ t.Covers 1 6) = true := by decide +kernel
  have spots : (Small.unsortedSheet.rows.all fun row => (cellsOf row).all fun cell =>
      ScalarRecords Small.recordData (Cell.shownText Small.unsortedBook.pool cell)) = true := by decide +kernel
  obtain ⟨ts, hts, start⟩ := (Option.any_eq_true _ _).mp start
  obtain ⟨t, ht, covers⟩ := (Option.any_eq_true _ _).mp start
  obtain ⟨filled, hrun, done⟩ := (Option.any_eq_true _ _).mp done
  obtain ⟨there, table⟩ := Bool.and_eq_true_iff.mp done
  obtain ⟨e, he, there⟩ := (Option.any_eq_true _ _).mp there
  obtain ⟨t', ht', uncovered⟩ := (Option.any_eq_true _ _).mp table
  refine ⟨Small.exists_substitute_openedBook goes, Small.places_of_all (by decide +kernel), Small.unmarked_recordData, ?_,
    filled, ts, t, e, t', toOption_eq_some_iff.mp hrun, toOption_eq_some_iff.mp hts, ht, of_decide_eq_true covers, he,
    of_decide_eq_true there, ht', of_decide_eq_true uncovered⟩
  intro row hrow cell hcell
  exact of_decide_eq_true (List.all_eq_true.mp (List.all_eq_true.mp spots row hrow) cell hcell)

end Workbook
end Gridfill

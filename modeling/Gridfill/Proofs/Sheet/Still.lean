import Gridfill.Proofs.Markup.InPlace
import Gridfill.Proofs.Sheet.HeaderCells
import Gridfill.Proofs.Sheet.Tokens

/-!
# Passes that fill nothing

In a sheet in canonical form (`Sheet.Canonical`) a pass finds every row, cell and column where it would put it. When no
placeholder resolves, it takes them out and puts them back, and counts the placeholders (`fillTables_of_stays`,
`run_of_still`). Put back, everything means what it meant (`meaning_rowsBack`, `meaning_columnsBack`), and is as it was
if it is at home (`rowsBack_eq_self`, `columnsBack_eq_self`).
-/

namespace Gridfill

open Markup (Element Node Scope)
open CellRef (numbered)

/-! ### Placeholders without a value -/

/-- The placeholder has no value: its name is not bound, or bound to a value that is no sequence and does not have what
the placeholder asks for. -/
def Placeholder.Unresolved (data : Bindings) (p : Placeholder) : Prop :=
  ∀ v, data.lookup p.name = some v → v.items? = none ∧ data.project v p.key = none

theorem Placeholder.Unresolved.resolves {data : Bindings} {p : Placeholder} (h : p.Unresolved data) :
    p.resolves data = false := by
  have layout : p.layout? data = none := by
    unfold layout?
    split
    · exact Option.map_eq_none_iff.mpr (Option.bind_eq_none_iff.mpr fun v hv => (h v hv).1)
    · rfl
  have found : data.find? p.name p.key = none := Option.bind_eq_none_iff.mpr fun v hv => (h v hv).2
  rw [Placeholder.resolves, layout, found]
  rfl

theorem textResolves_of_unresolved {data : Bindings} {text : Option String}
    (h : ∀ s, text = some s → ∀ p ∈ Placeholder.scan s, p.Unresolved data) : textResolves data text = false := by
  cases text with
  | none => rfl
  | some s => exact List.any_eq_false.mpr fun p hp => by rw [(h s rfl p hp).resolves]; exact Bool.false_ne_true

/-- Nothing is found for the placeholders of a text that does not resolve. -/
theorem find?_of_still {data : Bindings} {s : String} (h : textResolves data (some s) = false) {p : Placeholder}
    (hp : p ∈ Placeholder.scan s) : p.layout? data = none ∧ data.find? p.name p.key = none := by
  have unresolved : p.resolves data = false := by
    rw [← Bool.not_eq_true]
    exact fun resolves => Bool.false_ne_true (h.symm.trans (textResolves_of_mem hp resolves))
  obtain ⟨layout, found⟩ := Bool.or_eq_false_iff.mp unresolved
  exact ⟨Option.isSome_eq_false_iff.mp layout |> Option.isNone_iff_eq_none.mp,
    Option.isSome_eq_false_iff.mp found |> Option.isNone_iff_eq_none.mp⟩

/-! ### Canonical sheets -/

/-- A row has its number written out, holds nothing but cells, and has each of them in a column. -/
structure RowInPlace (number : Int) (row : Element) : Prop where
  readable : number.natAbs < Text.integerBound
  written : row.Writes "r" (toString number)
  content : row.content = (cellsOf row).map Node.element
  cells : ∀ cell ∈ cellsOf row, ∃ c, (numbered c number).Valid ∧ cell.Writes "r" (numbered c number).text

/-- A table with a list of columns has a range, and its list holds nothing but the columns, with their places written
out. -/
structure Table.InPlace (t : Table) (list : Element) : Prop where
  range : ∃ range, t.range = .ok range
  content : list.content = (list.childrenWith Vocabulary.tableColumn).map Node.element
  columns : ∀ (i : Nat) (column : Element), (list.childrenWith Vocabulary.tableColumn)[i]? = some column →
    column.Writes "id" (toString (i + 1))

/-- A sheet that is written the way it is put together. -/
structure Sheet.Canonical (s : Sheet) : Prop where
  rows : ∀ row ∈ s.rows, ∃ number, RowInPlace number row
  content : ∀ sheetData, s.data? = some sheetData → sheetData.content = s.rows.map Node.element
  tables : ∀ t ∈ s.tables, ∀ list, t.columns? = some list → t.InPlace list

/-! ### Rows and columns put back -/

/-- The row with its cells taken out and put back. -/
def rowBack (scope : Scope) (row : Element) : Element :=
  row.replaceContent scope ((cellsOf row).map Node.element)

/-- The document of the sheet with its rows and their cells taken out and put back. -/
def Sheet.rowsBack (s : Sheet) : Element :=
  match s.data? with
  | none => s.root
  | some sheetData =>
    s.root.changeChild Vocabulary.sheetData fun _ =>
      sheetData.replaceContent [s.root.frame]
        ((s.rows.map (rowBack [sheetData.frame, s.root.frame])).map Node.element)

/-- The table with its columns taken out and put back. -/
def Table.columnsBack (t : Table) : Table :=
  match t.columns? with
  | none => t
  | some list => Header.putColumns t (Header.listOf t list (list.childrenWith Vocabulary.tableColumn))

/-- The sheet with its rows, their cells and the columns of its tables taken out and put back. -/
def Sheet.back (s : Sheet) : Sheet := ⟨s.info, s.rowsBack, s.tables.map Table.columnsBack⟩

/-- Are the rows, their cells and the columns of the tables at home? -/
def Sheet.atHome (s : Sheet) : Bool :=
  (s.data?.all fun sheetData => s.rows.all fun row =>
    row.atHome [sheetData.frame, s.root.frame] &&
      (cellsOf row).all fun cell => cell.atHome [row.frame, sheetData.frame, s.root.frame]) &&
  s.tables.all fun t => t.columns?.all fun list =>
    (list.childrenWith Vocabulary.tableColumn).all fun column => column.atHome [list.frame, t.root.frame]

section
variable {s : Sheet} (canonical : s.Canonical)
include canonical

theorem meaning_rowsBack : s.rowsBack.meaning = s.root.meaning := by
  unfold Sheet.rowsBack
  split
  · rfl
  · next sheetData hdata =>
    refine Element.meaning_changeChild hdata (Element.meaning_replaceContent ?_)
    rw [canonical.content sheetData hdata, List.map_map, List.map_map, List.map_map]
    refine List.map_congr_left fun row hrow => ?_
    obtain ⟨number, place⟩ := canonical.rows row hrow
    have back : (rowBack [sheetData.frame, s.root.frame] row).meaning = row.meaning :=
      Element.meaning_replaceContent (congrArg (List.map Node.meaning) place.content)
    simp only [Function.comp_apply, Node.meaning, back]

theorem meaning_columnsBack {t : Table} (ht : t ∈ s.tables) :
    t.columnsBack.path = t.path ∧ t.columnsBack.root.meaning = t.root.meaning := by
  unfold Table.columnsBack
  split
  · exact ⟨rfl, rfl⟩
  · next list hlist =>
    have place := canonical.tables t ht list hlist
    refine ⟨rfl, Element.meaning_changeChild hlist (Element.meaning_replaceContent ?_)⟩
    exact congrArg (List.map Node.meaning) place.content

/-- In a sheet whose rows, cells and columns are at home everything is as it was. -/
theorem back_eq_self (home : s.atHome = true) : s.back = s := by
  obtain ⟨rows, columns⟩ := Bool.and_eq_true_iff.mp home
  have root : s.rowsBack = s.root := by
    unfold Sheet.rowsBack
    split
    · rfl
    · next sheetData hdata =>
      rw [hdata, Option.all_some, List.all_eq_true] at rows
      have same : s.rows.map (rowBack [sheetData.frame, s.root.frame]) = s.rows := by
        rw [List.map_congr_left (g := id) fun row hrow => ?_, List.map_id]
        obtain ⟨number, place⟩ := canonical.rows row hrow
        obtain ⟨-, cells⟩ := Bool.and_eq_true_iff.mp (rows row hrow)
        exact Element.replaceContent_eq_self place.content fun cell hc => List.all_eq_true.mp cells cell hc
      rw [same, Element.replaceContent_eq_self (canonical.content sheetData hdata) fun row hrow =>
        (Bool.and_eq_true_iff.mp (rows row hrow)).1]
      exact Element.changeChild_eq_self hdata
  have tables : s.tables.map Table.columnsBack = s.tables := by
    rw [List.map_congr_left (g := id) fun t ht => ?_, List.map_id]
    unfold Table.columnsBack
    split
    · rfl
    · next list hlist =>
      have home := List.all_eq_true.mp columns t ht
      rw [hlist, Option.all_some, List.all_eq_true] at home
      have place := canonical.tables t ht list hlist
      rw [Header.listOf, Element.replaceContent_eq_self place.content home, Header.putColumns,
        Element.changeChild_eq_self hlist]
      rfl
  rw [Sheet.back, root, tables]

end

/-! ### Column names -/

namespace Header

variable {data : Bindings}

theorem fillName_of_still : ∀ {ps : List Placeholder} {name : String} {column : Element},
    (∀ p ∈ ps, data.find? p.name p.key = none) → fillName data ps name column = .ok column
  | [], _, _, _ => rfl
  | p :: ps, name, column, h => by
      rw [fillName, h p List.mem_cons_self]
      exact fillName_of_still fun q hq => h q (List.mem_cons_of_mem p hq)

/-- Filling a column leaves its name: it asks for a sequence without elements, or none of its placeholders has a value. -/
def Stays (data : Bindings) (name : String) : Prop :=
  match across? data name with
  | some items => items = []
  | none => ∀ p ∈ Placeholder.scan name, data.find? p.name p.key = none

theorem stays_of_still {name : String} (h : textResolves data (some name) = false) : Stays data name := by
  have found : ∀ p ∈ Placeholder.scan name, data.find? p.name p.key = none := fun p hp => (find?_of_still h hp).2
  have none : across? data name = none := by
    unfold across?
    split
    · next p scan =>
      have layout := (find?_of_still h (p := p) (by rw [scan]; exact List.mem_singleton_self p)).1
      unfold Placeholder.layout? at layout
      split
      · next both =>
        obtain ⟨whole, normal⟩ := Bool.and_eq_true_iff.mp both
        rwa [whole, normal, Bool.or_true, Bool.true_and, if_pos rfl] at layout
      · rfl
    · rfl
  unfold Stays
  rw [none]
  exact found

theorem fillColumn_of_stays {column : Element} {place : Nat} (written : column.Writes "id" (toString place))
    (stays : Stays data (column.attributeOr "name" "")) : fillColumn data column place = .ok [column] := by
  have same : setPlace column place = column := Element.set_eq_self written
  unfold Stays at stays
  rcases fillColumn_cases data column place with ⟨items, across, spread⟩ | ⟨none, filled⟩
  · rw [across] at stays
    rw [spread, stays, same]
    rfl
  · rw [none] at stays
    rw [filled, same, fillName_of_still stays]
    rfl

theorem fillColumns_of_stays : ∀ {columns : List Element} {place : Nat},
    (∀ (i : Nat) (column : Element), columns[i]? = some column → column.Writes "id" (toString (place + i + 1))) →
    (∀ column ∈ columns, Stays data (column.attributeOr "name" "")) → fillColumns data place columns = .ok columns
  | [], _, _, _ => rfl
  | c :: cs, place, written, stays => by
      have first := fillColumn_of_stays (written 0 c rfl) (stays c List.mem_cons_self)
      have rest : fillColumns data (place + 1) cs = .ok cs :=
        fillColumns_of_stays
          (fun i column hi => by
            have := written (i + 1) column hi
            rwa [Nat.add_right_comm place 1 i, Nat.add_assoc place i 1])
          fun d hd => stays d (List.mem_cons_of_mem c hd)
      refine bind_eq_ok_iff.mpr ⟨[c], first, bind_eq_ok_iff.mpr ⟨cs, rest, rfl⟩⟩

theorem fillTable_of_stays {t : Table} (place : ∀ list, t.columns? = some list → t.InPlace list)
    (stays : ∀ name ∈ t.columnNames, Stays data name) :
    fillTable data t = .ok (t.columnsBack, 0) := by
  unfold fillTable Table.columnsBack
  cases hlist : t.columns? with
  | none => rfl
  | some list =>
    obtain ⟨⟨range, hrange⟩, -, written⟩ := place list hlist
    rw [Table.columnNames_of_columns? hlist] at stays
    have filled : fillColumns data 0 (list.childrenWith Vocabulary.tableColumn) =
        .ok (list.childrenWith Vocabulary.tableColumn) :=
      fillColumns_of_stays (fun i column hi => by simpa using written i column hi)
        fun column hc => stays _ (List.mem_map_of_mem hc)
    refine bind_eq_ok_iff.mpr ⟨range, hrange, bind_eq_ok_iff.mpr ⟨_, filled, ?_⟩⟩
    simp only [Nat.sub_self, if_true]
    rfl

theorem fillTables_of_stays : ∀ {ts : List Table}, (∀ t ∈ ts, ∀ list, t.columns? = some list → t.InPlace list) →
    (∀ t ∈ ts, ∀ name ∈ t.columnNames, Stays data name) → fillTables data ts = .ok (ts.map Table.columnsBack, 0)
  | [], _, _ => rfl
  | t :: ts, place, stays => by
      have first := fillTable_of_stays (place t List.mem_cons_self) (stays t List.mem_cons_self)
      have rest := fillTables_of_stays (fun u hu => place u (List.mem_cons_of_mem t hu))
        fun u hu => stays u (List.mem_cons_of_mem t hu)
      exact bind_eq_ok_iff.mpr ⟨_, first, bind_eq_ok_iff.mpr ⟨_, rest, rfl⟩⟩

end Header

/-! ### The pass -/

namespace Expand

/-- More placeholders left as they are. -/
def Stats.skip (s : Stats) (n : Nat) : Stats := { s with skipped := s.skipped + n }

/-- The work with more placeholders left as they are. -/
def Work.skip (work : Work) (n : Nat) : Work := { work with stats := work.stats.skip n }

theorem fillText_of_still {data : Bindings} : ∀ {ps : List Placeholder} {text : String} {changed : Bool} {work : Work},
    (∀ p ∈ ps, data.find? p.name p.key = none) →
      fillText data ps text changed work = .ok (text, changed, work.skip ps.length)
  | [], _, _, _, _ => rfl
  | p :: ps, text, changed, work, h => by
      rw [fillText, h p List.mem_cons_self]
      simp only
      rw [fillText_of_still fun q hq => h q (List.mem_cons_of_mem p hq), List.length_cons]
      simp only [Work.skip, Work.countSkipped, Stats.skip, Nat.add_assoc, Nat.add_comm 1]

/-- A cell whose text does not resolve stays, and its placeholders are counted. -/
theorem fillCell_of_still {site : Site} {cell : Element} {work : Work}
    (still : textResolves site.data (Cell.shownText work.pool cell) = false) :
    fillCell site cell work =
      .ok ⟨[cell], 0, work.skip (Placeholder.count (Cell.shownText work.pool cell))⟩ := by
  have parts {text : String} {ps : List Placeholder} (h : ∀ p ∈ ps, site.data.find? p.name p.key = none) :
      fillParts site cell text ps work = .ok ⟨[cell], 0, work.skip ps.length⟩ := by
    unfold fillParts
    rw [fillText_of_still h]
    rfl
  cases shown : Cell.shownText work.pool cell with
  | none =>
      unfold fillCell
      rw [shown]
      rfl
  | some text =>
      rw [shown] at still
      have found : ∀ p ∈ Placeholder.scan text, site.data.find? p.name p.key = none := fun p hp =>
        (find?_of_still still hp).2
      have count : Placeholder.count (some text) = (Placeholder.scan text).length := rfl
      rw [count]
      cases scan : Placeholder.scan text with
      | nil =>
          unfold fillCell
          simp only [shown, scan]
          rfl
      | cons p ps =>
          rw [scan] at found
          have layout := (find?_of_still still (p := p) (by rw [scan]; exact List.mem_cons_self)).1
          cases ps with
          | nil =>
              cases whole : p.whole with
              | true => exact fillCell_of_unresolved shown scan whole layout (found p List.mem_cons_self)
              | false =>
                  unfold fillCell
                  simp only [shown, scan, whole, Bool.false_eq_true, if_false]
                  rw [parts found]
          | cons q qs =>
              unfold fillCell
              simp only [shown, scan]
              rw [parts found]

theorem stepCell_of_still {site : Site} {walk : Walk} {cell : Element} {c : Nat} (inserted : walk.inserted = 0)
    (valid : (numbered c site.number).Valid) (written : cell.Writes "r" (numbered c site.number).text)
    (still : textResolves site.data (Cell.shownText walk.work.pool cell) = false) :
    stepCell site walk cell = .ok ⟨walk.cells ++ [cell], 0, c,
      walk.work.skip (Placeholder.count (Cell.shownText walk.work.pool cell))⟩ := by
  have parsed := CellRef.parse_numbered valid
  obtain ⟨n, positive, -, number, letters⟩ := valid.columnNumber
  obtain rfl : c = n := Reference.columnLetters_injective (String.ofList_injective letters)
  have column : (numbered c site.number).columnNumber = .ok c := number
  have named : (numbered c site.number).text ≠ "" := by
    intro empty
    have := congrArg String.toList empty
    rw [CellRef.toList_numbered] at this
    exact absurd (List.append_eq_nil_iff.mp this).1 (Reference.columnLetters_ne_nil (Nat.ne_of_gt positive))
  have ref : currentRef cell site.number walk = .ok (numbered c site.number).text := by
    unfold currentRef
    rw [written.attributeOr ""]
    simp only [inserted]
    rw [if_neg named]
    refine bind_eq_ok_iff.mpr ⟨_, parsed, bind_eq_ok_iff.mpr ⟨c, column, ?_⟩⟩
    have moved : (c : Int) + (0 : Nat) = c := Int.add_zero _
    rw [moved]
    refine bind_eq_ok_iff.mpr ⟨c, rfl, bind_eq_ok_iff.mpr ⟨_, Reference.columnName_ofNat positive, ?_⟩⟩
    exact CellRef.write_eq_ok_iff.mpr ⟨valid.row_lt, rfl⟩
  refine bind_eq_ok_iff.mpr ⟨_, ref, ?_⟩
  rw [Element.set_eq_self written]
  refine bind_eq_ok_iff.mpr ⟨_, parsed, bind_eq_ok_iff.mpr ⟨c, column, ?_⟩⟩
  refine bind_eq_ok_iff.mpr ⟨_, fillCell_of_still still, ?_⟩
  rw [inserted]
  rfl

/-- Along a row whose cells are in place and do not resolve every cell stays. -/
theorem walkCells_of_still {site : Site} : ∀ (cells : List Element) (walk : Walk), walk.inserted = 0 →
    (∀ cell ∈ cells, ∃ c, (numbered c site.number).Valid ∧ cell.Writes "r" (numbered c site.number).text) →
    (∀ cell ∈ cells, textResolves site.data (Cell.shownText walk.work.pool cell) = false) →
      ∃ last, walkCells site cells walk = .ok ⟨walk.cells ++ cells, 0, last,
        walk.work.skip ((cells.map (Cell.shownText walk.work.pool)).map Placeholder.count).sum⟩
  | [], walk, inserted, _, _ => by
      refine ⟨walk.lastColumn, ?_⟩
      rw [walkCells, List.append_nil, ← inserted]
      rfl
  | cell :: cells, walk, inserted, place, still => by
      obtain ⟨c, valid, written⟩ := place cell List.mem_cons_self
      have first := stepCell_of_still inserted valid written (still cell List.mem_cons_self)
      obtain ⟨last, rest⟩ := walkCells_of_still cells ⟨walk.cells ++ [cell], 0, c,
          walk.work.skip (Placeholder.count (Cell.shownText walk.work.pool cell))⟩ rfl
        (fun d hd => place d (List.mem_cons_of_mem cell hd)) fun d hd => still d (List.mem_cons_of_mem cell hd)
      refine ⟨last, bind_eq_ok_iff.mpr ⟨_, first, rest.trans ?_⟩⟩
      rw [List.append_assoc, List.singleton_append, List.map_cons, List.map_cons, List.sum_cons]
      simp only [Work.skip, Stats.skip, Nat.add_assoc]

section
variable {name : String} {data : Bindings} {scope : Scope}

theorem stepRow_of_still {pass : Pass} {row : Element} {number : Int} (rows : pass.stats.rowsInserted = 0)
    (place : RowInPlace number row)
    (still : ∀ cell ∈ cellsOf row, textResolves data (Cell.shownText pass.pool cell) = false) :
    stepRow name data scope pass row = .ok
      { pass with
        rows := pass.rows ++ [rowBack scope row]
        lastRow := number
        stats := pass.stats.skip (((cellsOf row).map (Cell.shownText pass.pool)).map Placeholder.count).sum } := by
  have written : writeInteger number = .ok (toString number) := writeInteger_eq_ok_iff.mpr ⟨place.readable, rfl⟩
  have own : currentNumber row pass = .ok number := by
    obtain ⟨c, cs, chars, -⟩ := CellRef.exists_toString_eq_cons number
    have named : toString number ≠ "" := by
      intro empty
      rw [empty] at chars
      cases chars
    unfold currentNumber
    rw [place.written.attributeOr "", rows]
    simp only
    rw [if_neg named]
    refine bind_eq_ok_iff.mpr ⟨number, parseInteger_of_write written, ?_⟩
    exact congrArg Except.ok (Int.add_zero number)
  have walk : ∃ last, walkCells (siteOf data scope row number) (cellsOf row) (walkStart pass) = _ :=
    walkCells_of_still (cellsOf row) (walkStart pass) rfl place.cells still
  obtain ⟨last, walk⟩ := walk
  refine bind_eq_ok_iff.mpr ⟨number, own, bind_eq_ok_iff.mpr ⟨_, written, ?_⟩⟩
  refine bind_eq_ok_iff.mpr ⟨_, walk, ?_⟩
  rw [Element.set_eq_self place.written]
  refine bind_eq_ok_iff.mpr ⟨_, widenRow_zero _, bind_eq_ok_iff.mpr ⟨pass.anchored, rfl, ?_⟩⟩
  have next : number + (([] : List Element).length : Int) = number := Int.add_zero number
  have widest : max pass.stats.columnsInserted 0 = pass.stats.columnsInserted := Nat.max_zero _
  simp only [walkStart, Work.skip, Stats.skip, List.map_nil, List.nil_append, next, widest]
  rfl

/-- Down rows that are in place and whose cells do not resolve every row is put back. -/
theorem walkRows_of_still : ∀ (rows : List Element) (pass : Pass), pass.stats.rowsInserted = 0 →
    (∀ row ∈ rows, ∃ number, RowInPlace number row) →
    (∀ cell ∈ rows.flatMap cellsOf, textResolves data (Cell.shownText pass.pool cell) = false) →
      ∃ last, walkRows name data scope rows pass = .ok
        { pass with
          rows := pass.rows ++ rows.map (rowBack scope)
          lastRow := last
          stats := pass.stats.skip
            (((rows.flatMap cellsOf).map (Cell.shownText pass.pool)).map Placeholder.count).sum }
  | [], pass, _, _, _ => ⟨pass.lastRow, by rw [walkRows, List.map_nil, List.append_nil]; rfl⟩
  | row :: rows, pass, noRows, place, still => by
      obtain ⟨number, inPlace⟩ := place row List.mem_cons_self
      rw [List.flatMap_cons] at still
      have first : stepRow name data scope pass row = _ := stepRow_of_still noRows inPlace fun cell hc =>
        still cell (List.mem_append_left _ hc)
      obtain ⟨last, rest⟩ := walkRows_of_still rows
        { pass with
          rows := pass.rows ++ [rowBack scope row]
          lastRow := number
          stats := pass.stats.skip (((cellsOf row).map (Cell.shownText pass.pool)).map Placeholder.count).sum }
        noRows (fun r hr => place r (List.mem_cons_of_mem row hr)) fun cell hc =>
          still cell (List.mem_append_right _ hc)
      refine ⟨last, bind_eq_ok_iff.mpr ⟨_, first, rest.trans ?_⟩⟩
      rw [List.append_assoc, List.singleton_append, List.flatMap_cons, List.map_append, List.map_append, List.sum_append,
        List.map_cons]
      simp only [Stats.skip, Nat.add_assoc]

end

/-- A pass over a canonical sheet whose cells do not resolve puts the rows back. -/
theorem run_of_still {sheet : Sheet} {workbook : Element} {pool : Pool} {data : Bindings} (canonical : sheet.Canonical)
    (still : ∀ cell ∈ sheet.rows.flatMap cellsOf, textResolves data (Cell.shownText pool cell) = false) :
    run sheet workbook pool data = .ok ⟨⟨sheet.info, sheet.rowsBack, sheet.tables⟩, workbook, pool, Stats.zero.skip
      (((sheet.rows.flatMap cellsOf).map (Cell.shownText pool)).map Placeholder.count).sum⟩ := by
  unfold run Sheet.rowsBack
  cases hdata : sheet.data? with
  | none =>
      have rows : sheet.rows = [] := by rw [Sheet.rows, hdata]; rfl
      rw [rows]
      rfl
  | some sheetData =>
      have walked : ∃ last, walkRows sheet.name data (rowScope sheet sheetData) sheet.rows
          (passStart sheet workbook pool) = _ :=
        walkRows_of_still sheet.rows (passStart sheet workbook pool) rfl canonical.rows still
      obtain ⟨last, walked⟩ := walked
      exact bind_eq_ok_iff.mpr ⟨_, walked, rfl⟩

end Expand
end Gridfill

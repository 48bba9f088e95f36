import Gridfill.Placeholder
import Gridfill.Sheet.Basic
import Gridfill.Sheet.Cell
import Gridfill.Sheet.Shift

/-!
# Filling the rows of a sheet

A pass goes through the rows from top to bottom and through the cells of each row from left to right.

* A cell that is nothing but a placeholder of the table kind bound to a sequence grows downwards: the
  first record fills the cell, and each further record goes into a new row below.
* A cell that is nothing but a placeholder of the normal kind bound to a sequence grows to the right:
  each further element goes into a new cell.
* In any other cell the placeholders are overwritten by the text of their values.

Rows and cells are renumbered as the pass reaches them, by the rows and cells inserted before. The new
rows of a row are shared by all its cells; they go in directly behind it, and then everything anchored
below moves down.
-/

namespace Gridfill

open Markup (Element Node Scope)

namespace Expand

/-- What a pass changed. -/
structure Stats where
  rowsInserted : Nat
  /-- The widest growth of any row. -/
  columnsInserted : Nat
  substituted : Nat
  skipped : Nat
deriving DecidableEq, Repr

/-- A pass that changed nothing. -/
def Stats.zero : Stats := ⟨0, 0, 0, 0⟩

/-! ### The extent of a row -/

/-- The last range of the extent of a row, moved to the right at its end. -/
def widenSpan (span : List Char) (cells : Int) : Except Failure (Option (List Char)) :=
  match Text.cutAtFirst ':' span with
  | (first, some (c :: cs)) => do
    let last ← parseInteger (String.ofList (c :: cs))
    return some (first ++ ':' :: (← writeInteger (last + cells)).toList)
  | _ => .ok none

/-- The row with the last range of its extent grown by the cells that were inserted. -/
def widenRow (row : Element) (cells : Int) : Except Failure Element :=
  match row.attribute? "spans" with
  | none => .ok row
  | some spans =>
    if spans = "" ∨ cells = 0 then .ok row
    else
      let ranges := Text.words spans.toList
      match ranges.getLast? with
      | none => .error .indexOutOfRange
      | some last => do
        match ← widenSpan last cells with
        | none => return row
        | some wide =>
          let all := Text.joinWith [' '] (ranges.dropLast ++ [wide])
          return row.set "spans" (String.ofList all)

/-! ### Cells -/

/-- A new row under way, and the cells that were inserted into it so far. -/
structure NewRow where
  row : Element
  shift : Nat

/-- What the cells of a row change besides the row. -/
structure Work where
  pool : Pool
  tables : List Table
  newRows : List NewRow
  stats : Stats

/-- Where a cell is being filled: the values, the scope of the rows, the row and its number. -/
structure Site where
  data : Bindings
  scope : Scope
  row : Element
  number : Int

/-- A copy of a cell, as many columns to the right. -/
def copyRight (cell : Element) (columns : Nat) : Except Failure Element :=
  if columns = 0 then .ok cell.copy
  else do
    let ref ← CellRef.shift (cell.attributeOr "r" "") 0 columns
    return cell.copy.set "r" ref

/-- The cells for items laid out to the right of a cell, from the column `offset` on. -/
def layRight (cell : Element) : Nat → List Value → Pool → Except Failure (List Element × Pool)
  | _, [], pool => .ok ([], pool)
  | offset, v :: vs, pool => do
    let copy ← copyRight cell offset
    let (copy, pool) ← Cell.fill copy v pool
    let (rest, pool) ← layRight cell (offset + 1) vs pool
    return (copy :: rest, pool)

/-- The items as they are laid out: for none, a blank stands. -/
def laidOut (items : List Value) : List Value := if items.isEmpty then [.null] else items

/-- The cells for a sequence laid out in the place of a cell. -/
def spread (cell : Element) (items : List Value) (pool : Pool) :
    Except Failure (List Element × Pool) :=
  layRight cell 0 (laidOut items) pool

/-- The new row for the next record: a copy of the row with its number. -/
def freshRow (site : Site) (count : Nat) : Except Failure NewRow := do
  let number ← writeInteger (site.number + count + 1)
  return ⟨(site.row.copyBare site.scope).set "r" number, 0⟩

/-- The list of new rows long enough for the record at the given place. -/
def ensureRow (site : Site) (rows : List NewRow) (place : Nat) : Except Failure (List NewRow) :=
  if place < rows.length then .ok rows else do return rows ++ [← freshRow site rows.length]

/-- The cells that a record puts into its new row for a cell of the given column, the place of the
first of them, and the number of cells inserted. -/
def recordCells (cell : Element) (column : String) (target : NewRow) (item : Value) (pool : Pool) :
    Except Failure (List Element × String × Nat × Pool) := do
  let number ← parseInteger (target.row.attributeOr "r" "")
  let ref ← CellRef.shift (← (CellRef.plain column number).write) 0 target.shift
  let copy := cell.copy.set "r" ref
  match item.items? with
  | some items =>
    let (cells, pool) ← spread copy items pool
    return (cells, ref, cells.length - 1, pool)
  | none =>
    let (filled, pool) ← Cell.fill copy item pool
    return ([filled], ref, 0, pool)

/-- A new row with the cells of a record at its end. -/
def addCells (target : NewRow) (cells : List Element) (inserted : Nat) : Except Failure NewRow := do
  let row := cells.foldl (fun row cell => row.append [] cell) target.row
  return ⟨← widenRow row inserted, target.shift + inserted⟩

/-- Puts the record at `place` among the further ones into its new row. -/
def placeRecord (site : Site) (cell : Element) (column : String) (chosen : List Bool) (place : Nat)
    (item : Value) (work : Work) : Except Failure Work := do
  let rows ← ensureRow site work.newRows place
  match rows[place]? with
  | none => return work
  | some target =>
    let (cells, ref, inserted, pool) ← recordCells cell column target item work.pool
    let grown ← addCells target cells inserted
    let widest := if item.isSequence then max work.stats.columnsInserted grown.shift
      else work.stats.columnsInserted
    let tables ← Shift.growTables chosen ref work.tables
    return ⟨pool, tables, rows.set place grown, { work.stats with columnsInserted := widest }⟩

/-- Puts the records from `place` on among the further ones into their new rows. -/
def placeRecords (site : Site) (cell : Element) (column : String) (chosen : List Bool) :
    Nat → List Value → Work → Except Failure Work
  | _, [], work => .ok work
  | place, item :: items, work => do
    let work ← placeRecord site cell column chosen place item work
    placeRecords site cell column chosen (place + 1) items work

/-- What a cell becomes: the cells in its place, and the number of cells inserted. -/
structure Outcome where
  cells : List Element
  inserted : Nat
  work : Work

/-- Lays records out downwards from a cell, `items` being the parts of them that are shown. -/
def spreadDown (site : Site) (cell : Element) (items : List Value) (work : Work) :
    Except Failure Outcome :=
  match items with
  | [] => .ok ⟨[Cell.clear cell], 0, work⟩
  | item :: rest => do
    let ref := cell.attributeOr "r" ""
    let chosen ← Shift.covering work.tables ref
    let column := (← CellRef.parse ref).column
    match item.items? with
    | some values =>
      let (cells, pool) ← spread cell values work.pool
      let work ← placeRecords site cell column chosen 0 rest { work with pool := pool }
      return ⟨cells, cells.length - 1, work⟩
    | none =>
      let (filled, pool) ← Cell.fill cell item work.pool
      let work ← placeRecords site filled column chosen 0 rest { work with pool := pool }
      return ⟨[filled], 0, work⟩

/-- Writes the value of a placeholder that is the whole text of a cell. A text takes the place of the
placeholder in the pool, so other cells that show the placeholder show the text as well. -/
def putWhole (cell : Element) (text : String) (v : Value) (pool : Pool) :
    Except Failure (Element × Pool) :=
  match v with
  | .text s => Cell.fill cell v (pool.replace text s).1
  | v => Cell.fill cell v pool

/-- The work with one more placeholder filled. -/
def Work.countFilled (work : Work) : Work :=
  { work with stats := { work.stats with substituted := work.stats.substituted + 1 } }

/-- The work with one more placeholder left as it is. -/
def Work.countSkipped (work : Work) : Work :=
  { work with stats := { work.stats with skipped := work.stats.skipped + 1 } }

/-- Fills a cell whose text is a single placeholder. -/
def fillWhole (site : Site) (cell : Element) (text : String) (p : Placeholder) (work : Work) :
    Except Failure Outcome :=
  match site.data.lookup p.name with
  | none => .ok ⟨[cell], 0, work.countSkipped⟩
  | some v =>
    match v.items? with
    | some elements =>
      let items := site.data.parts p.key elements
      if p.isTable then do
        let r ← spreadDown site cell items work
        return { r with work := r.work.countFilled }
      else if p.isNormal then do
        let (cells, pool) ← spread cell items work.pool
        return ⟨cells, cells.length - 1, { work with pool := pool }.countFilled⟩
      else plain v
    | none => plain v
where
  /-- Fills the cell with the part of a value that the placeholder names. -/
  plain (v : Value) : Except Failure Outcome :=
    match site.data.project v p.key with
    | none => .ok ⟨[cell], 0, work.countSkipped⟩
    | some item => do
      let (filled, pool) ← putWhole cell text item work.pool
      return ⟨[filled], 0, { work with pool := pool }.countFilled⟩

/-- The text after the placeholders are overwritten one after the other, whether any was, and the
work. -/
def fillText (data : Bindings) :
    List Placeholder → String → Bool → Work → Except Failure (String × Bool × Work)
  | [], text, changed, work => .ok (text, changed, work)
  | p :: ps, text, changed, work =>
    match data.find? p.name p.key with
    | none => fillText data ps text changed work.countSkipped
    | some v => do
      let new ← v.toText
      let text := String.ofList (Text.replaceFirst p.raw.toList new.toList text.toList)
      fillText data ps text true work.countFilled

/-- Fills a cell whose text holds placeholders among other text. -/
def fillParts (site : Site) (cell : Element) (text : String) (ps : List Placeholder) (work : Work) :
    Except Failure Outcome := do
  let (text, changed, work) ← fillText site.data ps text false work
  if changed then
    let (filled, pool, _) := Cell.writeForm cell (.text text) work.pool
    return ⟨[filled], 0, { work with pool := pool }⟩
  else return ⟨[cell], 0, work⟩

/-- Fills a cell. -/
def fillCell (site : Site) (cell : Element) (work : Work) : Except Failure Outcome :=
  match Cell.shownText work.pool cell with
  | none => .ok ⟨[cell], 0, work⟩
  | some text =>
    match Placeholder.scan text with
    | [] => .ok ⟨[cell], 0, work⟩
    | [p] =>
      if p.whole then fillWhole site cell text p work else fillParts site cell text [p] work
    | ps => fillParts site cell text ps work

/-! ### Rows -/

/-- Where the walk along a row stands: the cells so far, how many were inserted, the last column in
use, and the work. -/
structure Walk where
  cells : List Element
  inserted : Nat
  lastColumn : Int
  work : Work

/-- The reference of a cell at its new place: moved by the cells inserted before it, or behind the
last column when it has no reference of its own. -/
def currentRef (cell : Element) (number : Int) (walk : Walk) : Except Failure String := do
  let own := cell.attributeOr "r" ""
  let column : Int ←
    if own = "" then pure (walk.lastColumn + 1)
    else do
      let n ← (← CellRef.parse own).columnNumber
      pure ((n : Int) + walk.inserted)
  (CellRef.plain (← Reference.columnName column) number).write

/-- The walk after the next cell. -/
def stepCell (site : Site) (walk : Walk) (cell : Element) : Except Failure Walk := do
  let ref ← currentRef cell site.number walk
  let cell := cell.set "r" ref
  let column ← (← CellRef.parse ref).columnNumber
  let r ← fillCell site cell walk.work
  return ⟨walk.cells ++ r.cells, walk.inserted + r.inserted, (column : Int) + r.inserted, r.work⟩

/-- The walk along the cells of a row. -/
def walkCells (site : Site) : List Element → Walk → Except Failure Walk
  | [], walk => .ok walk
  | cell :: cells, walk => do
    let walk ← stepCell site walk cell
    walkCells site cells walk

/-- What a pass over a sheet has changed so far, behind the rows done. -/
structure Pass where
  rows : List Element
  lastRow : Int
  pool : Pool
  anchored : Shift.Anchored
  stats : Stats

/-- The number of a row at its new place: moved by the rows inserted before it, or behind the last row
when it has no number of its own. -/
def currentNumber (row : Element) (pass : Pass) : Except Failure Int := do
  let own := row.attributeOr "r" ""
  if own = "" then return pass.lastRow + 1
  else return (← parseInteger own) + pass.stats.rowsInserted

/-- The pass after the next row. -/
def stepRow (name : String) (data : Bindings) (scope : Scope) (pass : Pass) (row : Element) :
    Except Failure Pass := do
  let number ← currentNumber row pass
  let row := row.set "r" (← writeInteger number)
  let site : Site := ⟨data, scope, row, number⟩
  let start : Work := ⟨pass.pool, pass.anchored.tables, [], pass.stats⟩
  let walk ← walkCells site (row.childrenWith Vocabulary.cell) ⟨[], 0, 0, start⟩
  let row ← widenRow (row.replaceContent scope (walk.cells.map Node.element)) walk.inserted
  let newRows := walk.work.newRows.map (·.row)
  let anchored := { pass.anchored with tables := walk.work.tables }
  let anchored ← Shift.pushDown name number newRows.length anchored
  let stats := walk.work.stats
  return {
    rows := pass.rows ++ row :: newRows
    lastRow := number + newRows.length
    pool := walk.work.pool
    anchored := anchored
    stats := { stats with
      rowsInserted := stats.rowsInserted + newRows.length
      columnsInserted := max stats.columnsInserted walk.inserted } }

/-- The pass over rows. -/
def walkRows (name : String) (data : Bindings) (scope : Scope) :
    List Element → Pass → Except Failure Pass
  | [], pass => .ok pass
  | row :: rows, pass => do
    let pass ← stepRow name data scope pass row
    walkRows name data scope rows pass

/-- A sheet after a pass, with the workbook's document and the pool. -/
structure Filled where
  sheet : Sheet
  workbook : Element
  pool : Pool
  stats : Stats

/-- Fills the rows of a sheet. -/
def run (sheet : Sheet) (workbook : Element) (pool : Pool) (data : Bindings) :
    Except Failure Filled :=
  match sheet.data? with
  | none => .ok ⟨sheet, workbook, pool, Stats.zero⟩
  | some sheetData => do
    let scope := [sheetData.frame, sheet.root.frame]
    let start : Pass := ⟨[], 0, pool, ⟨sheet.root, sheet.tables, workbook⟩, Stats.zero⟩
    let pass ← walkRows sheet.name data scope sheet.rows start
    let sheetData := sheetData.replaceContent [sheet.root.frame] (pass.rows.map Node.element)
    let root := pass.anchored.sheet.changeChild Vocabulary.sheetData fun _ => sheetData
    return ⟨⟨sheet.info, root, pass.anchored.tables⟩, pass.anchored.workbook, pass.pool, pass.stats⟩

end Expand
end Gridfill

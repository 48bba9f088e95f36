import Gridfill.Markup.Scope
import Gridfill.Sheet.Table
import Gridfill.Text.Blank

/-!
# Ranges that follow the rows

When rows are inserted behind a row, everything anchored below that row moves down with them: merged
ranges, named tables and the names defined in the workbook. A merged range that begins on the row
itself stays, and each inserted row gets a copy of it.
-/

namespace Gridfill

open Markup (Element Node Scope)

namespace Shift

/-! ### Changing children -/

/-- The element with every child of the given meaning changed. -/
def changeChildren (tag : Markup.Tag) (f : Element → Except Failure Element) (e : Element) :
    Except Failure Element := do
  let content ← e.content.mapM fun n =>
    match n with
    | .element c => if c.tag = tag then (f c).map Node.element else .ok n
    | n => .ok n
  return { e with content }

/-! ### Merged ranges -/

/-- What becomes of a merged range: the range itself, and the copies for inserted rows. -/
def shiftMerge (row count : Int) (range : CellRange) : CellRange × List CellRange :=
  if row < range.start.row then (range.down count, [])
  else if range.start.row = row then
    (range, (List.range count.toNat).map fun (i : Nat) => range.down ((i : Int) + 1))
  else (range, [])

/-- What becomes of the element of a merged range: the element, and the copies. -/
def shiftMergeElement (row count : Int) (e : Element) :
    Except Failure (Element × List Element) := do
  let range ← CellRange.parse (e.attributeOr "ref" "")
  let (moved, copies) := shiftMerge row count range
  let kept ← if row < range.start.row then moved.write.map (e.set "ref") else .ok e
  let copies ← copies.mapM CellRange.write
  return (kept, copies.map (e.copy.set "ref"))

/-- Goes through the content of the list of merged ranges: the content after the shift, and the
copies. -/
def shiftMergeNodes (row count : Int) :
    List Node → Except Failure (List Node × List Element)
  | [] => .ok ([], [])
  | n :: ns => do
    let (n, copies) ← match n with
      | .element e =>
        if e.tag = Vocabulary.mergeCell then
          (shiftMergeElement row count e).map fun r => (Node.element r.1, r.2)
        else .ok (n, [])
      | n => .ok (n, [])
    let (ns, more) ← shiftMergeNodes row count ns
    return (n :: ns, copies ++ more)

/-- The list of merged ranges after `count` rows were inserted behind a row. -/
def shiftMergeList (scope : Scope) (row count : Int) (list : Element) :
    Except Failure Element := do
  let (content, copies) ← shiftMergeNodes row count list.content
  let inside := list.frame :: scope
  let list := { list with content := content ++ copies.map fun (e : Element) => Node.element (e.moveTo inside) }
  return list.set "count" (← writeInteger (list.childrenWith Vocabulary.mergeCell).length)

/-- The sheet with its merged ranges after `count` rows were inserted behind a row. -/
def shiftMerges (row count : Int) (sheet : Element) : Except Failure Element :=
  match sheet.child? Vocabulary.mergeCells with
  | none => .ok sheet
  | some list => do
    let list ← shiftMergeList [sheet.frame] row count list
    return sheet.changeChild Vocabulary.mergeCells fun _ => list

/-! ### Tables -/

/-- A table after `count` rows were inserted behind a row. -/
def shiftTable (row count : Int) (t : Table) : Except Failure Table := do
  let range ← t.range
  if row < range.start.row then t.setRef (← (range.down count).write) else return t

/-- Tables after `count` rows were inserted behind a row. -/
def shiftTables (row count : Int) (tables : List Table) : Except Failure (List Table) :=
  tables.mapM (shiftTable row count)

/-- For each table, whether it covers a cell. -/
def covering (tables : List Table) (cell : String) : Except Failure (List Bool) :=
  tables.mapM fun t => do
    let range ← t.range
    range.holds (← CellRef.parse cell)

/-- The range of a table with one more row; nothing when the table covers the cell already. -/
def grownRef (cell : String) (t : Table) : Except Failure (Option String) := do
  let range ← t.range
  if ← range.holds (← CellRef.parse cell) then return none
  else return some (← (CellRange.mk range.start (range.stop.down 1)).write)

/-- A table with one more row, unless it covers the cell already. -/
def growTable (cell : String) (t : Table) : Except Failure Table := do
  match ← grownRef cell t with
  | none => return t
  | some ref => t.setRef ref

/-- Tables as they are when growing them one after the other comes to its end or to a failure. The
table that fails has its new range when it is only its filter that cannot follow. -/
def growInTurn (cell : String) : List Table → List Table × Option Failure
  | [] => ([], none)
  | t :: ts =>
    match growTable cell t with
    | .ok t =>
      let r := growInTurn cell ts
      (t :: r.1, r.2)
    | .error f =>
      match grownRef cell t with
      | .ok (some ref) => (t.putRef ref :: ts, some f)
      | _ => (t :: ts, some f)

/-- The tables, of which the chosen ones grow by a row unless they cover the cell already. -/
def growTables (chosen : List Bool) (cell : String) (tables : List Table) :
    Except Failure (List Table) :=
  (tables.zip chosen).mapM fun p => if p.2 then growTable cell p.1 else .ok p.1

/-! ### Defined names -/

/-- Does the sheet in front of a reference, if any, mean the sheet of the given name? A name between
quotes has its quotes doubled. -/
def meansSheet (qualifier : Option String) (name : String) : Bool :=
  match qualifier.map (·.toList) with
  | none => true
  | some [] => true
  | some (c :: cs) =>
    if c = '\'' && (c :: cs).getLast? = some '\'' then
      String.ofList (Text.undouble '\'' cs.dropLast) = name
    else String.ofList (c :: cs) = name

/-- A reference of a defined name after the shift; nothing when it stays as it is. -/
def shiftReference (sheet : String) (row count : Int) (text : String) :
    Except Failure (Option String) := do
  if text = "" || text.toList.contains ',' then return none
  else if !(← isReference text) then return none
  else if CellRange.looksLike text then
    let range ← CellRange.parse text
    if meansSheet range.start.sheet sheet && row < range.start.row then
      return some (← (range.down count).write)
    else return none
  else
    let cell ← CellRef.parse text
    if meansSheet cell.sheet sheet && row < cell.row then
      return some (← (cell.down count).write)
    else return none

/-- A defined name after the shift. -/
def shiftName (sheet : String) (row count : Int) (e : Element) : Except Failure Element := do
  let text := String.ofList (Text.strip (e.text.getD "").toList)
  match ← shiftReference sheet row count text with
  | some moved => return e.setText moved
  | none => return e

/-- The workbook with its defined names after `count` rows were inserted behind a row of a sheet. -/
def shiftNames (sheet : String) (row count : Int) (workbook : Element) :
    Except Failure Element :=
  changeChildren Vocabulary.definedNames
    (changeChildren Vocabulary.definedName (shiftName sheet row count)) workbook

/-! ### All of them -/

/-- What moves when rows are inserted into a sheet. -/
structure Anchored where
  sheet : Element
  tables : List Table
  workbook : Element

/-- Everything anchored below a row after `count` rows were inserted behind it. -/
def pushDown (name : String) (row count : Int) (a : Anchored) : Except Failure Anchored :=
  if count ≤ 0 then .ok a
  else do
    let sheet ← shiftMerges row count a.sheet
    let tables ← shiftTables row count a.tables
    let workbook ← shiftNames name row count a.workbook
    return ⟨sheet, tables, workbook⟩

/-! ### The dimension of a sheet -/

/-- The range of the dimension of a sheet; a single cell is a range of one cell. -/
def dimensionRange (ref : String) : Except Failure CellRange :=
  if CellRange.looksLike ref then CellRange.parse ref
  else do
    let cell ← CellRef.parse ref
    CellRange.parse (ref ++ ":" ++ (← cell.write))

/-- The sheet with its dimension grown by the rows and columns that were inserted. -/
def growDimension (rows columns : Int) (sheet : Element) : Except Failure Element :=
  match sheet.child? Vocabulary.dimension with
  | none => .ok sheet
  | some dimension =>
    if rows ≤ 0 ∧ columns ≤ 0 then .ok sheet
    else do
      let range ← dimensionRange (dimension.attributeOr "ref" "")
      let stop ← (range.stop.down (max rows 0)).right (max columns 0)
      let ref ← (CellRange.mk range.start stop).write
      return sheet.changeChild Vocabulary.dimension (·.set "ref" ref)

end Shift
end Gridfill

import Gridfill.Package.Vocabulary
import Gridfill.Reference.Range

/-!
# Named tables

A named table is a range of a sheet with a part of its own. It may carry a filter over a range of its
own, and it lists its columns by name.
-/

namespace Gridfill

open Markup (Element)

/-- A named table: its part and the root of the document in it. -/
structure Table where
  path : String
  root : Element

/-- A column that a table lists. -/
structure ColumnInfo where
  id : Int
  name : String
deriving DecidableEq, Repr

/-- What a table says about itself. -/
structure TableInfo where
  name : Option String
  path : String
  ref : String
  columns : List ColumnInfo
deriving DecidableEq, Repr

namespace Table

/-- The name that is shown or, failing that, the name. -/
def name (t : Table) : Option String :=
  match t.root.attribute? "displayName" with
  | some s => if s = "" then t.root.attribute? "name" else some s
  | none => t.root.attribute? "name"

/-- The range of the table as it is written. -/
def ref (t : Table) : String := t.root.attributeOr "ref" ""

/-- The range of the table. -/
def range (t : Table) : Except Failure CellRange := CellRange.parse t.ref

/-- The filter of the table. -/
def filter? (t : Table) : Option Element := t.root.child? Vocabulary.autoFilter

/-- The list of columns of the table. -/
def columns? (t : Table) : Option Element := t.root.child? Vocabulary.tableColumns

/-! ### Moving -/

/-- A corner of the filter after the same corner of the table moved from `old` to `new`: it moves by
as many rows and columns. -/
def moveCorner (old new corner : CellRef) : Except Failure CellRef := do
  let newColumn ← new.columnNumber
  let oldColumn ← old.columnNumber
  (corner.down (new.row - old.row)).right ((newColumn : Int) - oldColumn)

/-- The range of the filter after the table moved from one range to another. -/
def moveFilter (old new filter : CellRange) : Except Failure CellRange := do
  let start ← moveCorner old.start new.start filter.start
  let stop ← moveCorner old.stop new.stop filter.stop
  return ⟨start, stop⟩

/-- The range that a filter has after the range of its table was set; a filter without a range of its
own, or of a table that had none, takes that of the table. -/
def filterRef (old new : String) (filter : Element) : Except Failure String :=
  let own := filter.attributeOr "ref" ""
  if old = "" ∨ own = "" then .ok new
  else do
    let before ← CellRange.parse old
    let after ← CellRange.parse new
    let range ← CellRange.parse own
    (← moveFilter before after range).write

/-- The table with its range set and the filter left where it is. -/
def putRef (t : Table) (ref : String) : Table := { t with root := t.root.set "ref" ref }

/-- The table with its range set, the filter following. -/
def setRef (t : Table) (ref : String) : Except Failure Table :=
  match t.filter? with
  | none => .ok (t.putRef ref)
  | some filter => do
    let moved ← filterRef t.ref ref filter
    let root := (t.putRef ref).root
    return { t with root := root.changeChild Vocabulary.autoFilter (·.set "ref" moved) }

/-! ### Description -/

/-- What a column says about itself. -/
def columnInfo (column : Element) : Except Failure ColumnInfo := do
  let id ← parseInteger (column.attributeOr "id" "0")
  return ⟨id, column.attributeOr "name" ""⟩

/-- What the table says about itself. -/
def info (t : Table) : Except Failure TableInfo := do
  let columns := t.columns?.elim [] (·.childrenWith Vocabulary.tableColumn)
  let columns ← columns.mapM columnInfo
  return ⟨t.name, t.path, t.ref, columns⟩

end Table
end Gridfill

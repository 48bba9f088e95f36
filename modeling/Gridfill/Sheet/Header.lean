import Gridfill.Markup.Character
import Gridfill.Markup.Scope
import Gridfill.Placeholder
import Gridfill.Sheet.Table
import Gridfill.Value.Text

/-!
# Column names of tables

A table lists the names of its columns, which have to agree with the cells of its header row, so the
placeholders in them are filled as well. A name that is nothing but a placeholder of the normal kind
bound to a sequence becomes one column for each element, and the table grows to the right.
-/

namespace Gridfill.Header

open Markup (Element Node Scope)

/-- The column without the identifier that must be unique in its table. -/
def dropUnique (column : Element) : Element :=
  { column with
    attributes := column.attributes.filter fun a => !(a.name.space.isSome && a.name.label = "uid") }

/-- The column with its name set. -/
def setName (column : Element) (name : String) : Except Failure Element :=
  if Markup.isAllowedText name then .ok (column.set "name" name) else .error .forbiddenCharacter

/-- The column with the text of a value as its name. -/
def setNameTo (column : Element) (v : Value) : Except Failure Element := do
  setName column (← v.toText)

/-- The column with its place in the list of columns. -/
def setPlace (column : Element) (place : Nat) : Element := column.set "id" (toString place)

/-- The columns for the items behind the first: each is a copy of the one before it. -/
def furtherColumns : Element → Nat → List Value → Except Failure (List Element)
  | _, _, [] => .ok []
  | column, place, v :: vs => do
    let next ← setNameTo (setPlace (dropUnique column.copy) (place + 1)) v
    let rest ← furtherColumns next (place + 1) vs
    return next :: rest

/-- The columns for the items of a sequence; an empty sequence leaves the column as it is. -/
def spreadColumn (column : Element) (place : Nat) (items : List Value) :
    Except Failure (List Element) :=
  match items with
  | [] => .ok [column]
  | v :: vs => do
    let first ← setNameTo column v
    let rest ← furtherColumns first place vs
    return first :: rest

/-- The column with the placeholders of its name filled, one after the other. -/
def fillName (data : Bindings) :
    List Placeholder → String → Element → Except Failure Element
  | [], _, column => .ok column
  | p :: ps, name, column =>
    match data.find? p.name p.key with
    | none => fillName data ps name column
    | some v => do
      let new ← v.toText
      let name := String.ofList (Text.replaceFirst p.raw.toList new.toList name.toList)
      fillName data ps name (← setName column name)

/-- The columns that a column becomes, `place` being its place in the list. -/
def fillColumn (data : Bindings) (column : Element) (place : Nat) : Except Failure (List Element) :=
  let column := setPlace column place
  let name := column.attributeOr "name" ""
  match Placeholder.scan name with
  | [p] =>
    match p.whole && p.isNormal, (data.lookup p.name).bind Value.items? with
    | true, some elements => spreadColumn column place (data.parts p.key elements)
    | _, _ => (fillName data [p] name column).map fun c => [c]
  | ps => (fillName data ps name column).map fun c => [c]

/-- The columns that columns become, `place` being the number of those in front of them. -/
def fillColumns (data : Bindings) : Nat → List Element → Except Failure (List Element)
  | _, [] => .ok []
  | place, c :: cs => do
    let filled ← fillColumn data c (place + 1)
    let rest ← fillColumns data (place + filled.length) cs
    return filled ++ rest

/-- A range with columns added at its right edge. -/
def widen (range : CellRange) (columns : Nat) : Except Failure CellRange := do
  let stop ← range.stop.right columns
  return ⟨range.start, stop⟩

/-- The table with the placeholders in its column names filled, and the number of columns added. -/
def fillTable (data : Bindings) (t : Table) : Except Failure (Table × Nat) :=
  match t.columns? with
  | none => .ok (t, 0)
  | some list => do
    let range ← t.range
    let columns := list.childrenWith Vocabulary.tableColumn
    let filled ← fillColumns data 0 columns
    let added := filled.length - columns.length
    let list := list.replaceContent [t.root.frame] (filled.map Node.element)
    if added = 0 then
      return ({ t with root := t.root.changeChild Vocabulary.tableColumns fun _ => list }, 0)
    else
      let list := list.set "count" (← writeInteger filled.length)
      let t : Table := { t with root := t.root.changeChild Vocabulary.tableColumns fun _ => list }
      let wide ← widen range added
      return (← t.setRef (← wide.write), added)

/-- The tables with the placeholders in their column names filled, and the number of columns added. -/
def fillTables (data : Bindings) : List Table → Except Failure (List Table × Nat)
  | [] => .ok ([], 0)
  | t :: ts => do
    let (t, added) ← fillTable data t
    let (ts, more) ← fillTables data ts
    return (t :: ts, added + more)

end Gridfill.Header

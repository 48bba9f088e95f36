import Gridfill.Pool
import Gridfill.Value.Text

/-!
# Cells

How the content of a cell is read and written. A cell of type `s` holds a place in the pool of texts,
a cell of type `b` a truth value, and a cell without type a number. A cell that is cleared keeps its
place and its style.
-/

namespace Gridfill.Cell

open Markup (Element Node)

/-! ### Reading -/

/-- The written content of a cell. -/
def valueText (cell : Element) : Option String := (cell.child? Vocabulary.cellValue).bind (·.text)

/-- The written content of a cell that holds a place in the pool, unless it is blank. -/
def placeText (cell : Element) : Option String :=
  if cell.attribute? "t" = some "s" then
    (valueText cell).filter fun s => !(Text.strip s.toList).isEmpty
  else none

/-- The text that a cell shows by its place in the pool. -/
def shownText (pool : Pool) (cell : Element) : Option String :=
  (placeText cell).bind fun s =>
    match Text.readInteger s.toList with
    | .ok i => pool.at? i
    | .error _ => none

/-! ### Writing -/

/-- The cell without its own text and with an element for its content. -/
def prepare (cell : Element) : Element :=
  let cell := { cell with content := Element.dropFirst Vocabulary.inlineText cell.content }
  match cell.child? Vocabulary.cellValue with
  | some _ => cell
  | none =>
    { cell with content := cell.content ++ [.element (cell.newChild [] Vocabulary.main "v")] }

/-- The cell with its content written. -/
def putText (cell : Element) (text : String) : Element :=
  (prepare cell).changeChild Vocabulary.cellValue (·.setText text)

/-- The cell with its content in a form, the pool with the text of the form when it is one, and what was
written. -/
def writeForm (cell : Element) (form : CellForm) (pool : Pool) : Element × Pool × String :=
  match form with
  | .flag b =>
    let text := if b then "1" else "0"
    ((putText cell text).set "t" "b", pool, text)
  | .number text => ((putText cell text).unset "t", pool, text)
  | .text s =>
    let (pool, i) := pool.indexOf s
    ((putText cell (toString i)).set "t" "s", pool, toString i)

/-- The cell holding a value in the form of the value. -/
def write (cell : Element) (value : Value) (pool : Pool) : Except Failure (Element × Pool × String) :=
  value.cellForm.map fun form => writeForm cell form pool

/-- The cell without type and content. -/
def clear (cell : Element) : Element := { cell.unset "t" with content := [] }

/-- The cell holding a value; nothing clears it. -/
def fill (cell : Element) (value : Value) (pool : Pool) : Except Failure (Element × Pool) :=
  match value with
  | .null => .ok (clear cell, pool)
  | value => (write cell value pool).map fun r => (r.1, r.2.1)

end Gridfill.Cell

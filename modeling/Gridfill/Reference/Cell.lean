import Gridfill.Reference.Column
import Gridfill.Text.Blank
import Gridfill.Text.Cut

/-!
# Cell references

A reference such as `Sheet1!$B$4`: an optional sheet in front of an exclamation mark, kept as it is
written, one to three column letters and a row number, each optionally fixed by a dollar sign.
Reading ignores blanks around the reference and puts the column letters into capitals.
-/

namespace Gridfill

/-- A reference to one cell. -/
structure CellRef where
  sheet : Option String
  column : String
  columnFixed : Bool
  row : Int
  rowFixed : Bool
deriving DecidableEq, Repr

namespace CellRef

/-- The reference to a cell of the sheet at hand that moves freely. -/
def plain (column : String) (row : Int) : CellRef := ⟨none, column, false, row, false⟩

/-! ### Writing -/

/-- The mark of a fixed row or column. -/
def fixedMark (isFixed : Bool) : List Char := if isFixed then ['$'] else []

/-- The column and the row of a reference. -/
def localChars (r : CellRef) : List Char :=
  fixedMark r.columnFixed ++ r.column.toList ++ fixedMark r.rowFixed ++ (toString r.row).toList

/-- The sheet of a reference and the exclamation mark; nothing for the sheet at hand. -/
def sheetChars (r : CellRef) : List Char :=
  match r.sheet with
  | none => []
  | some s => if s = "" then [] else s.toList ++ ['!']

/-- The written form of a reference. -/
def text (r : CellRef) : String := String.ofList (r.sheetChars ++ r.localChars)

/-- The written form of a reference, unless its row has too many digits. -/
def write (r : CellRef) : Except Failure String := (writeInteger r.row).map fun _ => r.text

/-! ### Reading -/

/-- A dollar sign at the front of a text, and the rest. -/
def readFixed : List Char → Bool × List Char
  | '$' :: cs => (true, cs)
  | cs => (false, cs)

/-- Is the text a row number: decimal figures with no zero in front? -/
def isRowNumber : List Char → Bool
  | [] => false
  | c :: cs => c ≠ '0' && c.isDigit && cs.all Char.isDigit

/-- The parts of a reference behind the exclamation mark. -/
structure LocalParts where
  columnFixed : Bool
  column : List Char
  rowFixed : Bool
  row : List Char
deriving DecidableEq, Repr

/-- Reads the part of a reference behind the exclamation mark. -/
def readLocal (cs : List Char) : Option LocalParts :=
  let (columnFixed, cs) := readFixed cs
  let column := cs.takeWhile Char.isAlpha
  let (rowFixed, row) := readFixed (cs.dropWhile Char.isAlpha)
  if 1 ≤ column.length && column.length ≤ 3 && isRowNumber row then
    some ⟨columnFixed, column, rowFixed, row⟩
  else none

/-- Is the text fit to stand in front of the exclamation mark? -/
def isQualifier (cs : List Char) : Bool := !cs.isEmpty && !cs.contains '\n'

/-- The sheet and the other parts that a text without blanks at its ends spells. -/
def readParts (cs : List Char) : Option (Option String × LocalParts) :=
  match Text.cutAtLast '!' cs with
  | (none, body) => (readLocal body).map fun p => (none, p)
  | (some sheet, body) =>
    if isQualifier sheet then (readLocal body).map fun p => (some (String.ofList sheet), p)
    else none

/-- The reference that a text spells. -/
def parse (s : String) : Except Failure CellRef :=
  match readParts (Text.strip s.toList) with
  | none => .error (.reference .cell s)
  | some (sheet, p) => do
    let row ← parseInteger (String.ofList p.row)
    return ⟨sheet, String.ofList (p.column.map Char.toUpper), p.columnFixed, row, p.rowFixed⟩

/-! ### Moving -/

/-- The number of the column of a reference. -/
def columnNumber (r : CellRef) : Except Failure Nat := Reference.columnNumber r.column

/-- The reference moved down by a number of rows. -/
def down (r : CellRef) (rows : Int) : CellRef := { r with row := r.row + rows }

/-- The reference moved to the right by a number of columns. -/
def right (r : CellRef) (columns : Int) : Except Failure CellRef := do
  let n ← r.columnNumber
  let column ← Reference.columnName (n + columns)
  return { r with column }

/-- The written reference moved by a number of rows and columns. -/
def shift (s : String) (rows columns : Int) : Except Failure String := do
  let r := (← parse s).down rows
  if columns = 0 then r.write
  else (← r.right columns).write

/-- The written reference one row below. -/
def nextRow (s : String) : Except Failure String := shift s 1 0

/-- The written reference one column to the right. -/
def nextColumn (s : String) : Except Failure String := shift s 0 1

/-- Does the cell lie in the rectangle between two corners, edges included? -/
def within (r first last : CellRef) : Except Failure Bool := do
  let column ← r.columnNumber
  if first.row ≤ r.row ∧ r.row ≤ last.row then
    if (← first.columnNumber) ≤ column then
      return column ≤ (← last.columnNumber)
    else return false
  else return false

end CellRef
end Gridfill

import Gridfill.Reference.Cell

/-!
# Ranges

A rectangle of cells such as `A1:C5` or `'My Sheet'!$A$1:$C$5`, named by two corners. The sheet in
front of the last exclamation mark belongs to the whole range and is kept in the start corner.
-/

namespace Gridfill

/-- A rectangle of cells between two corners. -/
structure CellRange where
  start : CellRef
  stop : CellRef
deriving DecidableEq, Repr

namespace CellRange

/-- The written form of a range. -/
def text (r : CellRange) : String := r.start.text ++ ":" ++ r.stop.text

/-- The written form of a range, unless one of its rows has too many digits. -/
def write (r : CellRange) : Except Failure String := do
  let start ← r.start.write
  let stop ← r.stop.write
  return start ++ ":" ++ stop

/-- A failure to read a corner is a failure to read the range. -/
def cornerFailure (s : String) : Failure → Failure
  | .reference _ _ => .reference .range s
  | f => f

/-- Reads a corner of the range `s`. -/
def parseCorner (s : String) (corner : List Char) : Except Failure CellRef :=
  match CellRef.parse (String.ofList corner) with
  | .ok r => .ok r
  | .error f => .error (cornerFailure s f)

/-- The range that a text spells. -/
def parse (s : String) : Except Failure CellRange :=
  let (sheet, body) := Text.cutAtLast '!' s.toList
  match Text.fields ':' body with
  | [first, last] => do
    let start ← parseCorner s first
    let stop ← parseCorner s last
    match sheet with
    | some q => return ⟨{ start with sheet := some (String.ofList q) }, stop⟩
    | none => return ⟨start, stop⟩
  | _ => .error (.reference .range s)

/-- Is the text written like a range: is there a colon behind the last exclamation mark? -/
def looksLike (s : String) : Bool := (Text.cutAtLast '!' s.toList).2.contains ':'

/-- The range moved down by a number of rows. -/
def down (r : CellRange) (rows : Int) : CellRange := ⟨r.start.down rows, r.stop.down rows⟩

/-- Does the range hold the cell? -/
def holds (r : CellRange) (cell : CellRef) : Except Failure Bool := cell.within r.start r.stop

/-- The number of columns of a range. -/
def width (r : CellRange) : Except Failure Int := do
  let last ← r.stop.columnNumber
  let first ← r.start.columnNumber
  return (last : Int) - first + 1

end CellRange

/-- Is the text a reference to a cell or a range? -/
def isReference (s : String) : Except Failure Bool :=
  let outcome : Except Failure Unit :=
    if CellRange.looksLike s then (CellRange.parse s).map fun _ => ()
    else (CellRef.parse s).map fun _ => ()
  match outcome with
  | .ok _ => .ok true
  | .error (.reference _ _) => .ok false
  | .error f => .error f

end Gridfill

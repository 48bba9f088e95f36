import Gridfill.Failure
import Gridfill.Value.Basic

/-!
# The text of a value

How a value reads when it stands inside a longer text, and in which form it goes into a cell of its
own. An integer with too many digits has no text; any other value has one.
-/

namespace Gridfill

open Number (Double Decimal)

/-- A number that has a text. -/
inductive NumberValue where
  | int (n : Int)
  | float (x : Double)
  | decimal (d : Decimal)

/-- The text of a number: a whole floating point number is written as an integer, any other in its
shortest form. -/
def NumberValue.text : NumberValue → Except Failure String
  | .int n => writeInteger n
  | .float x =>
    match x.toInt? with
    | some n => writeInteger n
    | none => .ok x.text
  | .decimal d => .ok d.text

namespace Value

/-- The number that a value is; a truth value is none. -/
def number? : Value → Option NumberValue
  | .int n => some (.int n)
  | .float x => some (.float x)
  | .decimal d => some (.decimal d)
  | _ => none

/-- The text of a value that is no number. -/
def words : Value → String
  | .bool b => if b then "TRUE" else "FALSE"
  | .text s => s
  | .date d => d.text
  | .moment m => m.text
  | .clock r => r.text
  | _ => ""

/-- The text of a value inside a longer text. -/
def toText (v : Value) : Except Failure String :=
  match v.number? with
  | some n => n.text
  | none => .ok v.words

/-- The serial day number of a date or a moment. -/
def serial? : Value → Option Double
  | .date d => some (Double.ofInt d.serial)
  | .moment m => some m.serial
  | _ => none

end Value

/-- The form in which a cell holds a value. -/
inductive CellForm where
  | flag (b : Bool)
  | number (text : String)
  | text (s : String)
deriving DecidableEq, Repr

/-- The form in which a cell holds the value: numbers and dates as numbers, everything that is neither
a number nor a truth value as a text. -/
def Value.cellForm (v : Value) : Except Failure CellForm :=
  match v with
  | .bool b => .ok (.flag b)
  | v =>
    match v.number?.or (v.serial?.map .float) with
    | some n => n.text.map .number
    | none => .ok (.text v.words)

end Gridfill

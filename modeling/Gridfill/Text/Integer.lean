import Gridfill.Text.Blank
import Gridfill.Text.Digit

/-!
# Integers in texts

Reading a decimal integer: blanks around it, one sign, decimal digits of any script, and single
underscores between digits. A number of more than 4300 digits is refused, and so is writing one.
-/

namespace Gridfill.Text

/-- Why a text is not read as an integer, or an integer is not written. -/
inductive IntegerFault where
  | malformed
  | tooLong (digits : Nat)
  | unwritable
deriving DecidableEq, Repr

/-- The most digits that a number may have. -/
def maxDigits : Nat := 4300

/-- The first number with more digits than that. -/
def integerBound : Nat := Nat.pow 10 maxDigits

/-- Does the text begin with a decimal digit? -/
def startsWithDigit : List Char → Bool
  | [] => false
  | c :: _ => (decimalValue? c).isSome

/-- A run of digits with single underscores between them: the digit values and the rest of the text.
Any other character ends the run. -/
def digitRun : List Char → List Nat × List Char
  | [] => ([], [])
  | c :: cs =>
    match decimalValue? c with
    | none => ([], c :: cs)
    | some d =>
      match cs with
      | [] => ([d], [])
      | u :: rest =>
        let r := if u = '_' && startsWithDigit rest then digitRun rest else digitRun (u :: rest)
        (d :: r.1, r.2)

/-- The number with the given digits, the most significant first. -/
def ofDigits (ds : List Nat) : Nat := ds.foldl (fun n d => n * 10 + d) 0

/-- The sign in front of a number, as whether it is negative, and the rest. -/
def readSign : List Char → Bool × List Char
  | '-' :: cs => (true, cs)
  | '+' :: cs => (false, cs)
  | cs => (false, cs)

/-- The integer that a text spells. -/
def readInteger (cs : List Char) : Except IntegerFault Int :=
  let (negative, body) := readSign (trim isNumberBlank cs)
  match digitRun body with
  | (ds, rest) =>
    if maxDigits < ds.length then .error (.tooLong ds.length)
    else if ds.isEmpty || !rest.isEmpty then .error .malformed
    else .ok (if negative then -(ofDigits ds : Int) else (ofDigits ds : Int))

/-- The decimal digits of a natural number. -/
def decimal (n : Nat) : List Char := Nat.toDigits 10 n

end Gridfill.Text

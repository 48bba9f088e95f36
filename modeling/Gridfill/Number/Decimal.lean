import Gridfill.Number.Double

/-!
# Decimal numbers

Decimal floating point numbers of any length: a finite one is `± coefficient · 10 ^ exponent` and
keeps the exponent it was written with, so `1.50` and `1.5` are two numbers. Not-a-number comes in a
quiet and a signaling kind and may carry digits.
-/

namespace Gridfill.Number

/-- A decimal number. -/
inductive Decimal where
  | finite (negative : Bool) (coefficient : Nat) (exponent : Int)
  | infinite (negative : Bool)
  | notANumber (negative signaling : Bool) (payload : List Nat)
deriving DecidableEq, Repr

namespace Decimal

/-- Not-a-number written with the word `word`, followed by digits that tell such values apart. -/
def readWord? (word : String) (cs : List Char) : Option (List Nat) :=
  let n := word.length
  if String.ofList ((cs.take n).map Char.toLower) = word then
    match Text.digitRun (cs.drop n) with
    | (ds, []) => some (ds.dropWhile (· = 0))
    | _ => none
  else none

/-- The decimal number that a text spells. Underscores are skipped. -/
def read? (s : String) : Option Decimal :=
  let (negative, body) := Text.readSign ((Text.strip s.toList).filter (· ≠ '_'))
  if Double.isWord ["inf", "infinity"] body then some (.infinite negative)
  else
    match readWord? "nan" body, readWord? "snan" body with
    | some ds, _ => some (.notANumber negative false ds)
    | none, some ds => some (.notANumber negative true ds)
    | none, none => (Double.readNumeral body).map fun n =>
      .finite negative (Text.ofDigits (n.whole ++ n.fraction)) (n.exponent - n.fraction.length)

/-- An exponent with its sign. -/
def exponentText (e : Int) : List Char :=
  'E' :: (if e < 0 then '-' else '+') :: Nat.toDigits 10 e.natAbs

/-- The digits of a coefficient with the point and the exponent. The number is positional when its
exponent is not positive and its leading digit stands at the sixth place after the point or before
it, and has one digit before the point and an exponent otherwise. -/
def finiteText (coefficient : Nat) (exponent : Int) : List Char :=
  let ds := Nat.toDigits 10 coefficient
  let left : Int := exponent + ds.length
  let point : Int := if exponent ≤ 0 && -6 < left then left else 1
  let digits :=
    if point ≤ 0 then '0' :: '.' :: List.replicate point.natAbs '0' ++ ds
    else if ds.length ≤ point.natAbs then
      ds ++ List.replicate (point.natAbs - ds.length) '0'
    else ds.take point.natAbs ++ '.' :: ds.drop point.natAbs
  digits ++ (if left = point then [] else exponentText (left - point))

/-- The text of a decimal number. -/
def text (d : Decimal) : String :=
  let signed (negative : Bool) (cs : List Char) := String.ofList (if negative then '-' :: cs else cs)
  match d with
  | .finite s c e => signed s (finiteText c e)
  | .infinite s => signed s "Infinity".toList
  | .notANumber s signaling payload =>
    signed s ((if signaling then "sNaN" else "NaN").toList ++ payload.flatMap (Nat.toDigits 10))

end Decimal
end Gridfill.Number

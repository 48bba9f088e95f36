import Gridfill.Text.Blank
import Gridfill.Text.Digit
import Gridfill.Text.Integer

/-!
# Binary floating point numbers

The 64-bit binary numbers, as exact values: a finite number is `± mantissa · 2 ^ exponent` with a
mantissa below `2 ^ 53` and an exponent of at least `-1074`. Arithmetic is exact arithmetic on ratios
followed by one rounding to the nearest such number, a tie going to the even mantissa
(`Double.ofRatio`).
-/

namespace Gridfill.Number

/-- A power of two. -/
def twoTo (n : Nat) : Nat := Nat.pow 2 n

/-- A power of ten. -/
def tenTo (n : Nat) : Nat := Nat.pow 10 n

/-- The natural number nearest to a quotient; of two equally near, the even one. -/
def roundHalfEven (num den : Nat) : Nat :=
  let q := num / den
  let r := num % den
  if 2 * r < den then q
  else if den < 2 * r then q + 1
  else if q % 2 = 0 then q else q + 1

/-- A 64-bit binary floating point number. -/
inductive Double where
  | finite (negative : Bool) (mantissa : Nat) (exponent : Int)
  | infinite (negative : Bool)
  | notANumber
deriving DecidableEq, Repr

namespace Double

/-- The number zero. -/
def zero (negative : Bool) : Double := .finite negative 0 (-1074)

/-- A number times a power of two, as a ratio. -/
def scaled (m : Nat) (e : Int) : Nat × Nat :=
  if e < 0 then (m, twoTo e.natAbs) else (m * twoTo e.natAbs, 1)

/-- The floating point number nearest to `± num / den`. -/
def ofRatio (negative : Bool) (num den : Nat) : Double :=
  if num = 0 then zero negative
  else
    let low : Int := (Nat.log2 num : Int) - (Nat.log2 den : Int) - 53
    let quotient (e : Int) : Nat × Nat :=
      if e < 0 then (num * twoTo e.natAbs, den) else (num, den * twoTo e.natAbs)
    let q := quotient low
    let e := max (-1074) (if twoTo 53 ≤ q.1 / q.2 then low + 1 else low)
    let r := quotient e
    let m := roundHalfEven r.1 r.2
    let (m, e) := if m = twoTo 53 then (twoTo 52, e + 1) else (m, e)
    if 971 < e then .infinite negative else .finite negative m e

/-- The floating point number nearest to an integer. -/
def ofInt (n : Int) : Double := ofRatio (n < 0) n.natAbs 1

/-- The quotient of two natural numbers, rounded. -/
def ofQuotient (num den : Nat) : Double := ofRatio false num den

/-- The sum of two numbers, rounded. -/
def add : Double → Double → Double
  | .notANumber, _ => .notANumber
  | _, .notANumber => .notANumber
  | .infinite s, .infinite t => if s = t then .infinite s else .notANumber
  | .infinite s, .finite .. => .infinite s
  | .finite .., .infinite t => .infinite t
  | .finite s m e, .finite t n f =>
    let g := min e f
    let a : Int := (m * twoTo (e - g).natAbs : Nat)
    let b : Int := (n * twoTo (f - g).natAbs : Nat)
    let total := (if s then -a else a) + (if t then -b else b)
    if total = 0 then zero (s && t)
    else
      let (num, den) := scaled total.natAbs g
      ofRatio (total < 0) num den

/-- The integer that a number is equal to, when there is one. -/
def toInt? : Double → Option Int
  | .finite s m e =>
    let (num, den) := scaled m e
    if num % den = 0 then
      let n : Int := (num / den : Nat)
      some (if s then -n else n)
    else none
  | _ => none

/-! ### Reading -/

/-- A decimal numeral: the digits before the point, the digits after it and the exponent. -/
structure Numeral where
  whole : List Nat
  fraction : List Nat
  exponent : Int
deriving DecidableEq, Repr

/-- The exponent part of a numeral, when the whole of the text is one. -/
def readExponent : List Char → Option Int
  | [] => some 0
  | c :: cs =>
    if c = 'e' ∨ c = 'E' then
      let (negative, body) := Text.readSign cs
      match Text.digitRun body with
      | (d :: ds, []) =>
        let n : Int := Text.ofDigits (d :: ds)
        some (if negative then -n else n)
      | _ => none
    else none

/-- A numeral without a sign. -/
def readNumeral (cs : List Char) : Option Numeral :=
  let (whole, rest) := Text.digitRun cs
  let (fraction, rest) := match rest with
    | '.' :: more => Text.digitRun more
    | _ => ([], rest)
  if whole.isEmpty && fraction.isEmpty then none
  else (readExponent rest).map fun e => ⟨whole, fraction, e⟩

/-- The floating point number nearest to a numeral. -/
def ofNumeral (negative : Bool) (n : Numeral) : Double :=
  let coefficient := Text.ofDigits (n.whole ++ n.fraction)
  let e := n.exponent - n.fraction.length
  let magnitude := e + (Nat.toDigits 10 coefficient).length
  if coefficient = 0 || magnitude < -400 then zero negative
  else if 400 < magnitude then .infinite negative
  else if e < 0 then ofRatio negative coefficient (tenTo e.natAbs)
  else ofRatio negative (coefficient * tenTo e.natAbs) 1

/-- Is the text one of the words, whatever the case of its letters? -/
def isWord (choices : List String) (cs : List Char) : Bool :=
  choices.contains (String.ofList (cs.map Char.toLower))

/-- The floating point number that a text spells. -/
def read? (s : String) : Option Double :=
  let (negative, body) := Text.readSign (Text.trim Text.isNumberBlank s.toList)
  if isWord ["inf", "infinity"] body then some (.infinite negative)
  else if isWord ["nan"] body then some .notANumber
  else (readNumeral body).map (ofNumeral negative)

/-! ### Writing -/

/-- The power of ten at or below a positive ratio. -/
def tenPower (num den : Nat) : Int :=
  if den ≤ num then ((Nat.toDigits 10 (num / den)).length : Int) - 1
  else
    let k := (Nat.toDigits 10 (den / num)).length - 1
    if den ≤ num * tenTo k then -(k : Int) else -(k : Int) - 1

/-- The set of ratios that round to a given number, between two multiples of `1 / den`. -/
structure Interval where
  low : Nat
  high : Nat
  den : Nat
  closed : Bool
deriving DecidableEq, Repr

/-- Does the interval hold the ratio? -/
def Interval.holds (i : Interval) (num den : Nat) : Bool :=
  let x := num * i.den
  if i.closed then i.low * den ≤ x && x ≤ i.high * den
  else i.low * den < x && x < i.high * den

/-- The interval of a finite number. Below a power of two the next number is half as far. -/
def interval (m : Nat) (e : Int) : Interval :=
  let (num, den) := scaled 1 (e - 2)
  let below := if m = twoTo 52 && -1074 < e then 1 else 2
  ⟨(4 * m - below) * num, (4 * m + 2) * num, den, m % 2 = 0⟩

/-- The point of the grid of multiples of `10 ^ k` that rounds to the number `m · 2 ^ e`, when one of
the two neighbours of the number does: the nearer, and of two equally near the even one. -/
def gridPoint? (m : Nat) (e k : Int) : Option Nat :=
  let v := scaled m e
  let (num, den) := if k < 0 then (v.1 * tenTo k.natAbs, v.2) else (v.1, v.2 * tenTo k.natAbs)
  let holds (c : Nat) : Bool :=
    if k < 0 then (interval m e).holds c (tenTo k.natAbs)
    else (interval m e).holds (c * tenTo k.natAbs) 1
  let low := num / den
  if holds low && holds (low + 1) then some (roundHalfEven num den)
  else if holds low then some low
  else if holds (low + 1) then some (low + 1)
  else none

/-- The shortest decimal `c · 10 ^ k` that rounds to the positive number `m · 2 ^ e`. -/
def shortest (m : Nat) (e : Int) : Nat × Int :=
  let (num, den) := scaled m e
  let top := tenPower num den
  let found := (List.range 17).findSome? fun (n : Nat) =>
    let k := top - n
    (gridPoint? m e k).map fun c => (c, k)
  found.getD (0, 0)

/-- The digits of a positive decimal without trailing zeros, and how many stand before the point. -/
def significant (c : Nat) (k : Int) : List Char × Int :=
  let ds := Nat.toDigits 10 c
  ((ds.reverse.dropWhile (· = '0')).reverse, ds.length + k)

/-- An exponent with its sign and at least two digits. -/
def exponentText (e : Int) : List Char :=
  let ds := Nat.toDigits 10 e.natAbs
  (if e < 0 then '-' else '+') :: (if ds.length < 2 then '0' :: ds else ds)

/-- A numeral with the given digits and `point` of them before the point. It is positional, with at
least one digit after the point, when its leading digit stands between the fourth place after the
point and the sixteenth before it, and has an exponent otherwise. -/
def numeralText (ds : List Char) (point : Int) : List Char :=
  if -4 < point && point ≤ 16 then
    if point ≤ 0 then '0' :: '.' :: List.replicate point.natAbs '0' ++ ds
    else
      let n := point.natAbs
      if ds.length ≤ n then ds ++ List.replicate (n - ds.length) '0' ++ ['.', '0']
      else ds.take n ++ '.' :: ds.drop n
  else
    match ds with
    | [] => ['0']
    | [d] => d :: 'e' :: exponentText (point - 1)
    | d :: rest => d :: '.' :: rest ++ 'e' :: exponentText (point - 1)

/-- The text of a floating point number: the fewest digits that read back as it. -/
def text : Double → String
  | .notANumber => "nan"
  | .infinite s => if s then "-inf" else "inf"
  | .finite s m e =>
    let body :=
      if m = 0 then ['0', '.', '0']
      else
        let (c, k) := shortest m e
        let (ds, point) := significant c k
        numeralText ds point
    String.ofList (if s then '-' :: body else body)

end Double
end Gridfill.Number

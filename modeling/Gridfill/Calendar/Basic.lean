import Gridfill.Text.Cut
import Gridfill.Text.Integer

/-!
# Dates and times of day

Calendar dates, times of day to the microsecond, readings of a clock, which may name their distance
from universal time, and moments, which are a date with a reading. Each has one written form:
`2024-01-31`, `12:30:00.000250`, `12:30:00+05:30`, `2024-01-31T12:30:00+05:30`.
-/

namespace Gridfill.Calendar

/-- The decimal digits of a number, filled up with zeros on the left. -/
def padded (width n : Nat) : List Char :=
  let ds := Text.decimal n
  List.replicate (width - ds.length) '0' ++ ds

/-- A number written with exactly `width` digits at the front of a text, and the rest. -/
def readPadded (width : Nat) (cs : List Char) : Option (Nat × List Char) :=
  let ds := cs.take width
  if ds.length = width && ds.all Char.isDigit then
    some (Text.ofDigits (ds.filterMap Text.decimalValue?), cs.drop width)
  else none

/-! ### Dates -/

/-- A date of the Gregorian calendar. -/
structure Date where
  year : Nat
  month : Nat
  day : Nat
deriving DecidableEq, Repr

namespace Date

/-- The written form of a date. -/
def chars (d : Date) : List Char :=
  padded 4 d.year ++ '-' :: padded 2 d.month ++ '-' :: padded 2 d.day

/-- The written form of a date. -/
def text (d : Date) : String := String.ofList d.chars

/-- A date at the front of a text, and the rest. -/
def readFront (cs : List Char) : Option (Date × List Char) := do
  let (year, cs) ← readPadded 4 cs
  let cs ← Text.dropLead? ['-'] cs
  let (month, cs) ← readPadded 2 cs
  let cs ← Text.dropLead? ['-'] cs
  let (day, cs) ← readPadded 2 cs
  return (⟨year, month, day⟩, cs)

/-- The date that a text spells. -/
def read? (s : String) : Option Date :=
  match readFront s.toList with
  | some (d, []) => some d
  | _ => none

/-- Does the year have a leap day? -/
def isLeap (year : Nat) : Bool := year % 4 = 0 && (year % 100 ≠ 0 || year % 400 = 0)

/-- The days of the year before the first of a month. -/
def daysBeforeMonth (year month : Nat) : Nat :=
  let lengths := [31, if isLeap year then 29 else 28, 31, 30, 31, 30, 31, 31, 30, 31, 30, 31]
  (lengths.take (month - 1)).foldl (· + ·) 0

/-- The number of a date when the first of January of the year one has number one. -/
def ordinal (d : Date) : Int :=
  let y : Int := (d.year : Int) - 1
  y * 365 + y / 4 - y / 100 + y / 400 + daysBeforeMonth d.year d.month + d.day

end Date

/-! ### Times of day -/

/-- A time of day. -/
structure Clock where
  hour : Nat
  minute : Nat
  second : Nat
  microsecond : Nat
deriving DecidableEq, Repr

namespace Clock

/-- The seconds since midnight, without the fraction. -/
def seconds (c : Clock) : Nat := c.hour * 3600 + c.minute * 60 + c.second

/-- The written form of a time of day; the fraction is left out when it is zero. -/
def chars (c : Clock) : List Char :=
  padded 2 c.hour ++ ':' :: padded 2 c.minute ++ ':' :: padded 2 c.second ++
    (if c.microsecond = 0 then [] else '.' :: padded 6 c.microsecond)

/-- A fraction of a second at the front of a text, in microseconds, and the rest. -/
def readFraction : List Char → Option (Nat × List Char)
  | '.' :: cs =>
    let ds := cs.takeWhile Char.isDigit
    if ds.isEmpty then none
    else
      let six := (ds ++ List.replicate 6 '0').take 6
      some (Text.ofDigits (six.filterMap Text.decimalValue?), cs.dropWhile Char.isDigit)
  | cs => some (0, cs)

/-- A time of day at the front of a text, and the rest. Seconds may be left out. -/
def readFront (cs : List Char) : Option (Clock × List Char) := do
  let (hour, cs) ← readPadded 2 cs
  let cs ← Text.dropLead? [':'] cs
  let (minute, cs) ← readPadded 2 cs
  match cs with
  | ':' :: cs =>
    let (second, cs) ← readPadded 2 cs
    let (microsecond, cs) ← readFraction cs
    return (⟨hour, minute, second, microsecond⟩, cs)
  | _ => return (⟨hour, minute, 0, 0⟩, cs)

end Clock

/-! ### Readings -/

/-- A reading of a clock: a time of day and, when it is known, the distance in seconds from universal
time. -/
structure Reading where
  clock : Clock
  offset : Option Int
deriving DecidableEq, Repr

namespace Reading

/-- The written form of a distance from universal time. -/
def offsetChars (offset : Int) : List Char :=
  let n := offset.natAbs
  (if offset < 0 then '-' else '+') :: padded 2 (n / 3600) ++ ':' :: padded 2 (n / 60 % 60) ++
    (if n % 60 = 0 then [] else ':' :: padded 2 (n % 60))

/-- The written form of a reading. -/
def chars (r : Reading) : List Char := r.clock.chars ++ r.offset.elim [] offsetChars

/-- The written form of a reading. -/
def text (r : Reading) : String := String.ofList r.chars

/-- The distance from universal time that a text spells; an empty text spells none. -/
def readOffset? : List Char → Option (Option Int)
  | [] => some none
  | ['Z'] => some (some 0)
  | sign :: cs =>
    if sign = '+' ∨ sign = '-' then
      match Clock.readFront cs with
      | some (c, []) =>
        let n : Int := c.seconds
        some (some (if sign = '-' then -n else n))
      | _ => none
    else none

/-- The reading that characters spell. -/
def readChars? (cs : List Char) : Option Reading := do
  let (clock, cs) ← Clock.readFront cs
  let offset ← readOffset? cs
  return ⟨clock, offset⟩

/-- The reading that a text spells. -/
def read? (s : String) : Option Reading := readChars? s.toList

end Reading

/-! ### Moments -/

/-- A date with a reading of the clock. -/
structure Moment where
  date : Date
  reading : Reading
deriving DecidableEq, Repr

namespace Moment

/-- The written form of a moment. -/
def text (m : Moment) : String := String.ofList (m.date.chars ++ 'T' :: m.reading.chars)

/-- The moment that a text spells. A date alone is its midnight. -/
def read? (s : String) : Option Moment := do
  let (date, cs) ← Date.readFront s.toList
  match cs with
  | [] => return ⟨date, ⟨⟨0, 0, 0, 0⟩, none⟩⟩
  | _ :: cs => return ⟨date, ← Reading.readChars? cs⟩

end Moment
end Gridfill.Calendar

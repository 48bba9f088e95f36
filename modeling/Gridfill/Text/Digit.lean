import Gridfill.Text.CodeRange

/-!
# Digits

Two notions of digit. A *decimal digit* has a value from zero to nine in a positional system of some
script; each script's ten digits are consecutive code points, so the table lists the zeros alone. A
*digit mark* is any character that shows a single digit: the decimal digits and also superscripts,
subscripts and circled digits, which have no place in a positional number.
-/

namespace Gridfill.Text

/-- The code points of the zeros of all scripts. -/
def decimalZeros : List Nat :=
  [48, 1632, 1776, 1984, 2406, 2534, 2662, 2790, 2918, 3046, 3174, 3302, 3430, 3558, 3664, 3792,
   3872, 4160, 4240, 6112, 6160, 6470, 6608, 6784, 6800, 6992, 7088, 7232, 7248, 42528, 43216,
   43264, 43472, 43504, 43600, 44016, 65296, 66720, 68912, 69734, 69872, 69942, 70096, 70384, 70736,
   70864, 71248, 71360, 71472, 71904, 72016, 72784, 73040, 73120, 92768, 92864, 93008, 120782,
   120792, 120802, 120812, 120822, 123200, 123632, 125264, 130032]

/-- The value of a decimal digit of any script. -/
def decimalValue? (c : Char) : Option Nat :=
  (decimalZeros.find? fun z => z ≤ c.toNat && c.toNat < z + 10).map (c.toNat - ·)

/-- The code points of all digit marks. -/
def digitMarkRanges : List CodeRange :=
  [⟨48, 57⟩, ⟨178, 179⟩, ⟨185, 185⟩, ⟨1632, 1641⟩, ⟨1776, 1785⟩, ⟨1984, 1993⟩, ⟨2406, 2415⟩,
   ⟨2534, 2543⟩, ⟨2662, 2671⟩, ⟨2790, 2799⟩, ⟨2918, 2927⟩, ⟨3046, 3055⟩, ⟨3174, 3183⟩, ⟨3302, 3311⟩,
   ⟨3430, 3439⟩, ⟨3558, 3567⟩, ⟨3664, 3673⟩, ⟨3792, 3801⟩, ⟨3872, 3881⟩, ⟨4160, 4169⟩, ⟨4240, 4249⟩,
   ⟨4969, 4977⟩, ⟨6112, 6121⟩, ⟨6160, 6169⟩, ⟨6470, 6479⟩, ⟨6608, 6618⟩, ⟨6784, 6793⟩, ⟨6800, 6809⟩,
   ⟨6992, 7001⟩, ⟨7088, 7097⟩, ⟨7232, 7241⟩, ⟨7248, 7257⟩, ⟨8304, 8304⟩, ⟨8308, 8313⟩, ⟨8320, 8329⟩,
   ⟨9312, 9320⟩, ⟨9332, 9340⟩, ⟨9352, 9360⟩, ⟨9450, 9450⟩, ⟨9461, 9469⟩, ⟨9471, 9471⟩,
   ⟨10102, 10110⟩, ⟨10112, 10120⟩, ⟨10122, 10130⟩, ⟨42528, 42537⟩, ⟨43216, 43225⟩, ⟨43264, 43273⟩,
   ⟨43472, 43481⟩, ⟨43504, 43513⟩, ⟨43600, 43609⟩, ⟨44016, 44025⟩, ⟨65296, 65305⟩, ⟨66720, 66729⟩,
   ⟨68160, 68163⟩, ⟨68912, 68921⟩, ⟨69216, 69224⟩, ⟨69714, 69722⟩, ⟨69734, 69743⟩, ⟨69872, 69881⟩,
   ⟨69942, 69951⟩, ⟨70096, 70105⟩, ⟨70384, 70393⟩, ⟨70736, 70745⟩, ⟨70864, 70873⟩, ⟨71248, 71257⟩,
   ⟨71360, 71369⟩, ⟨71472, 71481⟩, ⟨71904, 71913⟩, ⟨72016, 72025⟩, ⟨72784, 72793⟩, ⟨73040, 73049⟩,
   ⟨73120, 73129⟩, ⟨92768, 92777⟩, ⟨92864, 92873⟩, ⟨93008, 93017⟩, ⟨120782, 120831⟩,
   ⟨123200, 123209⟩, ⟨123632, 123641⟩, ⟨125264, 125273⟩, ⟨127232, 127242⟩, ⟨130032, 130041⟩]

/-- Does the character show a single digit? -/
def isDigitMark (c : Char) : Bool := inRanges digitMarkRanges c

/-- Is the text a nonempty run of digit marks? -/
def isDigitRun (cs : List Char) : Bool := !cs.isEmpty && cs.all isDigitMark

end Gridfill.Text

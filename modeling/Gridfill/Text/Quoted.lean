import Gridfill.Text.Printable

/-!
# Quoted texts

The form in which messages show a text: between single quotes, or between double quotes when the text
holds a single quote and no double quote. The quote in use and the backslash are escaped by a
backslash, line feed, carriage return and tab by a letter, and every other character that does not
print by its code point in hexadecimal, in the shortest of three widths.
-/

namespace Gridfill.Text

/-- A hexadecimal digit below ten is a figure, any other a small letter. -/
def hexDigit (n : Nat) : Char := if n < 10 then Char.ofNat (48 + n) else Char.ofNat (87 + n)

/-- The lowest `width` hexadecimal digits of a number. -/
def hexDigits : Nat → Nat → List Char
  | 0, _ => []
  | width + 1, n => hexDigits width (n / 16) ++ [hexDigit (n % 16)]

/-- The quote that a text is shown in. -/
def quoteFor (cs : List Char) : Char :=
  if cs.contains '\'' && !cs.contains '"' then '"' else '\''

/-- A character by its code point in hexadecimal, in the shortest of three widths. -/
def escapedCode (c : Char) : List Char :=
  if c.toNat < 0x100 then '\\' :: 'x' :: hexDigits 2 c.toNat
  else if c.toNat < 0x10000 then '\\' :: 'u' :: hexDigits 4 c.toNat
  else '\\' :: 'U' :: hexDigits 8 c.toNat

/-- A character inside quotes. -/
def escaped (quote c : Char) : List Char :=
  if c = quote ∨ c = '\\' then ['\\', c]
  else if c = '\n' then ['\\', 'n']
  else if c = '\r' then ['\\', 'r']
  else if c = '\t' then ['\\', 't']
  else if isPrintable c then [c]
  else escapedCode c

/-- The text between quotes. -/
def quotedChars (cs : List Char) : List Char :=
  quoteFor cs :: cs.flatMap (escaped (quoteFor cs)) ++ [quoteFor cs]

/-- The text between quotes. -/
def quoted (s : String) : String := String.ofList (quotedChars s.toList)

/-- The text between quotes, or the word for no text. -/
def quotedOr (absent : String) : Option String → String
  | none => absent
  | some s => quoted s

end Gridfill.Text

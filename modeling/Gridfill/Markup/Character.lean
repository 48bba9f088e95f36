/-!
# The characters of documents

Which characters may stand in a document at all, which are blanks between its parts, and which may
begin or continue a name. Names are read without colons; a colon separates a short form from a label.
-/

namespace Gridfill.Markup

/-- May the character stand in a document? -/
def isAllowed (c : Char) : Bool :=
  let n := c.toNat
  n = 0x9 || n = 0xA || n = 0xD || (0x20 ≤ n && n ≤ 0xD7FF) || (0xE000 ≤ n && n ≤ 0xFFFD) ||
    0x10000 ≤ n

/-- May the text stand in a document? -/
def isAllowedText (s : String) : Bool := s.toList.all isAllowed

/-- Is the character white space between the parts of a document? -/
def isSpace (c : Char) : Bool := c = ' ' || c = '\n' || c = '\t' || c = '\r'

/-- The code points that may begin a name, letters of the basic alphabet and the underscore apart. -/
def nameStartRanges : List (Nat × Nat) :=
  [(0xC0, 0xD6), (0xD8, 0xF6), (0xF8, 0x2FF), (0x370, 0x37D), (0x37F, 0x1FFF), (0x200C, 0x200D),
   (0x2070, 0x218F), (0x2C00, 0x2FEF), (0x3001, 0xD7FF), (0xF900, 0xFDCF), (0xFDF0, 0xFFFD),
   (0x10000, 0xEFFFF)]

/-- May the character begin a name? -/
def isNameStart (c : Char) : Bool :=
  c.isAlpha || c = '_' || nameStartRanges.any fun r => r.1 ≤ c.toNat && c.toNat ≤ r.2

/-- May the character stand in a name? -/
def isNameChar (c : Char) : Bool :=
  isNameStart c || c.isDigit || c = '-' || c = '.' || c.toNat = 0xB7 ||
    (0x300 ≤ c.toNat && c.toNat ≤ 0x36F) || (0x203F ≤ c.toNat && c.toNat ≤ 0x2040)

end Gridfill.Markup

import Gridfill.Text.CodeRange

/-!
# Blanks

The characters that count as white space around and between words, and the text without those at its
ends. The information separators U+001C to U+001F are blanks of text but not of numbers.
-/

namespace Gridfill.Text

/-- The code points of all blanks. -/
def blankRanges : List CodeRange :=
  [⟨9, 13⟩, ⟨28, 32⟩, ⟨133, 133⟩, ⟨160, 160⟩, ⟨5760, 5760⟩, ⟨8192, 8202⟩, ⟨8232, 8233⟩,
   ⟨8239, 8239⟩, ⟨8287, 8287⟩, ⟨12288, 12288⟩]

/-- Is the character white space? -/
def isBlank (c : Char) : Bool := inRanges blankRanges c

/-- Is the character white space that may surround a number? -/
def isNumberBlank (c : Char) : Bool := isBlank c && !(28 ≤ c.toNat && c.toNat ≤ 31)

/-- The text without the leading and trailing characters of a class. -/
def trim (p : Char → Bool) (cs : List Char) : List Char :=
  ((cs.dropWhile p).reverse.dropWhile p).reverse

/-- The text without the blanks at its ends. -/
def strip (cs : List Char) : List Char := trim isBlank cs

/-- The words of a text: its maximal runs of characters that are not blank. -/
def words : List Char → List (List Char)
  | [] => []
  | c :: cs =>
    if isBlank c then words cs
    else match cs with
      | [] => [[c]]
      | d :: _ =>
        if isBlank d then [c] :: words cs
        else match words cs with
          | [] => [[c]]
          | w :: ws => (c :: w) :: ws

end Gridfill.Text

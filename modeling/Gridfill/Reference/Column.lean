import Gridfill.Failure
import Gridfill.Text.Letter
import Gridfill.Text.Uppercase

/-!
# Column letters

Columns are numbered from one and named by letters in bijective base 26, which has no digit for zero:
`A` is 1, `Z` is 26 and `AA` is 27. Each letter counts by its distance from the letter before `A`.
-/

namespace Gridfill.Reference

/-- The letters of a column number; zero has none. -/
def columnLetters (n : Nat) : List Char :=
  if _h : n = 0 then []
  else columnLetters ((n - 1) / 26) ++ [Char.ofNat (65 + (n - 1) % 26)]
termination_by n
decreasing_by omega

theorem columnLetters_zero : columnLetters 0 = [] := by
  unfold columnLetters
  simp

theorem columnLetters_pos {n : Nat} (h : n ≠ 0) :
    columnLetters n = columnLetters ((n - 1) / 26) ++ [Char.ofNat (65 + (n - 1) % 26)] := by
  rw [columnLetters]
  simp [h]

/-- The number that capital letters name. -/
def lettersNumber (cs : List Char) : Nat := cs.foldl (fun n c => n * 26 + (c.toNat - 64)) 0

/-- The number of the column that letters of either case name. -/
def columnNumber (letters : String) : Except Failure Nat :=
  let cs := letters.toList
  if cs.isEmpty || !cs.all Text.isLetter then .error (.reference .column letters)
  else .ok (lettersNumber (Text.uppercase cs))

/-- The letters that name a column. -/
def columnName (n : Int) : Except Failure String :=
  if n < 1 then .error (.reference .column (toString n))
  else .ok (String.ofList (columnLetters n.toNat))

end Gridfill.Reference

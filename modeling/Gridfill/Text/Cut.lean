/-!
# Cutting texts

Functions that cut a text at a separator or look for one text in another. The two pieces around a
single separator give the text back (`cutAtFirst_join`, `cutAtLast_join`).
-/

namespace Gridfill.Text

/-! ### At one separator -/

/-- The text before the first separator and, when there is one, the text after it. -/
def cutAtFirst (sep : Char) : List Char → List Char × Option (List Char)
  | [] => ([], none)
  | c :: cs =>
    if c = sep then ([], some cs)
    else
      let r := cutAtFirst sep cs
      (c :: r.1, r.2)

theorem cutAtFirst_join (sep : Char) (cs : List Char) :
    (cutAtFirst sep cs).1 ++ ((cutAtFirst sep cs).2.elim [] (sep :: ·)) = cs := by
  induction cs with
  | nil => rfl
  | cons c cs ih =>
    by_cases h : c = sep
    · simp [cutAtFirst, h]
    · simp [cutAtFirst, h, ih]

/-- The text before the last separator, when there is one, and the text after it. -/
def cutAtLast (sep : Char) : List Char → Option (List Char) × List Char
  | [] => (none, [])
  | c :: cs =>
    match cutAtLast sep cs with
    | (some before, after) => (some (c :: before), after)
    | (none, after) => if c = sep then (some [], after) else (none, c :: after)

theorem cutAtLast_join (sep : Char) (cs : List Char) :
    (cutAtLast sep cs).1.elim [] (· ++ [sep]) ++ (cutAtLast sep cs).2 = cs := by
  induction cs with
  | nil => rfl
  | cons c cs ih =>
    unfold cutAtLast
    split
    · next before after h => simpa [h] using ih
    · next after h =>
      rw [h] at ih
      by_cases hc : c = sep
      · simpa [hc] using ih
      · simpa [hc] using ih

/-! ### At every separator -/

/-- The pieces between the separators; a text without separator is one piece. -/
def fields (sep : Char) : List Char → List (List Char)
  | [] => [[]]
  | c :: cs =>
    if c = sep then [] :: fields sep cs
    else match fields sep cs with
      | [] => [[c]]
      | f :: fs => (c :: f) :: fs

/-- The pieces with a separator between each two. -/
def joinWith (sep : List Char) : List (List Char) → List Char
  | [] => []
  | [f] => f
  | f :: g :: fs => f ++ sep ++ joinWith sep (g :: fs)

/-! ### Looking for a text -/

/-- The text after a leading piece, when the text begins with it. -/
def dropLead? : List Char → List Char → Option (List Char)
  | [], cs => some cs
  | _ :: _, [] => none
  | p :: ps, c :: cs => if p = c then dropLead? ps cs else none

theorem dropLead?_eq_some {ps cs rest : List Char} (h : dropLead? ps cs = some rest) :
    cs = ps ++ rest := by
  induction ps generalizing cs with
  | nil => simpa [dropLead?] using h
  | cons p ps ih =>
    cases cs with
    | nil => simp [dropLead?] at h
    | cons c cs =>
      by_cases hp : p = c
      · simp only [dropLead?, hp, if_true] at h
        rw [ih h, hp, List.cons_append]
      · simp [dropLead?, hp] at h

theorem dropLead?_append (ps rest : List Char) : dropLead? ps (ps ++ rest) = some rest := by
  induction ps with
  | nil => rfl
  | cons p ps ih => simp [dropLead?, ih]

/-- The texts before and after the first place where `piece` stands. -/
def find? (piece : List Char) : List Char → Option (List Char × List Char)
  | [] => if piece.isEmpty then some ([], []) else none
  | c :: cs =>
    match dropLead? piece (c :: cs) with
    | some rest => some ([], rest)
    | none => (find? piece cs).map fun r => (c :: r.1, r.2)

/-- Does the piece stand somewhere in the text? -/
def contains (piece cs : List Char) : Bool := (find? piece cs).isSome

/-- The text with the first place where `old` stands overwritten by `new`. -/
def replaceFirst (old new cs : List Char) : List Char :=
  match find? old cs with
  | some (before, after) => before ++ new ++ after
  | none => cs

/-- The text with each doubled character `q` written once. -/
def undouble (q : Char) : List Char → List Char
  | [] => []
  | c :: cs =>
    if c = q then
      match cs with
      | [] => [q]
      | d :: ds => if d = q then q :: undouble q ds else q :: undouble q (d :: ds)
    else c :: undouble q cs

end Gridfill.Text

import Gridfill.Reference.Column

/-!
# Column letters and column numbers

Naming a column by capital letters and counting its letters undo each other
(`lettersNumber_columnLetters`, `columnLetters_lettersNumber`). A column has at most three letters
exactly when it is not behind `ZZZ` (`columnLetters_length_le_three_iff`).
-/

namespace Gridfill.Reference

/-! ### Capital letters -/

/-- Is the character one of the letters `A` to `Z`? -/
def IsCapital (c : Char) : Prop := 65 ≤ c.toNat ∧ c.toNat ≤ 90

theorem toNat_letter (k : Nat) : (Char.ofNat (65 + k % 26)).toNat = 65 + k % 26 := by
  have all : ∀ m < 26, (Char.ofNat (65 + m)).toNat = 65 + m := by decide
  exact all (k % 26) (Nat.mod_lt _ (by decide))

theorem isCapital_letter (k : Nat) : IsCapital (Char.ofNat (65 + k % 26)) := by
  have hk : k % 26 < 26 := Nat.mod_lt _ (by decide)
  rw [IsCapital, toNat_letter]
  omega

theorem letter_of_isCapital {c : Char} (h : IsCapital c) : Char.ofNat (65 + (c.toNat - 65)) = c := by
  rw [Nat.add_sub_cancel' h.1, Char.ofNat_toNat]

theorem IsCapital.isLetter {c : Char} (h : IsCapital c) : Text.isLetter c = true :=
  (Text.inRanges_iff _ _).mpr ⟨⟨65, 90⟩, by unfold Text.letterRanges; exact List.mem_cons_self, h⟩

theorem no_capital_of_capital : ∀ k < 26, Text.capitalExpansions.lookup (65 + k) = none ∧
    Text.capitalRuns.find? (·.holds (65 + k)) = none := by
  decide +kernel

theorem IsCapital.capital {c : Char} (h : IsCapital c) : Text.capital c = [c] := by
  obtain ⟨h1, h2⟩ := h
  obtain ⟨he, hr⟩ := no_capital_of_capital (c.toNat - 65) (by omega)
  rw [Nat.add_sub_cancel' h1] at he hr
  simp only [Text.capital, he, hr]

/-- Capital letters stay as they are in capitals. -/
theorem uppercase_capitals : ∀ {cs : List Char}, (∀ c ∈ cs, IsCapital c) → Text.uppercase cs = cs
  | [], _ => rfl
  | c :: cs, h => by
      have ih := uppercase_capitals fun d hd => h d (List.mem_cons_of_mem c hd)
      rw [Text.uppercase] at ih ⊢
      rw [List.flatMap_cons, (h c (by simp)).capital, ih]
      rfl

/-! ### There and back -/

theorem lettersNumber_append (cs : List Char) (c : Char) :
    lettersNumber (cs ++ [c]) = lettersNumber cs * 26 + (c.toNat - 64) := by
  simp [lettersNumber]

theorem columnLetters_capital (n : Nat) : ∀ c ∈ columnLetters n, IsCapital c := by
  induction n using Nat.strongRecOn with
  | _ n ih =>
      intro c hc
      by_cases h : n = 0
      · rw [h, columnLetters_zero] at hc
        cases hc
      · rw [columnLetters_pos h] at hc
        rcases List.mem_append.mp hc with hc | hc
        · exact ih ((n - 1) / 26) (by omega) c hc
        · rw [List.mem_singleton.mp hc]
          exact isCapital_letter (n - 1)

theorem columnLetters_ne_nil {n : Nat} (h : n ≠ 0) : columnLetters n ≠ [] := by
  rw [columnLetters_pos h]
  simp

/-- The letters of a column count up to its number. -/
theorem lettersNumber_columnLetters (n : Nat) : lettersNumber (columnLetters n) = n := by
  induction n using Nat.strongRecOn with
  | _ n ih =>
      by_cases h : n = 0
      · rw [h, columnLetters_zero]
        rfl
      · have hr := Nat.div_add_mod (n - 1) 26
        rw [columnLetters_pos h, lettersNumber_append, ih ((n - 1) / 26) (by omega), toNat_letter]
        omega

theorem columnLetters_injective {m n : Nat} (h : columnLetters m = columnLetters n) : m = n := by
  rw [← lettersNumber_columnLetters m, h, lettersNumber_columnLetters]

/-- Capital letters are the name of the column that they count up to. -/
theorem columnLetters_lettersNumber (cs : List Char) (h : ∀ c ∈ cs, IsCapital c) :
    columnLetters (lettersNumber cs) = cs := by
  induction hn : cs.length generalizing cs with
  | zero =>
      rw [List.length_eq_zero_iff.mp hn]
      exact columnLetters_zero
  | succ n ih =>
      obtain ⟨ds, c, rfl⟩ : ∃ ds c, cs = ds ++ [c] :=
        ⟨cs.dropLast, cs.getLast (by rintro rfl; simp at hn), (List.dropLast_concat_getLast _).symm⟩
      obtain ⟨h1, h2⟩ := h c (by simp)
      have hd : ∀ d ∈ ds, IsCapital d := fun d hd => h d (by simp [hd])
      have hlen : ds.length = n := by simpa using hn
      rw [lettersNumber_append, columnLetters_pos (by omega)]
      rw [show (lettersNumber ds * 26 + (c.toNat - 64) - 1) / 26 = lettersNumber ds by omega]
      rw [show (lettersNumber ds * 26 + (c.toNat - 64) - 1) % 26 = c.toNat - 65 by omega]
      rw [ih ds hd hlen, letter_of_isCapital ⟨h1, h2⟩]

theorem lettersNumber_pos {cs : List Char} (hne : cs ≠ []) (h : ∀ c ∈ cs, IsCapital c) :
    0 < lettersNumber cs := by
  apply Nat.pos_of_ne_zero
  intro e
  have := columnLetters_lettersNumber cs h
  rw [e, columnLetters_zero] at this
  exact hne this.symm

/-! ### Three letters -/

/-- The number of the column `ZZZ`. -/
def lastShortColumn : Nat := 18278

/-- The columns with at most three letters are those up to `ZZZ`. -/
theorem columnLetters_length_le_three_iff (n : Nat) :
    (columnLetters n).length ≤ 3 ↔ n ≤ lastShortColumn := by
  have zero (m : Nat) : (columnLetters m).length ≤ 0 ↔ m ≤ 0 := by
    by_cases h : m = 0
    · simp [h, columnLetters_zero]
    · rw [columnLetters_pos h]
      simp only [List.length_append, List.length_cons, List.length_nil]
      omega
  have step (m k b : Nat) (hb : ∀ m, (columnLetters m).length ≤ k ↔ m ≤ b) :
      (columnLetters m).length ≤ k + 1 ↔ m ≤ b * 26 + 26 := by
    by_cases h : m = 0
    · simp [h, columnLetters_zero]
    · rw [columnLetters_pos h, List.length_append, List.length_singleton, Nat.add_le_add_iff_right,
        hb]
      omega
  have one (m : Nat) := step m 0 0 zero
  have two (m : Nat) := step m 1 26 one
  exact step n 2 702 two

/-! ### Numbers of named columns -/

/-- The number of a column that capital letters name. -/
theorem columnNumber_capitals {cs : List Char} (hne : cs ≠ []) (h : ∀ c ∈ cs, IsCapital c) :
    columnNumber (String.ofList cs) = .ok (lettersNumber cs) := by
  have hl : cs.all Text.isLetter = true := List.all_eq_true.mpr fun c hc => (h c hc).isLetter
  have he : cs.isEmpty = false := by simpa using hne
  simp only [columnNumber, String.toList_ofList, he, hl, uppercase_capitals h, Bool.not_true,
    Bool.or_false, Bool.false_eq_true, if_false]

/-- A column that got its name by its number. -/
theorem columnName_eq_ok {n : Int} {s : String} (h : columnName n = .ok s) :
    1 ≤ n ∧ s = String.ofList (columnLetters n.toNat) := by
  unfold columnName at h
  split at h
  · cases h
  · next hn =>
    injection h with h
    exact ⟨Int.not_lt.mp hn, h.symm⟩

theorem columnName_ofNat {n : Nat} (h : 1 ≤ n) :
    columnName (n : Int) = .ok (String.ofList (columnLetters n)) := by
  unfold columnName
  rw [if_neg (by omega), Int.toNat_natCast]

theorem columnNumber_columnLetters {n : Nat} (h : 1 ≤ n) :
    columnNumber (String.ofList (columnLetters n)) = .ok n := by
  rw [columnNumber_capitals (columnLetters_ne_nil (by omega)) (columnLetters_capital n),
    lettersNumber_columnLetters]

end Gridfill.Reference

import Gridfill.Proofs.Text.Decimal

/-!
# Runs of digits as integers

A run of digit marks that reads as an integer is a run of decimal digits, of whatever script, no longer than a
number may be, and reads as the number that their values make (`isDigitRun_and_readInteger_iff`). Marks that have no
place in a number are no decimal digits, so a run of marks that does not read has one of them or is too long.
-/

namespace Gridfill.Text

/-- The characters are decimal digits of the given values, at least one of them. -/
structure Figures (cs : List Char) (ds : List Nat) : Prop where
  values : cs.map decimalValue? = ds.map some
  ne_nil : ds ≠ []

/-! ### Digit marks -/

/-- Decimal digits are digit marks. -/
theorem isDigitMark_of_decimalValue? {c : Char} {d : Nat} (h : decimalValue? c = some d) : isDigitMark c = true := by
  have listed : ∀ z ∈ decimalZeros, ∃ r ∈ digitMarkRanges, r.first ≤ z ∧ z + 9 ≤ r.last := by decide +kernel
  obtain ⟨z, hz, -⟩ := Option.map_eq_some_iff.mp h
  obtain ⟨r, hr, first, last⟩ := listed z (List.mem_of_find?_eq_some hz)
  have found := List.find?_some hz
  simp only [Bool.and_eq_true, decide_eq_true_eq] at found
  exact (inRanges_iff _ _).mpr ⟨r, hr, by omega, by omega⟩

/-- Digit marks are no blanks. -/
theorem isBlank_of_isDigitMark {c : Char} (h : isDigitMark c = true) : isBlank c = false := by
  have apart : ∀ r ∈ digitMarkRanges, ∀ b ∈ blankRanges, r.last < b.first ∨ b.last < r.first := by decide
  obtain ⟨r, hr, first, last⟩ := (inRanges_iff _ _).mp h
  rw [Bool.eq_false_iff]
  intro blank
  obtain ⟨b, hb, first', last'⟩ := (inRanges_iff _ _).mp blank
  rcases apart r hr b hb with lt | lt <;> omega

/-- The digit marks among the plain characters are the plain digits. -/
theorem isDigit_of_isDigitMark {c : Char} (h : isDigitMark c = true) (plain : c.toNat < 128) : c.isDigit = true := by
  have first_ : ∀ r ∈ digitMarkRanges, r.first < 128 → r = ⟨48, 57⟩ := by decide
  obtain ⟨r, hr, first, last⟩ := (inRanges_iff _ _).mp h
  obtain rfl := first_ r hr (by omega)
  simp only [Char.isDigit, Bool.and_eq_true, decide_eq_true_eq, UInt32.le_iff_toNat_le]
  exact ⟨first, last⟩

/-! ### Reading -/

section
variable {cs : List Char} {ds : List Nat}

theorem Figures.isDigitRun (h : Figures cs ds) : isDigitRun cs = true := by
  have ne : cs ≠ [] := by
    rintro rfl
    exact h.ne_nil (List.map_eq_nil_iff.mp h.values.symm)
  have marks : ∀ c ∈ cs, isDigitMark c = true := by
    intro c hc
    have value : decimalValue? c ∈ ds.map some := h.values ▸ List.mem_map_of_mem hc
    obtain ⟨d, -, hd⟩ := List.mem_map.mp value
    exact isDigitMark_of_decimalValue? hd.symm
  rw [Text.isDigitRun, Bool.and_eq_true_iff, List.all_eq_true]
  exact ⟨by simpa using ne, marks⟩

/-- A run of digit marks is read without anything taken off it. -/
theorem readSign_of_isDigitRun (h : isDigitRun cs = true) : readSign (trim isNumberBlank cs) = (false, cs) := by
  have marks : ∀ c ∈ cs, isDigitMark c = true := List.all_eq_true.mp (Bool.and_eq_true_iff.mp h).2
  rw [trim_eq_self fun c hc => isNumberBlank_of_not_isBlank (isBlank_of_isDigitMark (marks c hc))]
  unfold readSign
  split
  · exact absurd (marks '-' List.mem_cons_self) (by decide)
  · exact absurd (marks '+' List.mem_cons_self) (by decide)
  · rfl

/-- Figures read as the number that their values make, if they are not too many. -/
theorem Figures.readInteger (h : Figures cs ds) :
    readInteger cs = if maxDigits < ds.length then .error (.tooLong ds.length) else .ok (ofDigits ds) := by
  have ne : ds.isEmpty = false := by simpa using h.ne_nil
  rw [Text.readInteger, readSign_of_isDigitRun h.isDigitRun]
  simp only [digitRun_of_values h.values, ne, List.isEmpty_nil, Bool.not_true, Bool.or_false, Bool.false_eq_true,
    if_false]

/-- A run that is read to its end, without underscores, is one of decimal digits. -/
theorem values_of_digitRun : ∀ {cs : List Char}, (∀ c ∈ cs, c ≠ '_') → (digitRun cs).2 = [] →
    cs.map decimalValue? = (digitRun cs).1.map some
  | [], _, _ => rfl
  | c :: cs, plain, h => by
      have plain' : ∀ b ∈ cs, b ≠ '_' := fun b hb => plain b (List.mem_cons_of_mem c hb)
      rw [digitRun] at h ⊢
      cases hc : decimalValue? c with
      | none =>
          rw [hc] at h
          cases h
      | some d =>
          rw [hc] at h
          cases cs with
          | nil => simp [hc]
          | cons b cs =>
              have hb : b ≠ '_' := plain' b List.mem_cons_self
              simp only [hb, decide_false, Bool.false_and, Bool.false_eq_true, if_false] at h ⊢
              rw [List.map_cons, hc, values_of_digitRun plain' h, List.map_cons]

/-- A run of digit marks that reads as an integer is one of figures. -/
theorem exists_figures_of_readInteger {n : Int} (h : isDigitRun cs = true) (hn : readInteger cs = .ok n) :
    ∃ ds, Figures cs ds := by
  have plain : ∀ c ∈ cs, c ≠ '_' := by
    rintro c hc rfl
    exact absurd (List.all_eq_true.mp (Bool.and_eq_true_iff.mp h).2 '_' hc) (by decide)
  rw [readInteger, readSign_of_isDigitRun h] at hn
  simp only at hn
  split at hn
  · cases hn
  · split at hn
    · cases hn
    · next read =>
      simp only [Bool.or_eq_true, List.isEmpty_iff, Bool.not_eq_true', List.isEmpty_eq_false_iff, not_or, not_not] at read
      exact ⟨_, values_of_digitRun plain read.2, read.1⟩

/-- A run of digit marks reads as an integer when it is one of figures, not too many of them, that make it. -/
theorem isDigitRun_and_readInteger_iff {n : Int} : isDigitRun cs = true ∧ readInteger cs = .ok n ↔
    ∃ ds, Figures cs ds ∧ ds.length ≤ maxDigits ∧ n = ofDigits ds := by
  constructor
  · rintro ⟨h, hn⟩
    obtain ⟨ds, figures⟩ := exists_figures_of_readInteger h hn
    rw [figures.readInteger] at hn
    split at hn
    · cases hn
    · next short => exact ⟨ds, figures, Nat.not_lt.mp short, (Except.ok.inj hn).symm⟩
  · rintro ⟨ds, figures, short, rfl⟩
    exact ⟨figures.isDigitRun, by rw [figures.readInteger, if_neg (Nat.not_lt.mpr short)]⟩

/-- A run of digit marks among the plain characters is one of figures. -/
theorem exists_figures_of_plain (h : isDigitRun cs = true) (plain : ∀ c ∈ cs, c.toNat < 128) : ∃ ds, Figures cs ds := by
  obtain ⟨ne, marks⟩ := Bool.and_eq_true_iff.mp h
  refine ⟨cs.map fun c => c.toNat - 48, ?_, by simpa using ne⟩
  rw [List.map_map]
  exact List.map_congr_left fun c hc =>
    decimalValue?_of_isDigit (isDigit_of_isDigitMark (List.all_eq_true.mp marks c hc) (plain c hc))

end

end Gridfill.Text

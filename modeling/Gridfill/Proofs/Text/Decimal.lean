import Gridfill.Failure
import Gridfill.Proofs.Text.Pieces
import Mathlib.Algebra.GroupWithZero.Nat

/-!
# Integers that are written and read back

`writeInteger` refuses exactly the numbers that `parseInteger` would refuse to read, so a number that
was written reads back (`parseInteger_of_write`).
-/

namespace Gridfill

namespace Text

/-! ### Runs of digits -/

theorem isDigit_toNat {c : Char} (h : c.isDigit = true) : 48 ≤ c.toNat ∧ c.toNat ≤ 57 := by
  simp only [Char.isDigit, Bool.and_eq_true, decide_eq_true_eq, UInt32.le_iff_toNat_le] at h
  exact h

theorem decimalValue?_of_isDigit {c : Char} (h : c.isDigit = true) :
    decimalValue? c = some (c.toNat - 48) := by
  obtain ⟨h1, h2⟩ := isDigit_toNat h
  have h3 : c.toNat < 58 := Nat.lt_succ_of_le h2
  simp [decimalValue?, decimalZeros, h1, h3]

/-- A run of decimal digits of any script is read to its end. -/
theorem digitRun_of_values : ∀ {cs : List Char} {ds : List Nat}, cs.map decimalValue? = ds.map some →
    digitRun cs = (ds, [])
  | [], [], _ => rfl
  | [], d :: ds, h => by cases h
  | c :: cs, [], h => by cases h
  | [c], [d], h => by
      have hc : decimalValue? c = some d := (List.cons.inj h).1
      simp [digitRun, hc]
  | [c], d :: e :: ds, h => by cases (List.cons.inj h).2
  | c :: b :: cs, [d], h => by cases (List.cons.inj h).2
  | c :: b :: cs, d :: e :: ds, h => by
      obtain ⟨hc, h⟩ := List.cons.inj h
      have hb : b ≠ '_' := by
        rintro rfl
        have none : decimalValue? '_' = none := by decide
        exact Option.some_ne_none e ((List.cons.inj h).1.symm.trans none)
      have ih := @digitRun_of_values (b :: cs) (e :: ds) h
      rw [digitRun, hc]
      simp only [hb, decide_false, Bool.false_and, Bool.false_eq_true, if_false, ih]

/-- A run of plain digits is read to its end. -/
theorem digitRun_of_isDigit {cs : List Char} (h : ∀ c ∈ cs, c.isDigit = true) :
    digitRun cs = (cs.map fun c => c.toNat - 48, []) := by
  refine digitRun_of_values ?_
  rw [List.map_map]
  exact List.map_congr_left fun c hc => decimalValue?_of_isDigit (h c hc)

theorem ofDigits_decimal (n : Nat) : ofDigits ((decimal n).map fun c => c.toNat - 48) = n := by
  have h := Nat.ofDigitChars_ten_toDigits (n := n)
  rw [Nat.ofDigitChars_eq_foldl] at h
  rw [ofDigits, decimal, List.foldl_map]
  simp only [Nat.mul_comm _ 10]
  exact h

theorem isDigit_of_mem_decimal {n : Nat} {c : Char} (h : c ∈ decimal n) : c.isDigit = true :=
  Nat.isDigit_of_mem_toDigits (by decide) (by decide) h

theorem decimal_ne_nil (n : Nat) : decimal n ≠ [] := Nat.toDigits_ne_nil

theorem integerBound_eq : integerBound = 10 ^ maxDigits := by
  unfold integerBound
  -- for any exponent, so that none is evaluated
  generalize maxDigits = k
  rfl

/-- A number has at most 4300 digits exactly when it is below the bound. -/
theorem decimal_length_le_iff (n : Nat) : (decimal n).length ≤ maxDigits ↔ n < integerBound := by
  rw [integerBound_eq]
  exact Nat.length_toDigits_le_iff (by decide) (by decide)

theorem head?_decimal {n : Nat} (h : 1 ≤ n) : (decimal n).head? ≠ some '0' := by
  induction n using Nat.strongRecOn with
  | _ n ih =>
      rw [decimal, Nat.toDigits_eq_if (by decide)]
      split
      · next hn =>
        have all : ∀ m < 10, 1 ≤ m → [m.digitChar].head? ≠ some '0' := by decide
        exact all n hn h
      · next hn =>
        rw [List.head?_append]
        cases hd : (Nat.toDigits 10 (n / 10)).head? with
        | none => exact absurd (List.head?_eq_none_iff.mp hd) Nat.toDigits_ne_nil
        | some c =>
            rw [Option.some_or]
            intro e
            exact ih (n / 10) (by omega) (by omega) (hd.trans e)

theorem digitChar_of_isDigit {c : Char} (h : c.isDigit = true) : (c.toNat - 48).digitChar = c := by
  have key : ∀ k < 10, k.digitChar = Char.ofNat (48 + k) := by decide
  obtain ⟨h1, h2⟩ := isDigit_toNat h
  rw [key (c.toNat - 48) (by omega), Nat.add_sub_cancel' h1, Char.ofNat_toNat]

/-- Plain digits with no zero in front are the decimal text of a positive number. -/
theorem exists_eq_decimal {cs : List Char} (hne : cs ≠ []) (hd : ∀ c ∈ cs, c.isDigit = true)
    (h0 : cs.head? ≠ some '0') : ∃ n, 1 ≤ n ∧ cs = decimal n := by
  induction hn : cs.length generalizing cs with
  | zero => exact absurd (List.length_eq_zero_iff.mp hn) hne
  | succ n ih =>
      obtain ⟨ds, c, rfl⟩ : ∃ ds c, cs = ds ++ [c] :=
        ⟨cs.dropLast, cs.getLast hne, (List.dropLast_concat_getLast hne).symm⟩
      have hc := hd c (by simp)
      obtain ⟨hc1, hc2⟩ := isDigit_toNat hc
      by_cases hds : ds = []
      · subst hds
        refine ⟨c.toNat - 48, ?_, ?_⟩
        · have : c.toNat ≠ 48 := by
            intro e
            apply h0
            rw [List.nil_append, List.head?_cons, ← Char.ofNat_toNat c, e]
          omega
        · rw [decimal, Nat.toDigits_of_lt_base (by omega), digitChar_of_isDigit hc, List.nil_append]
      · have hhead : ds.head? ≠ some '0' := by
          obtain ⟨d, t, rfl⟩ := List.exists_cons_of_ne_nil hds
          simpa using h0
        obtain ⟨k, hk, e⟩ := ih hds (fun d hm => hd d (by simp [hm])) hhead (by simpa using hn)
        refine ⟨k * 10 + (c.toNat - 48), by omega, ?_⟩
        rw [decimal, Nat.toDigits_eq_if (by decide), if_neg (by omega),
          show (k * 10 + (c.toNat - 48)) / 10 = k by omega,
          show (k * 10 + (c.toNat - 48)) % 10 = c.toNat - 48 by omega, digitChar_of_isDigit hc, e]
        rfl

/-! ### Blanks around numbers -/

theorem isBlank_eq_false_of_toNat {c : Char} (h1 : 32 < c.toNat) (h2 : c.toNat < 127) :
    isBlank c = false := by
  simp [isBlank, inRanges, blankRanges, CodeRange.covers]
  omega

theorem isBlank_of_isDigit {c : Char} (h : c.isDigit = true) : isBlank c = false := by
  have := isDigit_toNat h
  exact isBlank_eq_false_of_toNat (by omega) (by omega)

theorem isNumberBlank_of_not_isBlank {c : Char} (h : isBlank c = false) : isNumberBlank c = false := by
  simp [isNumberBlank, h]

/-! ### Reading what was written -/

theorem readInteger_digits {n : Nat} {body : List Char} {negative : Bool}
    (hs : readSign body = (negative, decimal n)) (ht : trim isNumberBlank body = body)
    (hn : n < integerBound) :
    readInteger body = .ok (if negative then -(n : Int) else (n : Int)) := by
  have hrun := digitRun_of_isDigit fun c hc => isDigit_of_mem_decimal (n := n) hc
  have hlen : ¬ maxDigits < ((decimal n).map fun c => c.toNat - 48).length := by
    rw [List.length_map]
    exact Nat.not_lt.mpr ((decimal_length_le_iff n).mpr hn)
  have hne : ((decimal n).map fun c => c.toNat - 48).isEmpty = false := by
    simp [decimal_ne_nil]
  rw [readInteger, ht, hs]
  simp only [hrun, hlen, if_false, hne, List.isEmpty_nil, Bool.not_true, Bool.or_false,
    Bool.false_eq_true, ofDigits_decimal]

theorem readSign_decimal (n : Nat) : readSign (decimal n) = (false, decimal n) := by
  cases h : decimal n with
  | nil => rfl
  | cons c cs =>
      have hc : c.isDigit = true := isDigit_of_mem_decimal (n := n) (by simp [h])
      have h1 : c ≠ '-' := by rintro rfl; exact absurd hc (by decide)
      have h2 : c ≠ '+' := by rintro rfl; exact absurd hc (by decide)
      unfold readSign
      split <;> simp_all

theorem trim_decimal (n : Nat) : trim isNumberBlank (decimal n) = decimal n :=
  trim_eq_self fun _ hc => isNumberBlank_of_not_isBlank (isBlank_of_isDigit (isDigit_of_mem_decimal hc))

/-- The decimal text of a number with too many digits is refused. -/
theorem readInteger_decimal_of_le {n : Nat} (h : integerBound ≤ n) :
    maxDigits < (decimal n).length ∧ readInteger (decimal n) = .error (.tooLong (decimal n).length) := by
  have hrun := digitRun_of_isDigit fun c hc => isDigit_of_mem_decimal (n := n) hc
  have hlen : maxDigits < (decimal n).length :=
    Nat.not_le.mp fun hle => Nat.not_lt.mpr h ((decimal_length_le_iff n).mp hle)
  refine ⟨hlen, ?_⟩
  rw [readInteger, trim_decimal, readSign_decimal]
  simp only [hrun, List.length_map, hlen, if_true]

/-- The decimal text of a number reads as that number or not at all. -/
theorem eq_of_readInteger_decimal {n : Nat} {m : Int} (h : readInteger (decimal n) = .ok m) :
    m = n ∧ n < integerBound := by
  by_cases hn : n < integerBound
  · rw [readInteger_digits (readSign_decimal n) (trim_decimal n) hn] at h
    injection h with h
    exact ⟨h.symm, hn⟩
  · rw [(readInteger_decimal_of_le (Nat.not_lt.mp hn)).2] at h
    cases h

theorem toList_toString_ofNat (n : Nat) : (toString (n : Int)).toList = decimal n :=
  Nat.toList_repr

theorem toList_toString_negSucc (n : Nat) :
    (toString (Int.negSucc n)).toList = '-' :: decimal (n + 1) := by
  rw [Int.toString_eq_repr, Int.repr_eq_if,
    if_neg (Int.not_le.mpr (Int.negSucc_lt_zero n)), String.toList_append,
    Nat.toList_repr]
  rfl

/-- A written integer reads back. -/
theorem readInteger_toString {n : Int} (h : n.natAbs < integerBound) :
    readInteger (toString n).toList = .ok n := by
  cases n with
  | ofNat n =>
      have e : (toString (Int.ofNat n)).toList = decimal n := toList_toString_ofNat n
      rw [e, readInteger_digits (readSign_decimal n) (trim_decimal n) h]
      rfl
  | negSucc n =>
      have ht : trim isNumberBlank ('-' :: decimal (n + 1)) = '-' :: decimal (n + 1) := by
        apply trim_eq_self
        intro c hc
        rcases List.mem_cons.mp hc with rfl | hc
        · decide
        · exact isNumberBlank_of_not_isBlank (isBlank_of_isDigit (isDigit_of_mem_decimal hc))
      rw [toList_toString_negSucc, readInteger_digits rfl ht h]
      rfl

end Text

/-! ### Failures -/

theorem parseInteger_eq_ok_iff {s : String} {n : Int} :
    parseInteger s = .ok n ↔ Text.readInteger s.toList = .ok n := by
  unfold parseInteger
  split
  · next m h => simp [h]
  · next f h => simp [h]

theorem writeInteger_eq_ok_iff {n : Int} {s : String} :
    writeInteger n = .ok s ↔ n.natAbs < Text.integerBound ∧ s = toString n := by
  unfold writeInteger
  split
  · next h =>
    constructor
    · intro e
      injection e with e
      exact ⟨h, e.symm⟩
    · rintro ⟨-, rfl⟩
      rfl
  · next h => simp [h]

/-- An integer that was written reads back. -/
theorem parseInteger_of_write {n : Int} {s : String} (h : writeInteger n = .ok s) :
    parseInteger s = .ok n := by
  obtain ⟨hn, rfl⟩ := writeInteger_eq_ok_iff.mp h
  exact parseInteger_eq_ok_iff.mpr (Text.readInteger_toString hn)

end Gridfill

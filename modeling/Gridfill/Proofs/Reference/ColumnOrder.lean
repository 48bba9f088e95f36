import Gridfill.Proofs.Reference.Cell
import Mathlib.Data.List.Shortlex

/-!
# The order of columns

Columns stand in the order of their letters, shorter names first and names of one length as in a
dictionary (`lt_iff_shortlex`). Letters of either case name the column that their capitals name
(`columnNumber_alpha`). So naming a column and counting its letters are inverse to each other and keep the
order (`column_names_in_order`).
-/

namespace Gridfill.Reference

/-! ### Letters of either case -/

/-- The capital of an ASCII letter is a single character. -/
theorem capital_of_isAlpha {c : Char} (h : c.isAlpha = true) :
    Text.isLetter c = true ∧ Text.capital c = [c.toUpper] := by
  have key : ∀ n < 128, (Char.ofNat n).isAlpha = true →
      Text.isLetter (Char.ofNat n) = true ∧ Text.capital (Char.ofNat n) = [(Char.ofNat n).toUpper] := by
    decide +kernel
  have ascii : c.toNat < 128 := by
    rcases CellRef.isAlpha_iff.mp h with ⟨-, h⟩ | ⟨-, h⟩
    · omega
    · omega
  have := key c.toNat ascii
  rw [Char.ofNat_toNat] at this
  exact this h

theorem uppercase_of_isAlpha : ∀ {cs : List Char}, (∀ c ∈ cs, c.isAlpha = true) →
    Text.uppercase cs = cs.map Char.toUpper
  | [], _ => rfl
  | c :: cs, h => by
      have ih := uppercase_of_isAlpha fun d hd => h d (List.mem_cons_of_mem c hd)
      rw [Text.uppercase] at ih ⊢
      rw [List.flatMap_cons, (capital_of_isAlpha (h c List.mem_cons_self)).2, ih]
      rfl

/-- The number of the column that letters of either case name is that of their capitals. -/
theorem columnNumber_alpha {cs : List Char} (hne : cs ≠ []) (h : ∀ c ∈ cs, c.isAlpha = true) :
    columnNumber (String.ofList cs) = .ok (lettersNumber (cs.map Char.toUpper)) := by
  have letters : cs.all Text.isLetter = true :=
    List.all_eq_true.mpr fun c hc => (capital_of_isAlpha (h c hc)).1
  have some : cs.isEmpty = false := by simpa using hne
  simp only [columnNumber, String.toList_ofList, some, letters, uppercase_of_isAlpha h, Bool.not_true,
    Bool.or_false, Bool.false_eq_true, if_false]

theorem capitals_map_toUpper {cs : List Char} (h : ∀ c ∈ cs, c.isAlpha = true) :
    ∀ c ∈ cs.map Char.toUpper, IsCapital c := by
  intro c hc
  obtain ⟨d, hd, rfl⟩ := List.mem_map.mp hc
  exact CellRef.isCapital_toUpper (h d hd)

/-! ### Shorter names first, then as in a dictionary -/

/-- What stands behind texts of one length does not matter when they differ. -/
theorem lex_append {xs ys : List Char} (h : List.Lex (· < ·) xs ys) (us vs : List Char)
    (len : xs.length = ys.length) : List.Lex (· < ·) (xs ++ us) (ys ++ vs) := by
  induction h with
  | nil => cases len
  | cons _ ih => exact .cons (ih (Nat.succ.inj len))
  | rel h => exact .rel h

theorem shortlex_concat {xs ys : List Char} (h : List.Shortlex (· < ·) xs ys) (c d : Char) :
    List.Shortlex (· < ·) (xs ++ [c]) (ys ++ [d]) := by
  rcases List.shortlex_def.mp h with shorter | ⟨len, lex⟩
  · refine .of_length_lt ?_
    rw [List.length_append, List.length_append]
    exact Nat.add_lt_add_right shorter 1
  · refine .of_lex ?_ (lex_append lex [c] [d] len)
    rw [List.length_append, List.length_append, len]
    rfl

theorem letter_lt_letter {j k : Nat} (h : j % 26 < k % 26) :
    Char.ofNat (65 + j % 26) < Char.ofNat (65 + k % 26) := by
  show (Char.ofNat (65 + j % 26)).toNat < (Char.ofNat (65 + k % 26)).toNat
  rw [toNat_letter, toNat_letter]
  omega

/-- The name of a column comes before the names of the columns to its right. -/
theorem shortlex_columnLetters {m n : Nat} (h : m < n) :
    List.Shortlex (· < ·) (columnLetters m) (columnLetters n) := by
  induction n using Nat.strongRecOn generalizing m with
  | _ n ih =>
      have hn : n ≠ 0 := Nat.ne_zero_of_lt h
      by_cases hm : m = 0
      · refine .of_length_lt ?_
        rw [hm, columnLetters_zero]
        exact List.length_pos_of_ne_nil (columnLetters_ne_nil hn)
      · rw [columnLetters_pos hm, columnLetters_pos hn]
        rcases Nat.lt_or_eq_of_le (show (m - 1) / 26 ≤ (n - 1) / 26 by omega) with lower | same
        · exact shortlex_concat (ih ((n - 1) / 26) (by omega) lower) _ _
        · rw [same]
          refine List.Shortlex.append_left ?_ _
          exact (List.shortlex_singleton_iff _ _).mpr (letter_lt_letter (by omega))

/-- Columns stand in the order of their names. -/
theorem lt_iff_shortlex (m n : Nat) :
    m < n ↔ List.Shortlex (· < ·) (columnLetters m) (columnLetters n) := by
  constructor
  · exact shortlex_columnLetters
  · intro before
    by_contra notLess
    rcases Nat.lt_or_eq_of_le (Nat.not_lt.mp notLess) with less | rfl
    · exact Std.Asymm.asymm _ _ before (shortlex_columnLetters less)
    · exact Std.Asymm.asymm _ _ before before

/-! ### Names and numbers -/

/-- Every column has a name of capital letters that counts up to its number, and of at most three letters exactly when
it is not behind `ZZZ`. Letters of either case name a column whose name is those letters in capitals. Columns stand in
the order of their names, shorter names first. -/
theorem column_names_in_order :
    (∀ n : Int, 1 ≤ n → ∃ s, columnName n = .ok s ∧ s ≠ "" ∧ (∀ c ∈ s.toList, IsCapital c) ∧
      columnNumber s = .ok n.toNat ∧ (s.length ≤ 3 ↔ n ≤ 18278)) ∧
    (∀ s : String, s ≠ "" → (∀ c ∈ s.toList, c.isAlpha = true) → ∃ n : Nat, columnNumber s = .ok n ∧
      columnName n = .ok (String.ofList (s.toList.map Char.toUpper))) ∧
    ∀ m n : Int, 1 ≤ m → 1 ≤ n → ∃ s t, columnName m = .ok s ∧ columnName n = .ok t ∧
      (m < n ↔ List.Shortlex (· < ·) s.toList t.toList) := by
  have name {n : Int} (h : 1 ≤ n) : columnName n = .ok (String.ofList (columnLetters n.toNat)) := by
    have := columnName_ofNat (n := n.toNat) (by omega)
    rwa [Int.toNat_of_nonneg (by omega)] at this
  refine ⟨fun n h => ?_, fun s some alpha => ?_, fun m n hm hn => ?_⟩
  · have positive : n.toNat ≠ 0 := by omega
    refine ⟨_, name h, ?_, ?_, columnNumber_columnLetters (by omega), ?_⟩
    · intro empty
      exact columnLetters_ne_nil positive (String.ofList_injective empty)
    · rw [String.toList_ofList]
      exact columnLetters_capital n.toNat
    · rw [← String.length_toList, String.toList_ofList, columnLetters_length_le_three_iff, lastShortColumn]
      omega
  · have letters : s.toList ≠ [] := fun e => some (String.toList_injective e)
    have capitals := capitals_map_toUpper alpha
    have counts := lettersNumber_pos (by simpa using letters) capitals
    have number := columnNumber_alpha letters alpha
    rw [String.ofList_toList] at number
    refine ⟨_, number, ?_⟩
    rw [columnName_ofNat counts, columnLetters_lettersNumber _ capitals]
  · refine ⟨_, _, name hm, name hn, ?_⟩
    rw [String.toList_ofList, String.toList_ofList, ← lt_iff_shortlex]
    omega

/-- Behind the last column of two letters stands the first of three. -/
theorem column_names_in_order_zz :
    columnName 702 = .ok "ZZ" ∧ columnNumber "ZZ" = .ok 702 ∧ columnNumber "aAa" = .ok 703 ∧
      columnName 703 = .ok "AAA" ∧ List.Shortlex (· < ·) "ZZ".toList "AAA".toList := by
  obtain ⟨named, lettered, ordered⟩ := column_names_in_order
  have last : columnName 702 = .ok "ZZ" := by decide +kernel
  have first : columnNumber "aAa" = .ok 703 := by decide +kernel
  obtain ⟨s, hs, -, -, number, -⟩ := named 702 (by decide)
  obtain rfl := Except.ok.inj (last.symm.trans hs)
  have letters : "aAa".toList.all Char.isAlpha = true := by decide
  obtain ⟨n, counted, name⟩ := lettered "aAa" (by decide) (List.all_eq_true.mp letters)
  obtain rfl := Except.ok.inj (first.symm.trans counted)
  obtain ⟨s, t, hs, ht, order⟩ := ordered 702 703 (by decide) (by decide)
  obtain rfl := Except.ok.inj (last.symm.trans hs)
  obtain rfl := Except.ok.inj (name.symm.trans ht)
  exact ⟨last, number, first, name, order.mp (by decide)⟩

end Gridfill.Reference

import Gridfill.Proofs.Reference.Target

/-!
# References there and back

A reference is legible when its column is named by one to three capital letters and its row is positive and can
be written. These are the references that reading gives (`CellRef.legible_iff_valid`), and a text that reads is,
without the blanks around it, the written form of what it reads as, save for the case of the column letters
(`CellRef.parse_cases`). So writing and reading references and ranges undo each other (`references_read_back`).
-/

namespace Gridfill

open Reference (columnLetters lettersNumber IsCapital)

namespace CellRef

/-- A reference with a column of one to three capital letters and a positive row that can be written. -/
structure Legible (r : CellRef) : Prop where
  column_ne : r.column ≠ ""
  column_short : r.column.length ≤ 3
  column_capital : ∀ c ∈ r.column.toList, IsCapital c
  row_pos : 1 ≤ r.row
  row_lt : r.row.natAbs < Text.integerBound

theorem legible_iff_valid (r : CellRef) : r.Legible ↔ r.Valid := by
  constructor
  · intro h
    have some : r.column.toList ≠ [] := fun e => h.column_ne (String.toList_injective e)
    have letters := Reference.columnLetters_lettersNumber _ h.column_capital
    refine ⟨⟨lettersNumber r.column.toList, Reference.lettersNumber_pos some h.column_capital, ?_, ?_⟩,
      h.row_pos, h.row_lt⟩
    · rw [← Reference.columnLetters_length_le_three_iff, letters, String.length_toList]
      exact h.column_short
    · rw [letters, String.ofList_toList]
  · intro h
    obtain ⟨n, positive, short, column⟩ := h.column
    have letters : r.column.toList = columnLetters n := by rw [column, String.toList_ofList]
    refine ⟨?_, ?_, ?_, h.row_pos, h.row_lt⟩
    · rintro empty
      apply Reference.columnLetters_ne_nil (n := n) (by omega)
      rw [← letters, empty]
      rfl
    · rw [← String.length_toList, letters]
      exact (Reference.columnLetters_length_le_three_iff n).mpr short
    · rw [letters]
      exact Reference.columnLetters_capital n

/-! ### What was read is the text -/

theorem readFixed_join (cs : List Char) : fixedMark (readFixed cs).1 ++ (readFixed cs).2 = cs := by
  unfold readFixed
  split
  · rfl
  · rfl

/-- The parts of a local part that was read give it back. -/
theorem readLocal_join {cs : List Char} {p : LocalParts} (h : readLocal cs = some p) :
    fixedMark p.columnFixed ++ p.column ++ fixedMark p.rowFixed ++ p.row = cs := by
  have front := readFixed_join cs
  unfold readLocal at h
  generalize readFixed cs = a at h front
  obtain ⟨columnFixed, rest⟩ := a
  have back := readFixed_join (rest.dropWhile Char.isAlpha)
  simp only at h front
  generalize readFixed (rest.dropWhile Char.isAlpha) = b at h back
  obtain ⟨rowFixed, row⟩ := b
  simp only at h back
  split at h
  · rw [← Option.some.inj h, List.append_assoc, List.append_assoc, back, List.takeWhile_append_dropWhile, front]
  · cases h

/-- The sheet that was read stands in front of the local part, with an exclamation mark. -/
theorem readParts_join {cs : List Char} {sheet : Option String} {p : LocalParts}
    (h : readParts cs = some (sheet, p)) :
    (sheet.elim [] fun q => q.toList ++ ['!']) ++
      (fixedMark p.columnFixed ++ p.column ++ fixedMark p.rowFixed ++ p.row) = cs := by
  have join := Text.cutAtLast_join '!' cs
  rw [readLocal_join (readLocal_of_readParts h)]
  cases sheet with
  | some q =>
      rw [(Target.qualifier_of_readParts h).1] at join
      exact join
  | none =>
      unfold readParts at h
      split at h
      · next body e =>
        rw [e] at join ⊢
        exact join
      · next before body e =>
        split at h
        · obtain ⟨_, -, h⟩ := Option.map_eq_some_iff.mp h
          cases h
        · cases h

/-- The sheet of a reference that was read has a name without a line feed that does not begin with a blank. -/
theorem isSheet_of_readParts {s : String} {sheet : Option String} {p : LocalParts}
    (h : readParts (Text.strip s.toList) = some (sheet, p)) : IsSheet sheet := by
  cases sheet with
  | none => trivial
  | some q =>
      have fit := (Target.qualifier_of_readParts h).2
      unfold isQualifier at fit
      simp only [Bool.and_eq_true, Bool.not_eq_true', List.isEmpty_eq_false_iff, List.contains_eq_mem,
        decide_eq_false_iff_not] at fit
      refine ⟨fun e => fit.1 (by rw [e]; rfl), fit.2, ?_⟩
      have first := (Text.ends_trim (p := Text.isBlank) s.toList).1
      obtain ⟨c, cs, e⟩ := List.exists_cons_of_ne_nil fit.1
      rw [← Text.strip, ← readParts_join h, Option.elim_some, e] at first
      rw [e]
      exact first

/-- Is the text the written form of the reference, save for the blanks around it and the case of the column
letters? -/
def SpelledBy (r : CellRef) (s : String) : Prop :=
  ∃ letters, r.column = String.ofList (letters.map Char.toUpper) ∧
    write { r with column := String.ofList letters } = .ok (String.ofList (Text.strip s.toList))

/-- A text is refused as a reference, or it spells a legible reference and reads as that, or it ends in a row with
too many digits. -/
theorem parse_cases (s : String) :
    parse s = .error (.reference .cell s) ∨
    (∃ r, parse s = .ok r ∧ r.Legible ∧ IsSheet r.sheet ∧ r.SpelledBy s) ∨
    ∃ front row, Text.strip s.toList = front ++ row ∧ (∀ c ∈ row, c.isDigit = true) ∧ Text.maxDigits < row.length ∧
      parse s = .error (.integer (String.ofList row) (.tooLong row.length)) := by
  cases parts : readParts (Text.strip s.toList) with
  | none =>
      left
      rw [parse, parts]
  | some found =>
      obtain ⟨sheet, p⟩ := found
      obtain ⟨-, -, -, number⟩ := readLocal_eq_some (readLocal_of_readParts parts)
      obtain ⟨n, positive, row⟩ := exists_of_isRowNumber number
      have join := readParts_join parts
      right
      by_cases bound : n < Text.integerBound
      · left
        have digits : toString (n : Int) = String.ofList p.row := by
          rw [row, ← Text.toList_toString_ofNat, String.ofList_toList]
        have read : parseInteger (String.ofList p.row) = .ok (n : Int) := by
          rw [← digits]
          exact parseInteger_of_write (writeInteger_eq_ok_iff.mpr ⟨bound, rfl⟩)
        have result : parse s =
            .ok ⟨sheet, String.ofList (p.column.map Char.toUpper), p.columnFixed, n, p.rowFixed⟩ := by
          rw [parse, parts]
          simp only [read]
          rfl
        have named := isSheet_of_readParts parts
        refine ⟨_, result, (legible_iff_valid _).mpr (valid_of_parse result), named, p.column, rfl, ?_⟩
        have sheetChars : sheetChars ⟨sheet, String.ofList p.column, p.columnFixed, n, p.rowFixed⟩ =
            sheet.elim [] fun q => q.toList ++ ['!'] := by
          cases sheet with
          | none => rfl
          | some q => exact if_neg named.1
        refine write_eq_ok_iff.mpr ⟨bound, ?_⟩
        rw [← join, text, sheetChars, localChars, String.toList_ofList, digits, String.toList_ofList]
      · right
        obtain ⟨long, refused⟩ := Text.readInteger_decimal_of_le (Nat.not_lt.mp bound)
        refine ⟨_, p.row, join.symm.trans (List.append_assoc _ _ _).symm, ?_, row ▸ long, ?_⟩
        · rw [row]
          exact fun c => Text.isDigit_of_mem_decimal
        · rw [parse, parts]
          simp only [parseInteger, String.toList_ofList, row, refused]
          rfl

end CellRef

/-- Legible references and ranges between them read back from their written forms, whatever text the sheet of the
range is. A text is refused as a reference or has too many digits in its row, or else it spells the legible
reference that it reads as. -/
theorem references_read_back :
    (∀ r : CellRef, r.Legible → CellRef.IsSheet r.sheet → ∃ s, r.write = .ok s ∧ CellRef.parse s = .ok r) ∧
    (∀ s : String, CellRef.parse s = .error (.reference .cell s) ∨
      (∃ r, CellRef.parse s = .ok r ∧ r.Legible ∧ CellRef.IsSheet r.sheet ∧ r.SpelledBy s) ∨
      ∃ front row, Text.strip s.toList = front ++ row ∧ (∀ c ∈ row, c.isDigit = true) ∧
        Text.maxDigits < row.length ∧
        CellRef.parse s = .error (.integer (String.ofList row) (.tooLong row.length))) ∧
    ∀ r : CellRange, r.start.Legible → r.stop.Legible → r.start.sheet ≠ some "" → r.stop.sheet = none →
      ∃ s, r.write = .ok s ∧ CellRange.parse s = .ok r := by
  refine ⟨fun r legible named => ?_, CellRef.parse_cases, fun r start stop named bare => ?_⟩
  · have valid := (CellRef.legible_iff_valid r).mp legible
    exact ⟨r.text, CellRef.write_eq_ok_iff.mpr ⟨legible.row_lt, rfl⟩, CellRef.parse_text valid named⟩
  · have valid : r.Valid :=
      ⟨(CellRef.legible_iff_valid _).mp start, (CellRef.legible_iff_valid _).mp stop, bare⟩
    have normal : r.normal = r := by
      unfold CellRange.normal
      cases sheet : r.start.sheet with
      | none => rw [Option.filter_none, ← sheet]
      | some q =>
          have kept : (some q).filter (· ≠ "") = some q := by
            simpa [Option.filter] using fun e => named (sheet.trans (congrArg some e))
          rw [kept, ← sheet]
    refine ⟨r.text, CellRange.write_eq_ok_iff.mpr ⟨start.row_lt, stop.row_lt, rfl⟩, ?_⟩
    rw [CellRange.parse_text valid, normal]

/-- Sheets with exclamation marks and colons in their names, and a column in small letters. -/
theorem references_read_back_marked :
    CellRef.parse "a!b!$AB12" = .ok ⟨some "a!b", "AB", true, 12, false⟩ ∧
      CellRef.SpelledBy ⟨some "x!A1", "B", false, 7, true⟩ " x!A1!b$7 " ∧
      CellRange.parse "'x:y'!z!A1:$ZZZ$9" =
        .ok ⟨⟨some "'x:y'!z", "A", false, 1, false⟩, ⟨none, "ZZZ", true, 9, true⟩⟩ := by
  obtain ⟨cells, texts, ranges⟩ := references_read_back
  have bound {n : Nat} (h : n < 10 ^ 2) : n < Text.integerBound := by
    rw [Text.integerBound_eq]
    exact Nat.lt_trans h (Nat.pow_lt_pow_right (by decide) (by decide))
  have legible {n : Nat} {r : CellRef} (positive : 1 ≤ n) (short : n ≤ Reference.lastShortColumn)
      (column : r.column = String.ofList (columnLetters n)) (row : 1 ≤ r.row) (small : r.row.natAbs < 10 ^ 2) :
      r.Legible := (r.legible_iff_valid).mpr ⟨⟨n, positive, short, column⟩, row, bound small⟩
  refine ⟨?_, ?_, ?_⟩
  · have named : CellRef.IsSheet (some "a!b") := by
      refine ⟨by decide, by decide, fun c hc => ?_⟩
      obtain rfl := Option.some.inj (show some 'a' = some c from hc)
      decide
    obtain ⟨s, written, read⟩ := cells ⟨some "a!b", "AB", true, 12, false⟩
      (legible (by decide) (by decide) (show _ = String.ofList (columnLetters 28) by decide +kernel) (by decide)
        (by decide)) named
    rwa [(CellRef.write_eq_ok_iff.mp written).2] at read
  · have found : CellRef.parse " x!A1!b$7 " = .ok ⟨some "x!A1", "B", false, 7, true⟩ := by decide +kernel
    rcases texts " x!A1!b$7 " with refused | ⟨r, read, -, -, spelled⟩ | ⟨_, _, -, -, -, refused⟩
    · rw [found] at refused
      cases refused
    · rw [found] at read
      rwa [Except.ok.inj read]
    · rw [found] at refused
      cases refused
  · obtain ⟨s, written, read⟩ := ranges ⟨⟨some "'x:y'!z", "A", false, 1, false⟩, ⟨none, "ZZZ", true, 9, true⟩⟩
      (legible (by decide) (by decide) (show _ = String.ofList (columnLetters 1) by decide +kernel) (by decide)
        (by decide))
      (legible (by decide) (by decide) (show _ = String.ofList (columnLetters 18278) by decide +kernel) (by decide)
        (by decide)) (by decide) rfl
    rwa [(CellRange.write_eq_ok_iff.mp written).2.2] at read

end Gridfill

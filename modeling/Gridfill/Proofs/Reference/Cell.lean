import Gridfill.Proofs.Reference.Column
import Gridfill.Proofs.Text.Decimal
import Gridfill.Reference.Range

/-!
# References that are written and read back

A reference that was read is valid: its column has a number up to that of `ZZZ`, and its row can be
written (`CellRef.valid_of_parse`). A valid reference reads back from its written form
(`CellRef.parse_text`), and so does a range between two valid corners (`CellRange.parse_text`), which
only loses a sheet without a name.
-/

namespace Gridfill

open Reference (columnLetters lastShortColumn IsCapital)

namespace CellRef

/-! ### Valid references -/

/-- The reference to the cell in a column of the given number and a row. -/
def numbered (column : Nat) (row : Int) : CellRef := plain (String.ofList (columnLetters column)) row

/-- A reference whose column and row are within the limits of reading. -/
structure Valid (r : CellRef) : Prop where
  column : ∃ n, 1 ≤ n ∧ n ≤ lastShortColumn ∧ r.column = String.ofList (columnLetters n)
  row_pos : 1 ≤ r.row
  row_lt : r.row.natAbs < Text.integerBound

/-- A reference that can be written: its column has a number, which may be behind that of `ZZZ`, and its row
can be written. -/
structure Wide (r : CellRef) : Prop where
  column : ∃ n, 1 ≤ n ∧ r.column = String.ofList (columnLetters n)
  row_pos : 1 ≤ r.row
  row_lt : r.row.natAbs < Text.integerBound

theorem Valid.wide {r : CellRef} (h : r.Valid) : r.Wide := by
  obtain ⟨n, h1, -, hc⟩ := h.column
  exact ⟨⟨n, h1, hc⟩, h.row_pos, h.row_lt⟩

/-- Is the text, if there is one, fit to be the sheet in front of a cell reference? -/
def IsSheet : Option String → Prop
  | none => True
  | some q => q ≠ "" ∧ '\n' ∉ q.toList ∧ ∀ c ∈ q.toList.head?, Text.isBlank c = false

theorem down_zero (r : CellRef) : r.down 0 = r := by
  rw [down, Int.add_zero]

theorem valid_numbered {n : Nat} {m : Int} (h1 : 1 ≤ n) (h2 : n ≤ lastShortColumn) (h3 : 1 ≤ m)
    (h4 : m.natAbs < Text.integerBound) : (numbered n m).Valid :=
  ⟨⟨n, h1, h2, rfl⟩, h3, h4⟩

theorem Valid.columnNumber {r : CellRef} (h : r.Valid) :
    ∃ n, 1 ≤ n ∧ n ≤ lastShortColumn ∧ r.columnNumber = .ok n ∧
      r.column = String.ofList (columnLetters n) := by
  obtain ⟨n, h1, h2, hc⟩ := h.column
  refine ⟨n, h1, h2, ?_, hc⟩
  rw [CellRef.columnNumber, hc, Reference.columnNumber_columnLetters h1]

/-! ### The characters of the written form -/

theorem isAlpha_iff {c : Char} :
    c.isAlpha = true ↔ IsCapital c ∨ (97 ≤ c.toNat ∧ c.toNat ≤ 122) := by
  show (decide (c.val ≥ 'A'.val ∧ c.val ≤ 'Z'.val) || (decide (c.val ≥ 'a'.val) && decide (c.val ≤ 'z'.val))) =
    true ↔ _
  rw [Bool.or_eq_true, Bool.and_eq_true, decide_eq_true_eq, decide_eq_true_eq, decide_eq_true_eq]
  exact Iff.rfl

theorem isAlpha_of_isCapital {c : Char} (h : IsCapital c) : c.isAlpha = true := isAlpha_iff.mpr (Or.inl h)

theorem not_isAlpha_of_isDigit {c : Char} (h : c.isDigit = true) : c.isAlpha = false := by
  have hd := Text.isDigit_toNat h
  cases ha : c.isAlpha with
  | false => rfl
  | true =>
      rcases isAlpha_iff.mp ha with ⟨h1, -⟩ | ⟨h1, -⟩
      · omega
      · omega

theorem toUpper_of_isCapital {c : Char} (h : IsCapital c) : c.toUpper = c := by
  have key : ∀ k < 26, (Char.ofNat (65 + k)).toUpper = Char.ofNat (65 + k) := by decide
  have hk := key (c.toNat - 65) (by have := h.2; omega)
  rwa [Reference.letter_of_isCapital h] at hk

theorem isCapital_toUpper {c : Char} (h : c.isAlpha = true) : IsCapital c.toUpper := by
  have key : ∀ n < 128, (Char.ofNat n).isAlpha = true →
      65 ≤ (Char.ofNat n).toUpper.toNat ∧ (Char.ofNat n).toUpper.toNat ≤ 90 := by
    decide +kernel
  have hlt : c.toNat < 128 := by
    rcases isAlpha_iff.mp h with ⟨-, h2⟩ | ⟨-, h2⟩
    · omega
    · omega
  have := key c.toNat hlt
  rw [Char.ofNat_toNat] at this
  exact this h

/-- A character of the local part of a reference: a capital letter, a digit or a dollar sign. -/
def IsLocal (c : Char) : Prop := IsCapital c ∨ c.isDigit = true ∨ c = '$'

theorem IsLocal.ne {c d : Char} (h : IsLocal c) (hd : ¬ IsLocal d) : c ≠ d := fun e => hd (e ▸ h)

theorem not_isLocal_of_toNat {d : Char} (h : ¬ (65 ≤ d.toNat ∧ d.toNat ≤ 90)) (hd : d.isDigit = false)
    (hs : d ≠ '$') : ¬ IsLocal d := by
  rintro (hc | hc | hc)
  · exact h hc
  · rw [hd] at hc; cases hc
  · exact hs hc

theorem IsLocal.not_isBlank {c : Char} (h : IsLocal c) : Text.isBlank c = false := by
  rcases h with h | h | rfl
  · exact Text.isBlank_eq_false_of_toNat (by have := h.1; omega) (by have := h.2; omega)
  · exact Text.isBlank_of_isDigit h
  · decide

theorem toList_row {m : Int} (h : 1 ≤ m) : (toString m).toList = Text.decimal m.toNat := by
  obtain ⟨k, rfl⟩ := Int.eq_ofNat_of_zero_le (by omega : 0 ≤ m)
  exact Text.toList_toString_ofNat k

theorem mem_fixedMark {b : Bool} {c : Char} (h : c ∈ fixedMark b) : c = '$' := by
  cases b <;> simp_all [fixedMark]

theorem Wide.isLocal {r : CellRef} (h : r.Wide) : ∀ c ∈ r.localChars, IsLocal c := by
  obtain ⟨n, -, hc⟩ := h.column
  intro c hm
  simp only [localChars, hc, String.toList_ofList, toList_row h.row_pos, List.mem_append] at hm
  rcases hm with ((hm | hm) | hm) | hm
  · exact Or.inr (Or.inr (mem_fixedMark hm))
  · exact Or.inl (Reference.columnLetters_capital n c hm)
  · exact Or.inr (Or.inr (mem_fixedMark hm))
  · exact Or.inr (Or.inl (Text.isDigit_of_mem_decimal hm))

theorem Valid.isLocal {r : CellRef} (h : r.Valid) : ∀ c ∈ r.localChars, IsLocal c := h.wide.isLocal

theorem Valid.localChars_ne_nil {r : CellRef} (h : r.Valid) : r.localChars ≠ [] := by
  rw [localChars, toList_row h.row_pos]
  simp [Text.decimal_ne_nil]

/-! ### Reading the local part -/

theorem readFixed_mark {b : Bool} {c : Char} {cs : List Char} (h : c ≠ '$') :
    readFixed (fixedMark b ++ c :: cs) = (b, c :: cs) := by
  cases b with
  | true => rfl
  | false =>
      rw [fixedMark, if_neg (by decide), List.nil_append, readFixed]
      intro cs' e
      injection e with e
      exact h e

theorem isRowNumber_decimal {m : Int} (h : 1 ≤ m) : isRowNumber (Text.decimal m.toNat) = true := by
  cases hd : Text.decimal m.toNat with
  | nil => exact absurd hd (Text.decimal_ne_nil _)
  | cons c cs =>
      have hc : c ≠ '0' := by
        intro e
        apply Text.head?_decimal (n := m.toNat) (by omega)
        rw [hd, e]
        rfl
      have all : ∀ d ∈ c :: cs, d.isDigit = true := fun d hm => Text.isDigit_of_mem_decimal (hd ▸ hm)
      have hcs : cs.all Char.isDigit = true :=
        List.all_eq_true.mpr fun d hm => all d (List.mem_cons_of_mem c hm)
      simp [isRowNumber, hc, all c List.mem_cons_self, hcs]

/-- The letters behind the first mark of a local part, and what stands behind them. -/
theorem letters_marked {a b : Bool} {letters : List Char} {d : Char} (ds : List Char) (hne : letters ≠ [])
    (capitals : ∀ c ∈ letters, IsCapital c) (alpha : d.isAlpha = false) :
    readFixed (fixedMark a ++ letters ++ fixedMark b ++ d :: ds) = (a, letters ++ (fixedMark b ++ d :: ds)) ∧
      (letters ++ (fixedMark b ++ d :: ds)).takeWhile Char.isAlpha = letters ∧
      (letters ++ (fixedMark b ++ d :: ds)).dropWhile Char.isAlpha = fixedMark b ++ d :: ds := by
  obtain ⟨l, ls, rfl⟩ := List.exists_cons_of_ne_nil hne
  have notAlpha : ∀ c ∈ (fixedMark b ++ d :: ds).head?, ¬ c.isAlpha = true := by
    intro c hm
    cases b with
    | true =>
        obtain rfl : '$' = c := by simpa [fixedMark] using hm
        decide
    | false =>
        obtain rfl : d = c := by simpa [fixedMark] using hm
        rw [alpha]
        decide
  have all : ∀ c ∈ l :: ls, c.isAlpha = true := fun c hm => isAlpha_of_isCapital (capitals c hm)
  have hl : l ≠ '$' := by
    rintro rfl
    exact absurd (capitals '$' List.mem_cons_self) (by unfold IsCapital; decide)
  refine ⟨?_, ?_, ?_⟩
  · rw [List.append_assoc, List.append_assoc, List.cons_append, readFixed_mark hl]
  · rw [List.takeWhile_append_of_pos all]
    cases hx : fixedMark b ++ d :: ds with
    | nil => simp
    | cons c cs => simp [notAlpha c (by simp [hx])]
  · rw [List.dropWhile_append_of_pos all]
    cases hx : fixedMark b ++ d :: ds with
    | nil => simp
    | cons c cs => simp [notAlpha c (by simp [hx])]

/-- How letters and a row are read, each with its mark: as they are, when there are at most three
letters and the row is a row number. -/
theorem readLocal_marked {a b : Bool} {letters : List Char} {d : Char} (ds : List Char) (hne : letters ≠ [])
    (capitals : ∀ c ∈ letters, IsCapital c) (alpha : d.isAlpha = false) (mark : d ≠ '$') :
    readLocal (fixedMark a ++ letters ++ fixedMark b ++ d :: ds) =
      if letters.length ≤ 3 ∧ isRowNumber (d :: ds) = true then some ⟨a, letters, b, d :: ds⟩
      else none := by
  obtain ⟨front, take, drop⟩ := letters_marked (a := a) (b := b) ds hne capitals alpha
  have some_letter : 1 ≤ letters.length := List.length_pos_iff.mpr hne
  rw [readLocal, front]
  simp only [take, drop, readFixed_mark mark, some_letter, decide_true, Bool.true_and, Bool.and_eq_true,
    decide_eq_true_eq]

/-- The local part of a valid reference reads as its parts. -/
theorem readLocal_localChars {r : CellRef} (h : r.Valid) :
    readLocal r.localChars =
      some ⟨r.columnFixed, r.column.toList, r.rowFixed, Text.decimal r.row.toNat⟩ := by
  obtain ⟨n, h1, h2, hc⟩ := h.column
  have hcol : r.column.toList = columnLetters n := by rw [hc, String.toList_ofList]
  obtain ⟨d, ds, hd⟩ := List.exists_cons_of_ne_nil (Text.decimal_ne_nil r.row.toNat)
  have hdd : d.isDigit = true := Text.isDigit_of_mem_decimal (n := r.row.toNat) (by simp [hd])
  have mark : d ≠ '$' := by
    rintro rfl
    exact absurd hdd (by decide)
  have short := (Reference.columnLetters_length_le_three_iff n).mpr h2
  have number := isRowNumber_decimal h.row_pos
  rw [hd] at number
  rw [localChars, hcol, toList_row h.row_pos, hd,
    readLocal_marked ds (Reference.columnLetters_ne_nil (by omega)) (Reference.columnLetters_capital n)
      (not_isAlpha_of_isDigit hdd) mark,
    if_pos ⟨short, number⟩]

/-! ### Reading the whole -/

/-- What reading makes of a text without blanks at its ends. -/
theorem parse_of_readParts {s : String} {sheet : Option String} {p : LocalParts} {m : Int}
    (ht : Text.strip s.toList = s.toList) (hp : readParts s.toList = some (sheet, p))
    (hm : parseInteger (String.ofList p.row) = .ok m) :
    parse s = .ok ⟨sheet, String.ofList (p.column.map Char.toUpper), p.columnFixed, m, p.rowFixed⟩ := by
  rw [parse, ht, hp]
  simp only [hm]
  rfl

theorem parseInteger_row {r : CellRef} (h : r.Valid) :
    parseInteger (String.ofList (Text.decimal r.row.toNat)) = .ok r.row := by
  have e : String.ofList (Text.decimal r.row.toNat) = toString r.row := by
    rw [← toList_row h.row_pos, String.ofList_toList]
  rw [e]
  exact parseInteger_of_write (writeInteger_eq_ok_iff.mpr ⟨h.row_lt, rfl⟩)

theorem map_toUpper_column {r : CellRef} (h : r.Valid) :
    String.ofList (r.column.toList.map Char.toUpper) = r.column := by
  obtain ⟨n, -, -, hc⟩ := h.column
  have e : (columnLetters n).map Char.toUpper = columnLetters n := by
    conv => rhs; rw [← List.map_id (columnLetters n)]
    exact List.map_congr_left fun c hm => toUpper_of_isCapital (Reference.columnLetters_capital n c hm)
  rw [hc, String.toList_ofList, e]

theorem strip_localChars {r : CellRef} (h : r.Wide) : Text.strip r.localChars = r.localChars :=
  Text.trim_eq_self fun c hm => (h.isLocal c hm).not_isBlank

/-- The local part of a valid reference reads as the reference without its sheet. -/
theorem parse_localChars {r : CellRef} (h : r.Valid) :
    parse (String.ofList r.localChars) = .ok { r with sheet := none } := by
  have mark : '!' ∉ r.localChars := fun hm =>
    (h.isLocal _ hm).ne (not_isLocal_of_toNat (by decide) (by decide) (by decide)) rfl
  have hp : readParts r.localChars =
      some (none, ⟨r.columnFixed, r.column.toList, r.rowFixed, Text.decimal r.row.toNat⟩) := by
    rw [readParts, Text.cutAtLast_of_not_mem mark]
    simp [readLocal_localChars h]
  have ht := strip_localChars h.wide
  rw [← String.toList_ofList (l := r.localChars)] at hp ht
  rw [parse_of_readParts ht hp (parseInteger_row h), map_toUpper_column h]

/-- A valid reference reads back from its written form. -/
theorem parse_text {r : CellRef} (h : r.Valid) (hs : IsSheet r.sheet) : parse r.text = .ok r := by
  obtain ⟨sheet, column, columnFixed, row, rowFixed⟩ := r
  cases sheet with
  | none => exact parse_localChars h
  | some q =>
      obtain ⟨hq, hline, hfirst⟩ := hs
      generalize hr : CellRef.mk (some q) column columnFixed row rowFixed = r at *
      have hchars : r.sheetChars ++ r.localChars = q.toList ++ '!' :: r.localChars := by
        rw [sheetChars, ← hr]
        simp [hq]
      have mark : '!' ∉ r.localChars := fun hm =>
        (h.isLocal _ hm).ne (not_isLocal_of_toNat (by decide) (by decide) (by decide)) rfl
      have qne : q.toList ≠ [] := fun e => hq (String.toList_injective (by rw [e]; rfl))
      have ht : Text.strip (q.toList ++ '!' :: r.localChars) = q.toList ++ '!' :: r.localChars := by
        apply Text.trim_of_ends
        · intro c hm
          cases hql : q.toList with
          | nil => exact absurd hql qne
          | cons d ds =>
              rw [hql] at hm hfirst
              exact hfirst c (by simpa using hm)
        · intro c hm
          apply (h.isLocal c ?_).not_isBlank
          rw [List.getLast?_append, List.getLast?_cons] at hm
          have hl : r.localChars.getLast? ≠ none := fun e =>
            h.localChars_ne_nil (List.getLast?_eq_none_iff.mp e)
          obtain ⟨l, hl⟩ := Option.ne_none_iff_exists'.mp hl
          rw [hl] at hm
          obtain rfl : l = c := by simpa using hm
          exact List.mem_of_mem_getLast? hl
      have hqual : isQualifier q.toList = true := by
        simp [isQualifier, qne, hline]
      have hp : readParts (q.toList ++ '!' :: r.localChars) =
          some (some (String.ofList q.toList),
            ⟨r.columnFixed, r.column.toList, r.rowFixed, Text.decimal r.row.toNat⟩) := by
        rw [readParts, Text.cutAtLast_append q.toList mark]
        simp [hqual, readLocal_localChars h]
      rw [← String.toList_ofList (l := q.toList ++ '!' :: r.localChars)] at hp ht
      rw [text, hchars, parse_of_readParts ht hp (parseInteger_row h), map_toUpper_column h, ← hr,
        String.ofList_toList]

theorem parse_numbered {n : Nat} {m : Int} (h : (numbered n m).Valid) :
    parse (numbered n m).text = .ok (numbered n m) :=
  parse_text h trivial

/-! ### What was read is valid -/

theorem exists_of_isRowNumber {cs : List Char} (h : isRowNumber cs = true) :
    ∃ n, 1 ≤ n ∧ cs = Text.decimal n := by
  cases cs with
  | nil => cases h
  | cons c cs =>
      simp only [isRowNumber, Bool.and_eq_true, decide_eq_true_eq, List.all_eq_true, ne_eq] at h
      obtain ⟨⟨h0, hc⟩, hcs⟩ := h
      refine Text.exists_eq_decimal (by simp) ?_ (by simpa using h0)
      intro d hm
      rcases List.mem_cons.mp hm with rfl | hm
      · exact hc
      · exact hcs d hm

/-- What the local part of a reference is read as: letters that name a column, and a row number. -/
theorem readLocal_eq_some {cs : List Char} {p : LocalParts} (h : readLocal cs = some p) :
    (∀ c ∈ p.column, c.isAlpha = true) ∧ p.column ≠ [] ∧ p.column.length ≤ 3 ∧
      isRowNumber p.row = true := by
  unfold readLocal at h
  generalize readFixed cs = a at h
  obtain ⟨fixed, rest⟩ := a
  simp only at h
  generalize hb : readFixed (rest.dropWhile Char.isAlpha) = b at h
  obtain ⟨fixed', row⟩ := b
  simp only at h
  split at h
  · next hc =>
    injection h with h
    simp only [Bool.and_eq_true, decide_eq_true_eq] at hc
    obtain ⟨⟨h1, h2⟩, h3⟩ := hc
    subst h
    refine ⟨fun c hm => ?_, ?_, h2, h3⟩
    · have := List.all_takeWhile (p := Char.isAlpha) (l := rest)
      exact List.all_eq_true.mp this c hm
    · intro e
      simp only at e
      rw [e] at h1
      cases h1
  · cases h

/-- What reading a reference comes to. -/
theorem exists_of_parse {s : String} {r : CellRef} (h : parse s = .ok r) :
    ∃ p, readParts (Text.strip s.toList) = some (r.sheet, p) ∧
      parseInteger (String.ofList p.row) = .ok r.row ∧
      r.column = String.ofList (p.column.map Char.toUpper) ∧
      r.columnFixed = p.columnFixed ∧ r.rowFixed = p.rowFixed := by
  unfold parse at h
  split at h
  · cases h
  · next sheet p hp =>
    cases hm : parseInteger (String.ofList p.row) with
    | error f => rw [hm] at h; cases h
    | ok m =>
        rw [hm] at h
        injection h with h
        subst h
        exact ⟨p, hp, hm, rfl, rfl, rfl⟩

theorem readLocal_of_readParts {cs : List Char} {sheet : Option String} {p : LocalParts}
    (h : readParts cs = some (sheet, p)) : readLocal (Text.cutAtLast '!' cs).2 = some p := by
  unfold readParts at h
  split at h
  · next body e =>
    rw [e]
    cases hl : readLocal body with
    | none => rw [hl] at h; cases h
    | some q =>
        rw [hl] at h
        injection h with h
        injection h with _ h
        rw [h]
  · next q body e =>
    split at h
    · rw [e]
      cases hl : readLocal body with
      | none => rw [hl] at h; cases h
      | some q =>
          rw [hl] at h
          injection h with h
          injection h with _ h
          rw [h]
    · cases h

/-- A reference that was read is valid. -/
theorem valid_of_parse {s : String} {r : CellRef} (h : parse s = .ok r) : r.Valid := by
  obtain ⟨p, hp, hm, hc, -, -⟩ := exists_of_parse h
  obtain ⟨alpha, hne, hlen, hrow⟩ := readLocal_eq_some (readLocal_of_readParts hp)
  obtain ⟨k, hk, e⟩ := exists_of_isRowNumber hrow
  rw [parseInteger_eq_ok_iff, String.toList_ofList, e] at hm
  obtain ⟨hrk, hlt⟩ := Text.eq_of_readInteger_decimal hm
  have capitals : ∀ c ∈ p.column.map Char.toUpper, IsCapital c := by
    intro c hcm
    obtain ⟨d, hd, rfl⟩ := List.mem_map.mp hcm
    exact isCapital_toUpper (alpha d hd)
  have hne' : p.column.map Char.toUpper ≠ [] := by simpa using hne
  have letters := Reference.columnLetters_lettersNumber _ capitals
  refine ⟨⟨Reference.lettersNumber (p.column.map Char.toUpper), ?_, ?_, ?_⟩, by omega, by omega⟩
  · exact Reference.lettersNumber_pos hne' capitals
  · rw [← Reference.columnLetters_length_le_three_iff, letters, List.length_map]
    exact hlen
  · rw [letters, hc]

/-! ### Written forms that may not read -/

/-- The first character of a written integer is not one of a column. -/
theorem exists_toString_eq_cons (m : Int) :
    ∃ d ds, (toString m).toList = d :: ds ∧ d.isAlpha = false ∧ d ≠ '$' ∧
      (isRowNumber (d :: ds) = true → 1 ≤ m) := by
  cases m with
  | ofNat k =>
      obtain ⟨d, ds, hd⟩ := List.exists_cons_of_ne_nil (Text.decimal_ne_nil k)
      have hdd : d.isDigit = true := Text.isDigit_of_mem_decimal (n := k) (by simp [hd])
      refine ⟨d, ds, (Text.toList_toString_ofNat k).trans hd, not_isAlpha_of_isDigit hdd, ?_, ?_⟩
      · rintro rfl
        exact absurd hdd (by decide)
      · intro h
        obtain ⟨n, hn, e⟩ := exists_of_isRowNumber h
        have e' : n = k := by rw [← Text.ofDigits_decimal n, ← e, ← hd, Text.ofDigits_decimal]
        have e'' : Int.ofNat k = (k : Int) := rfl
        omega
  | negSucc k =>
      exact ⟨'-', _, Text.toList_toString_negSucc k, by decide, by decide, fun h => by cases h⟩

theorem not_isBlank_toString {m : Int} {c : Char} (h : c ∈ (toString m).toList) :
    Text.isBlank c = false ∧ c ≠ '!' ∧ c ≠ ':' := by
  have digit {k : Nat} (hk : c ∈ Text.decimal k) : Text.isBlank c = false ∧ c ≠ '!' ∧ c ≠ ':' := by
    have hd := Text.isDigit_of_mem_decimal hk
    refine ⟨Text.isBlank_of_isDigit hd, ?_, ?_⟩ <;> rintro rfl <;> exact absurd hd (by decide)
  cases m with
  | ofNat k => exact digit ((Text.toList_toString_ofNat k) ▸ h)
  | negSucc k =>
      rw [Text.toList_toString_negSucc] at h
      rcases List.mem_cons.mp h with rfl | h
      · decide
      · exact digit h

theorem toList_numbered (n : Nat) (m : Int) :
    (numbered n m).text.toList = columnLetters n ++ (toString m).toList := by
  simp [numbered, plain, text, sheetChars, localChars, fixedMark]

/-- A reference made from numbers reads only when it is valid, and then as itself. -/
theorem valid_of_parse_numbered {n : Nat} {m : Int} {r : CellRef} (hn : 1 ≤ n)
    (h : parse (numbered n m).text = .ok r) : (numbered n m).Valid ∧ r = numbered n m := by
  obtain ⟨d, ds, hd, alpha, mark, positive⟩ := exists_toString_eq_cons m
  have plainChar : ∀ c ∈ columnLetters n ++ (toString m).toList,
      Text.isBlank c = false ∧ c ≠ '!' := by
    intro c hm
    rcases List.mem_append.mp hm with hm | hm
    · have hc : IsLocal c := Or.inl (Reference.columnLetters_capital n c hm)
      exact ⟨hc.not_isBlank, hc.ne (not_isLocal_of_toNat (by decide) (by decide) (by decide))⟩
    · obtain ⟨h1, h2, -⟩ := not_isBlank_toString hm
      exact ⟨h1, h2⟩
  obtain ⟨p, hp, hm, -⟩ := exists_of_parse h
  have hs : Text.strip (columnLetters n ++ (toString m).toList) =
      columnLetters n ++ (toString m).toList := Text.trim_eq_self fun c hc => (plainChar c hc).1
  have hq : '!' ∉ columnLetters n ++ (toString m).toList := fun hc => (plainChar _ hc).2 rfl
  have hl := readLocal_of_readParts hp
  have read := readLocal_marked (a := false) (b := false) ds
    (Reference.columnLetters_ne_nil (n := n) (by omega)) (Reference.columnLetters_capital n) alpha mark
  rw [toList_numbered, hs, Text.cutAtLast_of_not_mem hq, hd] at hl
  simp only [fixedMark, Bool.false_eq_true, if_false, List.nil_append, List.append_nil] at read
  rw [read] at hl
  split at hl
  · next short =>
    have hm1 := positive short.2
    have row : p.row = (toString m).toList := by
      rw [← Option.some.inj hl, hd]
    rw [row, toList_row hm1, parseInteger_eq_ok_iff, String.toList_ofList] at hm
    obtain ⟨-, hlt⟩ := Text.eq_of_readInteger_decimal hm
    have valid : (numbered n m).Valid := valid_numbered hn
      ((Reference.columnLetters_length_le_three_iff n).mp short.1) hm1 (by omega)
    rw [parse_numbered valid] at h
    exact ⟨valid, (Except.ok.inj h).symm⟩
  · cases hl

/-! ### Columns up to `ZZZ` -/

/-- The letters of the column of a local part. -/
def columnChars (cs : List Char) : List Char := (readFixed cs).2.takeWhile Char.isAlpha

/-- The letters of a reference that can be written are those of its column. -/
theorem columnChars_localChars {r : CellRef} (h : r.Wide) : columnChars r.localChars = r.column.toList := by
  obtain ⟨n, h1, hc⟩ := h.column
  obtain ⟨d, ds, hd, alpha, -⟩ := exists_toString_eq_cons r.row
  obtain ⟨front, take, -⟩ := letters_marked (a := r.columnFixed) (b := r.rowFixed) ds
    (Reference.columnLetters_ne_nil (n := n) (by omega)) (Reference.columnLetters_capital n) alpha
  rw [columnChars, localChars, hc, String.toList_ofList, hd, front, take]

/-- A reference that can be written is valid when its column has at most three letters. -/
theorem Wide.valid {r : CellRef} (h : r.Wide) (short : (columnChars r.localChars).length ≤ 3) : r.Valid := by
  rw [columnChars_localChars h] at short
  obtain ⟨n, h1, hc⟩ := h.column
  rw [hc, String.toList_ofList, Reference.columnLetters_length_le_three_iff] at short
  exact ⟨⟨n, h1, short, hc⟩, h.row_pos, h.row_lt⟩

/-- The column of a local part that was read is made of its letters. -/
theorem column_of_readLocal {cs : List Char} {p : LocalParts} (h : readLocal cs = some p) :
    p.column = columnChars cs := by
  unfold readLocal at h
  unfold columnChars
  generalize readFixed cs = a at h
  obtain ⟨fixed, rest⟩ := a
  simp only at h
  generalize readFixed (rest.dropWhile Char.isAlpha) = b at h
  obtain ⟨fixed', row⟩ := b
  simp only at h
  split at h
  · rw [← Option.some.inj h]
  · cases h

/-- A reference that can be written is valid when its local part reads. -/
theorem Wide.valid_of_parse {r x : CellRef} (h : r.Wide) (hp : parse (String.ofList r.localChars) = .ok x) :
    r.Valid := by
  apply h.valid
  obtain ⟨p, hparts, -⟩ := exists_of_parse hp
  have mark : '!' ∉ r.localChars := fun hm =>
    (h.isLocal _ hm).ne (not_isLocal_of_toNat (by decide) (by decide) (by decide)) rfl
  have hl := readLocal_of_readParts hparts
  rw [String.toList_ofList, strip_localChars h, Text.cutAtLast_of_not_mem mark] at hl
  rw [← column_of_readLocal hl]
  exact (readLocal_eq_some hl).2.2.1

/-- The column of a reference that can be written is the number that its letters name. -/
theorem Wide.columnNumber {r : CellRef} (h : r.Wide) :
    r.columnNumber = .ok (Reference.lettersNumber r.column.toList) := by
  obtain ⟨n, h1, hc⟩ := h.column
  rw [CellRef.columnNumber, hc, Reference.columnNumber_columnLetters h1, String.toList_ofList,
    Reference.lettersNumber_columnLetters]

end CellRef
end Gridfill

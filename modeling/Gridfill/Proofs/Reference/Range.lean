import Gridfill.Proofs.Reference.Cell

/-!
# Ranges that are written and read back

A range that was read lies between two valid corners, and only the first of them carries a sheet
(`CellRange.valid_of_parse`). Written down it reads back as it was, save for a sheet without a name
(`CellRange.parse_text`), so it keeps its place on the sheet, the extent.
-/

namespace Gridfill

open Reference (columnLetters lastShortColumn)

/-- The rows and columns that a range spans. -/
structure Extent where
  top : Int
  bottom : Int
  left : String
  right : String
deriving DecidableEq, Repr

/-- The extent moved down by a number of rows. -/
def Extent.down (e : Extent) (rows : Int) : Extent := ⟨e.top + rows, e.bottom + rows, e.left, e.right⟩

namespace CellRef

theorem Valid.down {r : CellRef} (h : r.Valid) {k : Int} (h1 : 1 ≤ r.row + k)
    (h2 : (r.row + k).natAbs < Text.integerBound) : (r.down k).Valid :=
  ⟨h.column, h1, h2⟩

/-- What writing a reference comes to. -/
theorem write_eq_ok_iff {r : CellRef} {s : String} :
    r.write = .ok s ↔ r.row.natAbs < Text.integerBound ∧ s = r.text := by
  unfold write
  cases h : writeInteger r.row with
  | error f =>
      constructor
      · intro e
        cases e
      · rintro ⟨hr, -⟩
        rw [writeInteger_eq_ok_iff.mpr ⟨hr, rfl⟩] at h
        cases h
  | ok t =>
      obtain ⟨hr, -⟩ := writeInteger_eq_ok_iff.mp h
      constructor
      · intro e
        injection e with e
        exact ⟨hr, e.symm⟩
      · rintro ⟨-, rfl⟩
        rfl

end CellRef

namespace CellRange

/-- A range between two valid corners, of which only the first carries a sheet. -/
structure Valid (r : CellRange) : Prop where
  start : r.start.Valid
  stop : r.stop.Valid
  stop_sheet : r.stop.sheet = none

/-- The range without a sheet that has no name. -/
def normal (r : CellRange) : CellRange :=
  { r with start := { r.start with sheet := r.start.sheet.filter (· ≠ "") } }

/-- The rows and columns that the range spans. -/
def extent (r : CellRange) : Extent := ⟨r.start.row, r.stop.row, r.start.column, r.stop.column⟩

theorem Valid.normal {r : CellRange} (h : r.Valid) : r.normal.Valid :=
  ⟨⟨h.start.column, h.start.row_pos, h.start.row_lt⟩, h.stop, h.stop_sheet⟩

/-! ### Writing and reading back -/

theorem sheetChars_eq (r : CellRef) :
    r.sheetChars = (r.sheet.filter (· ≠ "")).elim [] fun q => q.toList ++ ['!'] := by
  unfold CellRef.sheetChars
  cases h : r.sheet with
  | none => rfl
  | some q =>
      by_cases hq : q = ""
      · simp [Option.filter, hq]
      · simp [Option.filter, hq]

theorem parseCorner_localChars (s : String) {r : CellRef} (h : r.Valid) :
    parseCorner s r.localChars = .ok { r with sheet := none } := by
  rw [parseCorner, CellRef.parse_localChars h]

theorem not_mem_localChars {r : CellRef} (h : r.Wide) : ':' ∉ r.localChars ∧ '!' ∉ r.localChars :=
  ⟨fun hm => (h.isLocal _ hm).ne (CellRef.not_isLocal_of_toNat (by decide) (by decide) (by decide)) rfl,
    fun hm => (h.isLocal _ hm).ne (CellRef.not_isLocal_of_toNat (by decide) (by decide) (by decide)) rfl⟩

/-- How the written form of a range is cut: the sheet, if it has a name, and the two corners. -/
theorem cut_text {r : CellRange} (hstart : r.start.Wide) (hstop : r.stop.Wide) (hsheet : r.stop.sheet = none) :
    Text.cutAtLast '!' r.text.toList =
        ((r.start.sheet.filter (· ≠ "")).map (·.toList), r.start.localChars ++ ':' :: r.stop.localChars) ∧
      Text.fields ':' (r.start.localChars ++ ':' :: r.stop.localChars) =
        [r.start.localChars, r.stop.localChars] := by
  obtain ⟨start, stop⟩ := r
  simp only at hstart hstop hsheet ⊢
  obtain ⟨colon, mark⟩ := not_mem_localChars hstart
  obtain ⟨colon', mark'⟩ := not_mem_localChars hstop
  have body : '!' ∉ start.localChars ++ ':' :: stop.localChars := by
    intro hm
    rcases List.mem_append.mp hm with hm | hm
    · exact mark hm
    · rcases List.mem_cons.mp hm with e | hm
      · exact absurd e (by decide)
      · exact mark' hm
  have stopChars : stop.sheetChars = [] := by rw [CellRef.sheetChars, hsheet]
  have chars : (text ⟨start, stop⟩).toList =
      start.sheetChars ++ (start.localChars ++ ':' :: stop.localChars) := by
    simp [text, CellRef.text, stopChars]
  refine ⟨?_, ?_⟩
  · rw [chars, sheetChars_eq]
    cases start.sheet.filter (· ≠ "") with
    | none =>
        rw [Option.elim_none, List.nil_append, Text.cutAtLast_of_not_mem body]
        rfl
    | some q =>
        rw [Option.elim_some, List.append_assoc, List.singleton_append, Text.cutAtLast_append q.toList body]
        rfl
  · rw [Text.fields_append stop.localChars colon, Text.fields_of_not_mem colon']

/-- A valid range reads back from its written form. -/
theorem parse_text {r : CellRange} (h : r.Valid) : parse r.text = .ok r.normal := by
  obtain ⟨cut, fields⟩ := cut_text h.start.wide h.stop.wide h.stop_sheet
  obtain ⟨start, stop⟩ := r
  obtain ⟨hstart, hstop, hsheet⟩ := h
  simp only at hstart hstop hsheet cut fields
  have hstop' : { stop with sheet := none } = stop := by rw [← hsheet]
  rw [parse, cut]
  simp only [fields, parseCorner_localChars _ hstart, parseCorner_localChars _ hstop, hstop', normal]
  cases start.sheet.filter (· ≠ "") with
  | none => rfl
  | some q =>
      simp only [Option.map_some, String.ofList_toList]
      rfl

/-- What writing a range comes to. -/
theorem write_eq_ok_iff {r : CellRange} {s : String} :
    r.write = .ok s ↔ r.start.row.natAbs < Text.integerBound ∧
      r.stop.row.natAbs < Text.integerBound ∧ s = r.text := by
  unfold write
  cases h1 : r.start.write with
  | error f =>
      constructor
      · intro e
        cases e
      · rintro ⟨hr, -⟩
        rw [CellRef.write_eq_ok_iff.mpr ⟨hr, rfl⟩] at h1
        cases h1
  | ok a =>
      obtain ⟨hr1, rfl⟩ := CellRef.write_eq_ok_iff.mp h1
      cases h2 : r.stop.write with
      | error f =>
          constructor
          · intro e
            cases e
          · rintro ⟨-, hr, -⟩
            rw [CellRef.write_eq_ok_iff.mpr ⟨hr, rfl⟩] at h2
            cases h2
      | ok b =>
          obtain ⟨hr2, rfl⟩ := CellRef.write_eq_ok_iff.mp h2
          constructor
          · intro e
            injection e with e
            exact ⟨hr1, hr2, e.symm⟩
          · rintro ⟨-, -, rfl⟩
            rfl

/-! ### What was read is valid -/

/-- What reading a range comes to. -/
theorem exists_of_parse {s : String} {r : CellRange} (h : parse s = .ok r) :
    ∃ a b start, Text.fields ':' (Text.cutAtLast '!' s.toList).2 = [a, b] ∧
      CellRef.parse (String.ofList a) = .ok start ∧
      CellRef.parse (String.ofList b) = .ok r.stop ∧
      r.start = { start with
        sheet := ((Text.cutAtLast '!' s.toList).1.map String.ofList).or start.sheet } := by
  unfold parse at h
  generalize Text.cutAtLast '!' s.toList = c at h
  obtain ⟨sheet, body⟩ := c
  simp only at h
  split at h
  · next a b hf =>
    unfold parseCorner at h
    cases ha : CellRef.parse (String.ofList a) with
    | error f => rw [ha] at h; cases h
    | ok start =>
        cases hb : CellRef.parse (String.ofList b) with
        | error f => rw [ha, hb] at h; cases h
        | ok stop =>
            rw [ha, hb] at h
            refine ⟨a, b, start, hf, ha, ?_⟩
            cases sheet with
            | none =>
                injection h with h
                subst h
                exact ⟨hb, rfl⟩
            | some q =>
                injection h with h
                subst h
                exact ⟨hb, rfl⟩
  · cases h

theorem sheet_of_parse {cs : List Char} {r : CellRef} (h : CellRef.parse (String.ofList cs) = .ok r)
    (hm : '!' ∉ cs) : r.sheet = none := by
  obtain ⟨p, hp, -⟩ := CellRef.exists_of_parse h
  rw [String.toList_ofList] at hp
  have hs : '!' ∉ Text.strip cs := fun hc => hm (Text.mem_of_mem_trim hc)
  rw [CellRef.readParts, Text.cutAtLast_of_not_mem hs] at hp
  simp only at hp
  cases hl : CellRef.readLocal (Text.strip cs) with
  | none => rw [hl] at hp; cases hp
  | some q =>
      rw [hl] at hp
      injection hp with hp
      injection hp with hp _
      exact hp.symm

/-- A range that was read is valid. -/
theorem valid_of_parse {s : String} {r : CellRange} (h : parse s = .ok r) : r.Valid := by
  obtain ⟨a, b, start, hf, ha, hb, hs⟩ := exists_of_parse h
  have hstart := CellRef.valid_of_parse ha
  refine ⟨?_, CellRef.valid_of_parse hb, ?_⟩
  · rw [hs]
    exact ⟨hstart.column, hstart.row_pos, hstart.row_lt⟩
  · refine sheet_of_parse hb fun hm => ?_
    exact Text.not_mem_cutAtLast '!' s.toList
      (Text.mem_of_mem_fields (by rw [hf]; simp) hm)

/-- A range that was moved down and written reads back. -/
theorem parse_of_write {r : CellRange} {s : String} (hcol : r.start.Valid ∧ r.stop.Valid)
    (hsheet : r.stop.sheet = none) {a b : Int} (ha : 1 ≤ r.start.row + a) (hb : 1 ≤ r.stop.row + b)
    (h : write ⟨r.start.down a, r.stop.down b⟩ = .ok s) :
    parse s = .ok (normal ⟨r.start.down a, r.stop.down b⟩) := by
  obtain ⟨h1, h2, rfl⟩ := write_eq_ok_iff.mp h
  exact parse_text ⟨hcol.1.down ha h1, hcol.2.down hb h2, hsheet⟩

end CellRange

/-! ### Columns up to `ZZZ` -/

/-- The written reference or range stays within the columns that can be read: no corner has more letters
than `ZZZ`. -/
def WithinColumns (s : String) : Prop :=
  ∀ corner ∈ Text.fields ':' (Text.cutAtLast '!' s.toList).2, (CellRef.columnChars corner).length ≤ 3

instance (s : String) : Decidable (WithinColumns s) := inferInstanceAs (Decidable (∀ _ ∈ _, _))

/-- A reference without a sheet that stays within the columns reads back from its written form. -/
theorem CellRef.parse_of_withinColumns {n : Nat} {m : Int} (h : (numbered n m).Wide)
    (within : WithinColumns (numbered n m).text) : parse (numbered n m).text = .ok (numbered n m) := by
  have chars : (numbered n m).text.toList = (numbered n m).localChars := by
    rw [text, String.toList_ofList]
    rfl
  obtain ⟨colon, mark⟩ := CellRange.not_mem_localChars h
  refine parse_numbered (h.valid (within _ ?_))
  rw [chars, Text.cutAtLast_of_not_mem mark, Text.fields_of_not_mem colon]
  exact List.mem_singleton_self _

/-- A range that stays within the columns reads back from its written form. -/
theorem CellRange.parse_of_withinColumns {r : CellRange} (hstart : r.start.Wide) (hstop : r.stop.Wide)
    (hsheet : r.stop.sheet = none) (within : WithinColumns r.text) : r.Valid ∧ parse r.text = .ok r.normal := by
  obtain ⟨cut, fields⟩ := cut_text hstart hstop hsheet
  unfold WithinColumns at within
  rw [cut, fields] at within
  have valid : r.Valid := ⟨hstart.valid (within _ (by simp)), hstop.valid (within _ (by simp)), hsheet⟩
  exact ⟨valid, parse_text valid⟩

/-- A range that can be written and that reads back is valid, and reads as it was. -/
theorem CellRange.eq_of_parse_text {r x : CellRange} (hstart : r.start.Wide) (hstop : r.stop.Wide)
    (hsheet : r.stop.sheet = none) (h : parse r.text = .ok x) : r.Valid ∧ x = r.normal := by
  obtain ⟨cut, fields⟩ := cut_text hstart hstop hsheet
  obtain ⟨a, b, start, hfields, ha, hb, -⟩ := exists_of_parse h
  rw [cut, fields] at hfields
  obtain ⟨ea, hfields⟩ := List.cons.inj hfields
  obtain ⟨eb, -⟩ := List.cons.inj hfields
  rw [← ea] at ha
  rw [← eb] at hb
  have valid : r.Valid := ⟨hstart.valid_of_parse ha, hstop.valid_of_parse hb, hsheet⟩
  rw [parse_text valid] at h
  exact ⟨valid, (Except.ok.inj h).symm⟩

/-- The columns of a range, counted from its first to its last. -/
def Extent.columnCount (e : Extent) : Int :=
  (Reference.lettersNumber e.right.toList : Int) - Reference.lettersNumber e.left.toList + 1

/-- The text reads as the range or spells it, be it in columns that do not read. -/
def CellRange.SpelledBy (r : CellRange) (s : String) : Prop :=
  parse s = .ok r ∨ (r.start.Wide ∧ r.stop.Wide ∧ r.stop.sheet = none) ∧ s = r.text

theorem CellRange.SpelledBy.ne_empty {r : CellRange} {s : String} (h : r.SpelledBy s) : s ≠ "" := by
  rintro rfl
  rcases h with h | ⟨-, h⟩
  · cases h
  · have := congrArg String.toList h
    simp [text] at this

/-- When a text that spells a range reads, it reads as a range of the same cells. -/
theorem CellRange.SpelledBy.extent_eq {r x : CellRange} {s : String} (h : r.SpelledBy s) (hx : parse s = .ok x) :
    x.extent = r.extent := by
  rcases h with h | ⟨⟨hstart, hstop, hsheet⟩, rfl⟩
  · rw [Except.ok.inj (h.symm.trans hx)]
  · obtain ⟨-, rfl⟩ := eq_of_parse_text hstart hstop hsheet hx
    rfl

end Gridfill

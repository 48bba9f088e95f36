import Gridfill.Proofs.Outcome
import Gridfill.Proofs.Reference.Range

/-!
# References to a cell or a range

Whether a reference is read as a cell or as a range is decided by its text, by a colon behind the last
exclamation mark. A reference that was read has a written form that is read the same way, also after it was
moved down (`Target.read_text`, `Target.valid_of_read`, `Target.Valid.down`).
-/

namespace Gridfill

/-- A reference to one cell or to a range. -/
inductive Target where
  | cell (c : CellRef)
  | range (r : CellRange)
deriving DecidableEq, Repr

namespace Target

/-- The sheet in front of the reference. -/
def sheet : Target → Option String
  | cell c => c.sheet
  | range r => r.start.sheet

/-- The first row of the reference. -/
def row : Target → Int
  | cell c => c.row
  | range r => r.start.row

/-- The reference with every row moved down. -/
def down (t : Target) (rows : Int) : Target :=
  match t with
  | cell c => cell (c.down rows)
  | range r => range (r.down rows)

/-- The written form. -/
def text : Target → String
  | cell c => c.text
  | range r => r.text

/-- The written form, unless a row has too many digits. -/
def write : Target → Except Failure String
  | cell c => c.write
  | range r => r.write

/-- The written form behind the sheet. -/
def body : Target → List Char
  | cell c => c.localChars
  | range r => r.start.localChars ++ ':' :: r.stop.localChars

/-- The reference that a text spells, if it spells one. -/
def read (s : String) : Option Target :=
  if CellRange.looksLike s then (CellRange.parse s).toOption.map range else (CellRef.parse s).toOption.map cell

/-- The reference without a sheet that has no name. -/
def normal : Target → Target
  | cell c => cell c
  | range r => range r.normal

/-- A reference to valid cells, with a sheet in front of it that reading leaves there. -/
def Valid : Target → Prop
  | cell c => c.Valid ∧ CellRef.IsSheet c.sheet
  | range r => r.Valid ∧ ∀ q ∈ r.start.sheet, ∀ c ∈ q.toList.head?, Text.isBlank c = false

@[simp]
theorem sheet_down (t : Target) (k : Int) : (t.down k).sheet = t.sheet := by
  cases t <;> rfl

@[simp]
theorem row_down (t : Target) (k : Int) : (t.down k).row = t.row + k := by
  cases t <;> rfl

@[simp]
theorem row_normal (t : Target) : t.normal.row = t.row := by
  cases t <;> rfl

@[simp]
theorem down_down (t : Target) (i j : Int) : (t.down i).down j = t.down (i + j) := by
  cases t <;> simp only [down, CellRange.down, CellRef.down, Int.add_assoc]

/-- A sheet without a name is not written. -/
theorem text_down_normal (t : Target) (k : Int) : (t.normal.down k).text = (t.down k).text := by
  cases t with
  | cell c => rfl
  | range r =>
      have chars : ((r.normal.down k).start).sheetChars = ((r.down k).start).sheetChars := by
        rw [CellRange.sheetChars_eq, CellRange.sheetChars_eq]
        show ((r.start.sheet.filter (· ≠ "")).filter (· ≠ "")).elim _ _ = (r.start.sheet.filter (· ≠ "")).elim _ _
        rw [Option.filter_filter]
        simp only [Bool.and_self]
      show String.ofList (_ ++ (r.start.down k).localChars) ++ ":" ++ (r.stop.down k).text =
        String.ofList (_ ++ (r.start.down k).localChars) ++ ":" ++ (r.stop.down k).text
      rw [chars]

theorem normal_eq_self {t : Target} (h : t.sheet ≠ some "") : t.normal = t := by
  cases t with
  | cell c => rfl
  | range r =>
      have same : r.start.sheet.filter (· ≠ "") = r.start.sheet := by
        cases hs : r.start.sheet with
        | none => rfl
        | some q =>
            apply Option.filter_eq_some_iff.mpr
            refine ⟨rfl, decide_eq_true ?_⟩
            rintro rfl
            exact h hs
      show range ⟨{ r.start with sheet := r.start.sheet.filter (· ≠ "") }, r.stop⟩ = range r
      rw [same]

/-! ### The written form -/

theorem Valid.body_ne_nil {t : Target} (h : t.Valid) : t.body ≠ [] := by
  cases t with
  | cell c => exact h.1.localChars_ne_nil
  | range r =>
      intro e
      cases (List.append_eq_nil_iff.mp e).2

theorem Valid.isLocal_of_mem_body {t : Target} (h : t.Valid) {c : Char} (hc : c ∈ t.body) :
    CellRef.IsLocal c ∨ c = ':' := by
  cases t with
  | cell _ => exact .inl (h.1.isLocal c hc)
  | range r =>
      rcases List.mem_append.mp hc with hc | hc
      · exact .inl (h.1.start.isLocal c hc)
      · rcases List.mem_cons.mp hc with rfl | hc
        · exact .inr rfl
        · exact .inl (h.1.stop.isLocal c hc)

/-- The characters of the written form: the sheet with its exclamation mark, and the body. -/
theorem Valid.toList_text {t : Target} (h : t.Valid) :
    t.text.toList = ((t.sheet.filter (· ≠ "")).elim [] fun q => q.toList ++ ['!']) ++ t.body := by
  cases t with
  | cell c =>
      show c.text.toList = _
      rw [CellRef.text, String.toList_ofList, CellRange.sheetChars_eq]
      rfl
  | range r =>
      have stopChars : r.stop.sheetChars = [] := by rw [CellRef.sheetChars, h.1.stop_sheet]
      show r.text.toList = _
      simp only [CellRange.text, CellRef.text, stopChars, List.nil_append, String.toList_append, String.toList_ofList,
        CellRange.sheetChars_eq, sheet, body, List.append_assoc]
      rfl

theorem Valid.head_sheet {t : Target} (h : t.Valid) {q : String} (hq : t.sheet = some q) :
    ∀ c ∈ q.toList.head?, Text.isBlank c = false := by
  cases t with
  | cell c =>
      have isSheet := h.2
      rw [show c.sheet = some q from hq] at isSheet
      exact isSheet.2.2
  | range r => exact h.2 q hq

theorem mem_text {t : Target} (h : t.Valid) {c : Char} (hc : c ∈ t.text.toList) :
    (∃ q ∈ t.sheet, c ∈ q.toList) ∨ c = '!' ∨ c ∈ t.body := by
  rw [h.toList_text] at hc
  rcases List.mem_append.mp hc with hc | hc
  · cases hs : t.sheet.filter (· ≠ "") with
    | none =>
        rw [hs] at hc
        cases hc
    | some q =>
        rw [hs, Option.elim_some] at hc
        have hq := (Option.filter_eq_some_iff.mp hs).1
        rcases List.mem_append.mp hc with hc | hc
        · exact .inl ⟨q, hq, hc⟩
        · exact .inr (.inl (List.mem_singleton.mp hc))
  · exact .inr (.inr hc)

/-- The written form has no blank at its ends. -/
theorem strip_text {t : Target} (h : t.Valid) : Text.strip t.text.toList = t.text.toList := by
  have noBlank : ∀ c ∈ t.body, Text.isBlank c = false := by
    intro c hc
    rcases h.isLocal_of_mem_body hc with hl | rfl
    · exact hl.not_isBlank
    · decide
  rw [h.toList_text]
  apply Text.trim_of_ends
  · intro c hc
    cases hs : t.sheet.filter (· ≠ "") with
    | none =>
        rw [hs] at hc
        exact noBlank c (List.mem_of_mem_head? hc)
    | some q =>
        rw [hs, Option.elim_some] at hc
        obtain ⟨hq, named⟩ := Option.filter_eq_some_iff.mp hs
        apply h.head_sheet hq
        cases hl : q.toList with
        | nil => exact absurd (String.toList_injective hl) (of_decide_eq_true named)
        | cons d ds =>
            rw [hl] at hc
            exact hc
  · intro c hc
    apply noBlank
    cases hl : t.body.getLast? with
    | none => exact absurd (List.getLast?_eq_none_iff.mp hl) h.body_ne_nil
    | some l =>
        rw [List.getLast?_append, hl] at hc
        rw [← Option.some.inj hc]
        exact List.mem_of_getLast? hl

/-! ### Reading the written form -/

theorem cut_text {t : Target} (h : t.Valid) :
    Text.cutAtLast '!' t.text.toList = ((t.sheet.filter (· ≠ "")).map (·.toList), t.body) := by
  have noMark : '!' ∉ t.body := by
    intro hm
    rcases h.isLocal_of_mem_body hm with hl | hc
    · exact hl.ne (CellRef.not_isLocal_of_toNat (by decide) (by decide) (by decide)) rfl
    · cases hc
  rw [h.toList_text]
  cases t.sheet.filter (· ≠ "") with
  | none =>
      rw [Option.elim_none, List.nil_append, Text.cutAtLast_of_not_mem noMark]
      rfl
  | some q =>
      rw [Option.elim_some, List.append_assoc, List.singleton_append, Text.cutAtLast_append q.toList noMark]
      rfl

theorem looksLike_text {t : Target} (h : t.Valid) : CellRange.looksLike t.text = t.body.contains ':' := by
  unfold CellRange.looksLike
  rw [cut_text h]

/-- A valid reference reads back from its written form. -/
theorem read_text {t : Target} (h : t.Valid) : read t.text = some t.normal := by
  unfold read
  rw [looksLike_text h]
  cases t with
  | cell c =>
      have noColon : (body (cell c)).contains ':' = false := by
        apply Bool.eq_false_iff.mpr
        intro hm
        exact (CellRange.not_mem_localChars h.1.wide).1 (List.contains_iff_mem.mp hm)
      rw [noColon, if_neg (by decide)]
      show (CellRef.parse c.text).toOption.map cell = _
      rw [CellRef.parse_text h.1 h.2]
      rfl
  | range r =>
      have colon : (body (range r)).contains ':' = true := by
        apply List.contains_iff_mem.mpr
        exact List.mem_append_right _ List.mem_cons_self
      rw [colon, if_pos rfl]
      show (CellRange.parse r.text).toOption.map range = _
      rw [CellRange.parse_text h.1]
      rfl

/-- A text is recognised as a reference exactly when it reads as one. -/
theorem isSome_read {s : String} {b : Bool} (h : isReference s = .ok b) : b = (read s).isSome := by
  have isSome_toOption {α : Type} (x : Except Failure α) (wrap : α → Target) :
      (x.toOption.map wrap).isSome = (x.map fun _ => ()).toOption.isSome := by
    cases x <;> rfl
  have recognised : (read s).isSome = (if CellRange.looksLike s then (CellRange.parse s).map fun _ => ()
      else (CellRef.parse s).map fun _ => ()).toOption.isSome := by
    unfold read
    split
    · exact isSome_toOption _ range
    · exact isSome_toOption _ cell
  unfold isReference at h
  rw [recognised]
  generalize (if CellRange.looksLike s then (CellRange.parse s).map fun _ => ()
    else (CellRef.parse s).map fun _ => () : Except Failure Unit) = outcome at h ⊢
  cases outcome with
  | ok _ => exact (Except.ok.inj h).symm
  | error f =>
      cases f with
      | reference _ _ => exact (Except.ok.inj h).symm
      | _ => cases h

/-! ### What was read -/

theorem qualifier_of_readParts {cs : List Char} {q : String} {p : CellRef.LocalParts}
    (h : CellRef.readParts cs = some (some q, p)) :
    (Text.cutAtLast '!' cs).1 = some q.toList ∧ CellRef.isQualifier q.toList = true := by
  unfold CellRef.readParts at h
  split at h
  · next body e =>
    cases hl : CellRef.readLocal body with
    | none =>
        rw [hl] at h
        cases h
    | some _ =>
        rw [hl] at h
        cases h
  · next before body e =>
    split at h
    · next fit =>
      obtain ⟨parts, -, h⟩ := Option.map_eq_some_iff.mp h
      obtain ⟨hq, -⟩ := Prod.mk.inj h
      rw [e, ← Option.some.inj hq, String.toList_ofList]
      exact ⟨rfl, fit⟩
    · cases h

theorem cases_of_read {s : String} {t : Target} (h : read s = some t) :
    (∃ c, t = cell c ∧ CellRange.looksLike s = false ∧ CellRef.parse s = .ok c) ∨
      ∃ r, t = range r ∧ CellRange.looksLike s = true ∧ CellRange.parse s = .ok r := by
  unfold read at h
  split at h
  · next colon =>
    obtain ⟨r, hr, ht⟩ := Option.map_eq_some_iff.mp h
    exact .inr ⟨r, ht.symm, colon, toOption_eq_some_iff.mp hr⟩
  · next colon =>
    obtain ⟨c, hc, ht⟩ := Option.map_eq_some_iff.mp h
    exact .inl ⟨c, ht.symm, Bool.eq_false_iff.mpr colon, toOption_eq_some_iff.mp hc⟩

/-- The sheet of a reference that was read stands in its text in front of an exclamation mark. -/
theorem exists_of_sheet {s : String} {t : Target} {q : String} (hs : Text.strip s.toList = s.toList)
    (h : read s = some t) (hq : t.sheet = some q) : ∃ rest, s.toList = q.toList ++ '!' :: rest := by
  have cut : (Text.cutAtLast '!' s.toList).1 = some q.toList := by
    rcases cases_of_read h with ⟨c, rfl, -, hc⟩ | ⟨r, rfl, -, hr⟩
    · obtain ⟨p, hp, -⟩ := CellRef.exists_of_parse hc
      rw [hs, show c.sheet = some q from hq] at hp
      exact (qualifier_of_readParts hp).1
    · obtain ⟨a, b, start, hf, ha, -, hstart⟩ := CellRange.exists_of_parse hr
      have bare : start.sheet = none := by
        apply CellRange.sheet_of_parse ha
        intro hm
        apply Text.not_mem_cutAtLast '!' s.toList
        have ha : a ∈ Text.fields ':' (Text.cutAtLast '!' s.toList).2 := by
          rw [hf]
          exact List.mem_cons_self
        exact Text.mem_of_mem_fields ha hm
      have sheet : r.start.sheet = some q := hq
      rw [hstart, bare, Option.or_none] at sheet
      obtain ⟨before, hb, e⟩ := Option.map_eq_some_iff.mp sheet
      rw [hb, ← e, String.toList_ofList]
  exact ⟨_, Text.cutAtLast_eq_some (Prod.ext cut rfl)⟩

theorem valid_of_read {s : String} {t : Target} (hs : Text.strip s.toList = s.toList) (h : read s = some t) :
    t.Valid := by
  -- the sheet begins where the text begins, and the text does not begin with a blank
  have front : ∀ q ∈ t.sheet, ∀ c ∈ q.toList.head?, Text.isBlank c = false := by
    intro q hq c hc
    obtain ⟨rest, e⟩ := exists_of_sheet hs h hq
    have first := (Text.ends_trim (p := Text.isBlank) s.toList).1
    rw [show Text.trim Text.isBlank s.toList = s.toList from hs, e] at first
    apply first
    cases hl : q.toList with
    | nil =>
        rw [hl] at hc
        cases hc
    | cons d ds =>
        rw [hl] at hc
        exact hc
  rcases cases_of_read h with ⟨c, rfl, -, hc⟩ | ⟨r, rfl, -, hr⟩
  · refine ⟨CellRef.valid_of_parse hc, ?_⟩
    cases hq : c.sheet with
    | none => trivial
    | some q =>
        obtain ⟨p, hp, -⟩ := CellRef.exists_of_parse hc
        rw [hq] at hp
        have fit := (qualifier_of_readParts hp).2
        unfold CellRef.isQualifier at fit
        simp only [Bool.and_eq_true, Bool.not_eq_true', List.isEmpty_eq_false_iff, List.contains_eq_mem,
          decide_eq_false_iff_not] at fit
        refine ⟨?_, fit.2, front q hq⟩
        rintro rfl
        exact fit.1 rfl
  · exact ⟨CellRange.valid_of_parse hr, front⟩

/-- A reference that was moved down and was written is valid, and the text is its written form. -/
theorem Valid.down {t : Target} (h : t.Valid) {k : Int} (hk : 0 ≤ k) {s : String} (hw : (t.down k).write = .ok s) :
    (t.down k).Valid ∧ s = (t.down k).text := by
  cases t with
  | cell c =>
      obtain ⟨bound, e⟩ := CellRef.write_eq_ok_iff.mp hw
      have := h.1.row_pos
      exact ⟨⟨h.1.down (by omega) bound, h.2⟩, e⟩
  | range r =>
      obtain ⟨first, last, e⟩ := CellRange.write_eq_ok_iff.mp hw
      have := h.1.start.row_pos
      have := h.1.stop.row_pos
      exact ⟨⟨⟨h.1.start.down (by omega) first, h.1.stop.down (by omega) last, h.1.stop_sheet⟩, h.2⟩, e⟩

end Target
end Gridfill

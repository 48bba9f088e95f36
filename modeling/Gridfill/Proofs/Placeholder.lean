import Gridfill.Placeholder

/-!
# Where placeholders stand

A text without an opening mark holds no placeholder, whatever closing marks it has (`scan_eq_nil`). A
placeholder is written as it stands in the text, so one that spans the whole text is written as the text
(`raw_of_whole`).
-/

namespace Gridfill.Placeholder

/-- The text holds an opening mark. -/
def HasMark (text : String) : Prop := ['$', '{'] <:+: text.toList

/-- A text without a dollar sign has no opening mark. -/
theorem not_hasMark_of_not_mem {text : String} (h : '$' ∉ text.toList) : ¬ HasMark text := by
  intro hm
  exact h (hm.subset (List.mem_cons_self ..))

/-- Without an opening mark no span is found. -/
theorem spansFrom_none_eq_nil : ∀ (pos : Nat) (cs : List Char), ¬ ['$', '{'] <:+: cs →
    spansFrom pos none cs = []
  | _, [], _ => by rw [spansFrom]
  | pos, [c], _ => by
      rw [spansFrom]
      split
      · rw [spansFrom]
      · rfl
  | pos, c :: d :: ds, h => by
      have tail : ¬ ['$', '{'] <:+: d :: ds := fun hm => h (hm.trans (List.suffix_cons c _).isInfix)
      have front : ¬ (c = '$' ∧ d = '{') := by
        rintro ⟨rfl, rfl⟩
        exact h (List.prefix_append ['$', '{'] ds).isInfix
      rw [spansFrom]
      split
      · exact spansFrom_none_eq_nil (pos + 1) (d :: ds) tail
      · exact spansFrom_none_eq_nil (pos + 1) (d :: ds) tail

theorem scan_eq_nil {text : String} (h : ¬ HasMark text) : scan text = [] := by
  rw [scan, scanChars, spans, spansFrom_none_eq_nil 0 _ h, List.filterMap_nil]

/-- The text from an opening mark on, as far as it was read. -/
def openedChars (opened : Option Span) : List Char := opened.elim [] fun s => '$' :: '{' :: s.body.reverse

/-- A span that is found stands in the text, or in what was open before it. -/
theorem infix_of_mem_spansFrom {s : Span} {pos : Nat} {opened : Option Span} {cs : List Char}
    (h : s ∈ spansFrom pos opened cs) : s.rawChars <:+: openedChars opened ++ cs := by
  induction pos, opened, cs using spansFrom.induct with
  | case1 => cases h
  | case2 pos cs o ih =>
      unfold spansFrom at h
      simp only [if_true] at h
      rcases List.mem_cons.mp h with rfl | h
      · apply List.IsPrefix.isInfix
        refine ⟨cs, ?_⟩
        simp [Span.rawChars, openedChars]
      · apply (ih h).trans
        apply List.IsSuffix.isInfix
        refine ⟨openedChars (some o) ++ ['}'], ?_⟩
        simp [openedChars]
  | case3 pos cs ih =>
      unfold spansFrom at h
      simp only [if_true] at h
      exact (ih h).trans (List.suffix_cons '}' cs).isInfix
  | case4 pos opened c hc d ds mark ih =>
      unfold spansFrom at h
      simp only [if_neg hc, if_pos mark] at h
      obtain ⟨rfl, rfl⟩ := mark
      exact (ih h).trans (List.suffix_append (openedChars opened) _).isInfix
  | case5 pos opened c hc d ds mark ih =>
      unfold spansFrom at h
      simp only [if_neg hc, if_neg mark] at h
      apply (ih h).trans
      cases opened with
      | none => exact (List.suffix_cons c (d :: ds)).isInfix
      | some o => simp [openedChars]
  | case6 pos opened c hc =>
      unfold spansFrom at h
      simp only [if_neg hc] at h
      cases h

/-- A placeholder that spans the whole text is written as the text. -/
theorem raw_of_whole {text : String} {p : Placeholder} (h : p ∈ scan text) (whole : p.whole = true) :
    p.raw = text := by
  obtain ⟨s, hs, hp⟩ := List.mem_filterMap.mp h
  have inside := infix_of_mem_spansFrom hs
  obtain ⟨b, -, rfl⟩ := Option.map_eq_some_iff.mp hp
  have length : s.body.length + 3 = text.toList.length := of_decide_eq_true whole
  have same : s.rawChars = text.toList := by
    apply inside.eq_of_length
    simp only [Span.rawChars, openedChars, Option.elim_none, List.nil_append, List.length_cons, List.length_append,
      List.length_nil]
    omega
  show String.ofList s.rawChars = text
  rw [same, String.ofList_toList]

end Gridfill.Placeholder

import Gridfill.Text.Blank
import Gridfill.Text.Cut

/-!
# Pieces of texts

What stripping a text and cutting it at separators does: a text without blanks at its ends stays as it
is (`trim_of_ends`), and cutting undoes joining where the separator does not occur in the pieces
(`cutAtFirst_append`, `cutAtLast_append`, `fields_append`). A text without blanks is one word
(`words_of_not_isBlank`). A text whose quotes were doubled reads back (`undouble_double`), and
one that is overwritten as a whole becomes the new text (`replaceFirst_self`).
-/

namespace Gridfill.Text

/-! ### Without blanks -/

theorem trim_of_ends {p : Char → Bool} {cs : List Char} (hh : ∀ c ∈ cs.head?, p c = false)
    (hl : ∀ c ∈ cs.getLast?, p c = false) : trim p cs = cs := by
  have drop : ∀ {cs : List Char}, (∀ c ∈ cs.head?, p c = false) → cs.dropWhile p = cs := by
    intro cs h
    cases cs with
    | nil => rfl
    | cons c cs => simp [h c (by simp)]
  rw [trim, drop hh, drop (by simpa using hl), List.reverse_reverse]

theorem trim_eq_self {p : Char → Bool} {cs : List Char} (h : ∀ c ∈ cs, p c = false) :
    trim p cs = cs :=
  trim_of_ends (fun c hc => h c (List.mem_of_mem_head? hc))
    fun c hc => h c (List.mem_of_mem_getLast? hc)

theorem mem_of_mem_trim {p : Char → Bool} {cs : List Char} {c : Char} (h : c ∈ trim p cs) :
    c ∈ cs := by
  rw [trim, List.mem_reverse] at h
  have h := (List.dropWhile_sublist p).mem h
  exact (List.dropWhile_sublist p).mem (List.mem_reverse.mp h)

theorem not_of_head?_dropWhile {p : Char → Bool} {cs : List Char} : ∀ c ∈ (cs.dropWhile p).head?, p c = false := by
  intro c hc
  have key := List.head?_dropWhile_not p cs
  rw [hc] at key
  exact key

/-- A stripped text has no blank at its ends. -/
theorem ends_trim {p : Char → Bool} (cs : List Char) :
    (∀ c ∈ (trim p cs).head?, p c = false) ∧ ∀ c ∈ (trim p cs).getLast?, p c = false := by
  unfold trim
  constructor
  · intro c hc
    rw [List.head?_reverse] at hc
    -- what is taken off at the end leaves the front as it is
    have front : (cs.dropWhile p).reverse.getLast? = some c := List.getLast?_eq_some_iff.mpr (by
      obtain ⟨taken, ht⟩ := List.dropWhile_suffix p (l := (cs.dropWhile p).reverse)
      obtain ⟨before, hb⟩ := List.getLast?_eq_some_iff.mp hc
      exact ⟨taken ++ before, by rw [← ht, hb, List.append_assoc]⟩)
    rw [List.getLast?_reverse] at front
    exact not_of_head?_dropWhile c front
  · intro c hc
    rw [List.getLast?_reverse] at hc
    exact not_of_head?_dropWhile c hc

theorem trim_trim {p : Char → Bool} (cs : List Char) : trim p (trim p cs) = trim p cs := by
  obtain ⟨front, back⟩ := ends_trim (p := p) cs
  exact trim_of_ends front back

/-! ### Cutting -/

theorem cutAtLast_of_not_mem {sep : Char} : ∀ {cs : List Char}, sep ∉ cs →
    cutAtLast sep cs = (none, cs)
  | [], _ => rfl
  | c :: cs, h => by
      have hc : c ≠ sep := fun e => h (e ▸ List.mem_cons_self)
      rw [cutAtLast, cutAtLast_of_not_mem fun hm => h (List.mem_cons_of_mem c hm)]
      simp [hc]

theorem cutAtLast_append {sep : Char} (q : List Char) {cs : List Char} (h : sep ∉ cs) :
    cutAtLast sep (q ++ sep :: cs) = (some q, cs) := by
  induction q with
  | nil =>
      rw [List.nil_append, cutAtLast, cutAtLast_of_not_mem h]
      simp
  | cons c q ih => rw [List.cons_append, cutAtLast, ih]

/-- No separator is left behind the last one. -/
theorem not_mem_cutAtLast (sep : Char) : ∀ (cs : List Char), sep ∉ (cutAtLast sep cs).2
  | [] => by simp [cutAtLast]
  | c :: cs => by
      have ih := not_mem_cutAtLast sep cs
      rw [cutAtLast]
      split
      · next before after e => rwa [e] at ih
      · next after e =>
        rw [e] at ih
        split
        · exact ih
        · next hc =>
          intro hm
          rcases List.mem_cons.mp hm with e | hm
          · exact hc e.symm
          · exact ih hm

theorem cutAtFirst_append {sep : Char} (cs : List Char) : ∀ {front : List Char}, sep ∉ front →
    cutAtFirst sep (front ++ sep :: cs) = (front, some cs)
  | [], _ => by rw [List.nil_append, cutAtFirst, if_pos rfl]
  | d :: front, h => by
      have hd : d ≠ sep := fun e => h (e ▸ List.mem_cons_self)
      rw [List.cons_append, cutAtFirst, if_neg hd, cutAtFirst_append cs fun hm => h (List.mem_cons_of_mem d hm)]

/-- No separator stands in front of the first one. -/
theorem not_mem_cutAtFirst (sep : Char) : ∀ (cs : List Char), sep ∉ (cutAtFirst sep cs).1
  | [] => List.not_mem_nil
  | c :: cs => by
      have ih := not_mem_cutAtFirst sep cs
      rw [cutAtFirst]
      split
      · exact List.not_mem_nil
      · next hc =>
        intro hm
        rcases List.mem_cons.mp hm with e | hm
        · exact hc e.symm
        · exact ih hm

theorem cutAtFirst_eq_some_iff {sep : Char} {cs front back : List Char} :
    cutAtFirst sep cs = (front, some back) ↔ sep ∉ front ∧ cs = front ++ sep :: back := by
  constructor
  · intro h
    have none := not_mem_cutAtFirst sep cs
    have join := cutAtFirst_join sep cs
    rw [h] at none join
    exact ⟨none, join.symm⟩
  · rintro ⟨none, rfl⟩
    exact cutAtFirst_append back none

theorem fields_of_not_mem {sep : Char} : ∀ {cs : List Char}, sep ∉ cs → fields sep cs = [cs]
  | [], _ => rfl
  | c :: cs, h => by
      have hc : c ≠ sep := fun e => h (e ▸ List.mem_cons_self)
      rw [fields, if_neg hc, fields_of_not_mem fun hm => h (List.mem_cons_of_mem c hm)]

theorem fields_append {sep : Char} (cs : List Char) : ∀ {ds : List Char}, sep ∉ ds →
    fields sep (ds ++ sep :: cs) = ds :: fields sep cs
  | [], _ => by rw [List.nil_append, fields, if_pos rfl]
  | d :: ds, h => by
      have hd : d ≠ sep := fun e => h (e ▸ List.mem_cons_self)
      rw [List.cons_append, fields, if_neg hd, fields_append cs fun hm => h (List.mem_cons_of_mem d hm)]

/-- The text before the last separator is a part of the text from its front. -/
theorem cutAtLast_eq_some {sep : Char} {cs before after : List Char} (h : cutAtLast sep cs = (some before, after)) :
    cs = before ++ sep :: after := by
  have join := cutAtLast_join sep cs
  rw [h] at join
  rw [← join, Option.elim_some, List.append_assoc, List.singleton_append]

/-- The pieces between separators hold nothing that the text does not hold. -/
theorem mem_of_mem_fields {sep : Char} {f cs : List Char} {c : Char} (hf : f ∈ fields sep cs)
    (hc : c ∈ f) : c ∈ cs := by
  induction cs generalizing f with
  | nil =>
      rw [fields, List.mem_singleton] at hf
      rwa [hf] at hc
  | cons d ds ih =>
      rw [fields] at hf
      split at hf
      · rcases List.mem_cons.mp hf with rfl | hf
        · cases hc
        · exact List.mem_cons_of_mem d (ih hf hc)
      · split at hf
        · rw [List.mem_singleton.mp hf] at hc
          exact List.mem_singleton.mp hc ▸ List.mem_cons_self
        · next f' fs e =>
          rcases List.mem_cons.mp hf with rfl | hf
          · rcases List.mem_cons.mp hc with rfl | hc
            · exact List.mem_cons_self
            · exact List.mem_cons_of_mem d (ih (by rw [e]; exact List.mem_cons_self) hc)
          · exact List.mem_cons_of_mem d (ih (by rw [e]; exact List.mem_cons_of_mem _ hf) hc)

/-! ### Words -/

/-- Words have characters, none of them blank. -/
theorem not_isBlank_of_mem_words {w cs : List Char} (h : w ∈ words cs) :
    w ≠ [] ∧ ∀ c ∈ w, isBlank c = false := by
  have single {c : Char} (hc : ¬ isBlank c = true) : ∀ d ∈ [c], isBlank d = false := by
    rintro d hd
    rw [List.mem_singleton.mp hd]
    exact Bool.eq_false_iff.mpr hc
  induction cs generalizing w with
  | nil => cases h
  | cons c cs ih =>
      unfold words at h
      split at h
      · exact ih h
      · next hc =>
        split at h
        · rw [List.mem_singleton.mp h]
          exact ⟨List.cons_ne_nil c [], single hc⟩
        · next d ds =>
          split at h
          · rcases List.mem_cons.mp h with rfl | h
            · exact ⟨List.cons_ne_nil c [], single hc⟩
            · exact ih h
          · split at h
            · rw [List.mem_singleton.mp h]
              exact ⟨List.cons_ne_nil c [], single hc⟩
            · next v vs e =>
              rcases List.mem_cons.mp h with rfl | h
              · refine ⟨List.cons_ne_nil c v, fun b hb => ?_⟩
                rcases List.mem_cons.mp hb with rfl | hb
                · exact Bool.eq_false_iff.mpr hc
                · exact (ih (e ▸ List.mem_cons_self)).2 b hb
              · exact ih (e ▸ List.mem_cons_of_mem v h)

/-- A text without blanks is a single word. -/
theorem words_of_not_isBlank {cs : List Char} (some : cs ≠ []) (h : ∀ c ∈ cs, isBlank c = false) :
    words cs = [cs] := by
  induction cs with
  | nil => exact absurd rfl some
  | cons c cs ih =>
      have hc := h c List.mem_cons_self
      unfold words
      rw [if_neg (Bool.eq_false_iff.mp hc)]
      cases cs with
      | nil => rfl
      | cons d ds =>
          have hd := h d (by simp)
          have rest := ih (List.cons_ne_nil d ds) fun b hb => h b (List.mem_cons_of_mem c hb)
          simp only [if_neg (Bool.eq_false_iff.mp hd), rest]

/-! ### Doubled quotes -/

/-- The text with each character `q` written twice. -/
def double (q : Char) : List Char → List Char
  | [] => []
  | c :: cs => if c = q then q :: q :: double q cs else c :: double q cs

theorem undouble_double (q : Char) (cs : List Char) : undouble q (double q cs) = cs := by
  induction cs with
  | nil => rfl
  | cons c cs ih =>
      unfold double
      split
      · next h =>
        unfold undouble
        rw [if_pos rfl]
        simp only [if_true]
        rw [ih, h]
      · next h =>
        unfold undouble
        rw [if_neg h, ih]

/-! ### Overwriting -/

/-- A text that is overwritten as a whole becomes the new text. -/
theorem replaceFirst_self (old new : List Char) : replaceFirst old new old = new := by
  have found : find? old old = some ([], []) := by
    cases old with
    | nil => rfl
    | cons c cs =>
        have lead := dropLead?_append (c :: cs) []
        rw [List.append_nil] at lead
        simp only [find?, lead]
  unfold replaceFirst
  rw [found]
  exact List.append_nil new

end Gridfill.Text

import Gridfill.Proofs.Text.Woven
import Gridfill.Proofs.Value.Wording
import Mathlib.Data.List.Infix

/-!
# Placeholders overwritten where they stand

What a text becomes when each of its placeholders is overwritten at its own place, all at once (`overwritten`): a
placeholder that resolves gives way to the text of its value, any other stays as it is written, and what comes from a
value is not looked at again. Overwriting the placeholders one after the other, each at the first place where it is
written, comes to the same as long as each is found first at its own place (`FoundInPlace`).
-/

namespace Gridfill

/-! ### The first place of a piece -/

/-- A piece whose last character stands nowhere else in it does not begin in front of itself and end in itself. -/
theorem Text.prefix_of_prefix_append {init : List Char} {c : Char} (once : c ∉ init) {front back : List Char}
    (some : front ≠ []) (h : init ++ [c] <+: front ++ (init ++ [c]) ++ back) : init ++ [c] <+: front := by
  rw [List.append_assoc] at h
  by_cases long : (init ++ [c]).length ≤ front.length
  · exact List.prefix_of_prefix_length_le h (List.prefix_append front _) long
  · rw [List.length_append, List.length_singleton] at long
    have front_pos := List.length_pos_iff.mpr some
    obtain ⟨rest, text⟩ := h
    have last : (init ++ [c] ++ rest)[init.length]? = Option.some c := by
      rw [List.append_assoc, List.getElem?_append_right (Nat.le_refl _), Nat.sub_self]
      rfl
    rw [text, List.getElem?_append_right (by omega), List.append_assoc, List.getElem?_append_left (by omega)] at last
    exact absurd (List.mem_of_getElem? last) once

/-- The first place of a piece whose last character stands nowhere else in it is known when the piece does not stand
before it. -/
theorem Text.replaceFirst_of_not_infix {init : List Char} {c : Char} (once : c ∉ init) (new : List Char)
    {front : List Char} (back : List Char) (h : ¬ init ++ [c] <:+: front) :
    replaceFirst (init ++ [c]) new (front ++ (init ++ [c]) ++ back) = front ++ new ++ back := by
  have found : ∀ {front : List Char}, ¬ init ++ [c] <:+: front →
      find? (init ++ [c]) (front ++ (init ++ [c]) ++ back) = some (front, back) := by
    intro front h
    induction front with
    | nil =>
        obtain ⟨d, ds, hd⟩ := List.exists_cons_of_ne_nil (List.append_ne_nil_of_right_ne_nil init (List.cons_ne_nil c []))
        rw [List.nil_append, hd, List.cons_append, find?, ← List.cons_append, dropLead?_append]
    | cons d ds ih =>
        have here : dropLead? (init ++ [c]) (d :: (ds ++ (init ++ [c]) ++ back)) = none := by
          refine Option.eq_none_iff_forall_ne_some.mpr fun rest leads => h ?_
          have begins : init ++ [c] <+: d :: ds ++ (init ++ [c]) ++ back := ⟨rest, (dropLead?_eq_some leads).symm⟩
          exact (prefix_of_prefix_append once (List.cons_ne_nil d ds) begins).isInfix
        rw [List.cons_append, List.cons_append, find?, here, ih fun hi => h (hi.trans (List.suffix_cons d ds).isInfix)]
        rfl
  rw [replaceFirst, found h]

theorem Text.eq_of_find? {piece : List Char} : ∀ {cs front back : List Char}, find? piece cs = some (front, back) →
    cs = front ++ piece ++ back
  | [], front, back, h => by
      rw [find?] at h
      split at h
      · next none =>
        obtain ⟨rfl, rfl⟩ := Prod.mk.inj (Option.some.inj h)
        rw [List.isEmpty_iff.mp none]
        rfl
      · cases h
  | c :: cs, front, back, h => by
      rw [find?] at h
      split at h
      · next rest leads =>
        obtain ⟨rfl, rfl⟩ := Prod.mk.inj (Option.some.inj h)
        exact dropLead?_eq_some leads
      · obtain ⟨⟨front', back'⟩, found, same⟩ := Option.map_eq_some_iff.mp h
        obtain ⟨rfl, rfl⟩ := Prod.mk.inj same
        exact congrArg (c :: ·) (eq_of_find? found)

/-- What is overwritten has its characters from the text and from what comes into it. -/
theorem Text.mem_of_mem_replaceFirst {old new cs : List Char} {c : Char} (h : c ∈ replaceFirst old new cs) :
    c ∈ new ∨ c ∈ cs := by
  rw [replaceFirst] at h
  split at h
  · next front back found =>
    rw [eq_of_find? found]
    simp only [List.mem_append] at h ⊢
    rcases h with (h | h) | h
    · exact .inr (.inl (.inl h))
    · exact .inl h
    · exact .inr (.inr h)
  · exact .inr h

namespace Placeholder

/-! ### Where the placeholders stand -/

/-- The body of a span holds no closing mark. -/
theorem not_mem_body_of_mem_spansFrom {s : Span} {pos : Nat} {opened : Option Span} {cs : List Char}
    (h : s ∈ spansFrom pos opened cs) (hopened : ∀ o, opened = some o → '}' ∉ o.body) : '}' ∉ s.body := by
  induction pos, opened, cs using spansFrom.induct with
  | case1 => cases h
  | case2 pos cs o ih =>
      unfold spansFrom at h
      simp only [if_true] at h
      rcases List.mem_cons.mp h with rfl | h
      · exact fun hm => hopened o rfl (List.mem_reverse.mp hm)
      · exact ih h fun _ ho => by cases ho
  | case3 pos cs ih =>
      unfold spansFrom at h
      simp only [if_true] at h
      exact ih h fun _ ho => by cases ho
  | case4 pos opened c hc d ds mark ih =>
      unfold spansFrom at h
      simp only [if_neg hc, if_pos mark] at h
      refine ih h fun o ho => ?_
      rw [← Option.some.inj ho]
      exact List.not_mem_nil
  | case5 pos opened c hc d ds mark ih =>
      unfold spansFrom at h
      simp only [if_neg hc, if_neg mark] at h
      refine ih h fun o ho => ?_
      obtain ⟨before, rfl, rfl⟩ := Option.map_eq_some_iff.mp ho
      intro hm
      rcases List.mem_cons.mp hm with e | hm
      · exact hc e.symm
      · exact hopened before rfl hm
  | case6 pos opened c hc =>
      unfold spansFrom at h
      simp only [if_neg hc] at h
      cases h

/-- The placeholders stand one behind the other in a text whose first character is at a place, each where it says, and
the closing mark of each stands only at its end. -/
inductive Located : Nat → List Placeholder → List Char → Prop where
  | nil (pos : Nat) (cs : List Char) : Located pos [] cs
  | cons {pos : Nat} {p : Placeholder} {ps : List Placeholder} {front opening back : List Char}
      (written : p.raw.toList = opening ++ ['}']) (closing : '}' ∉ opening) (start : p.start = pos + front.length)
      (stop : p.stop = p.start + p.raw.toList.length) (rest : Located p.stop ps back) :
      Located pos (p :: ps) (front ++ p.raw.toList ++ back)

theorem Located.append {pos : Nat} {ps : List Placeholder} {front back : List Char}
    (h : Located (pos + front.length) ps back) : Located pos ps (front ++ back) := by
  cases h with
  | nil => exact .nil pos _
  | cons written closing start stop rest =>
      rw [← List.append_assoc, ← List.append_assoc]
      refine .cons written closing ?_ stop rest
      rw [List.length_append, start, Nat.add_assoc]

theorem located_of_spaced {n pos : Nat} {ss : List Span} {cs : List Char} (h : Spaced pos ss cs)
    (closed : ∀ s ∈ ss, '}' ∉ s.body) : Located pos (ss.filterMap (ofSpan n)) cs := by
  induction h with
  | nil pos cs => exact .nil pos cs
  | @cons pos s ss front back start rest ih =>
      have located := ih fun t ht => closed t (List.mem_cons_of_mem s ht)
      cases hp : ofSpan n s with
      | none =>
          rw [List.filterMap_cons, hp]
          refine Located.append ?_
          rwa [List.length_append, ← Nat.add_assoc, ← start]
      | some p =>
          obtain ⟨pstart, pstop, praw⟩ := ofSpan_eq_some hp
          rw [List.filterMap_cons, hp]
          show Located pos (p :: ss.filterMap (ofSpan n)) (front ++ s.rawChars ++ back)
          rw [← praw]
          have own : '}' ∉ '$' :: '{' :: s.body := by simp [closed s List.mem_cons_self]
          refine .cons praw own (pstart.trans start) ?_ ?_
          · rw [pstop, pstart, praw]
          · rwa [pstop]

/-- The placeholders of a text stand where they say. -/
theorem located_scan (text : String) : Located 0 (scan text) text.toList :=
  located_of_spaced (spaced_spansFrom rfl) fun _ hs => not_mem_body_of_mem_spansFrom hs fun _ ho => by cases ho

/-! ### Overwriting all at once -/

/-- What stands in the place of a placeholder of the text after it is overwritten: the text of the value that it
resolves to, or what is written there. -/
def replacement (data : Bindings) (text : List Char) (p : Placeholder) : List Char :=
  match data.find? p.name p.key with
  | some v => v.wording.toList
  | none => text.extract p.start p.stop

/-- The text from place `pos` to place `stop` with the placeholders between them overwritten where they stand. -/
def overwrittenTo (data : Bindings) (text : List Char) (stop : Nat) : Nat → List Placeholder → List Char
  | pos, [] => text.extract pos stop
  | pos, p :: ps =>
    text.extract pos p.start ++ replacement data text p ++ overwrittenTo data text stop p.stop ps

/-- The text with its placeholders overwritten where they stand. -/
def overwritten (data : Bindings) (text : String) : String :=
  String.ofList (overwrittenTo data text.toList text.toList.length 0 (scan text))

/-- Each placeholder that resolves is found first at its own place: it is not written in the text before it, once the
placeholders there are overwritten. -/
def FoundInPlace (data : Bindings) (text : String) : Prop :=
  ∀ (i : Nat) (p : Placeholder), (scan text)[i]? = some p → (data.find? p.name p.key).isSome = true →
    ¬ p.raw.toList <:+: overwrittenTo data text.toList p.start 0 ((scan text).take i)

instance (data : Bindings) (text : String) : Decidable (FoundInPlace data text) :=
  decidable_of_iff (∀ i : Fin (scan text).length,
      (data.find? (scan text)[i].name (scan text)[i].key).isSome = true →
        ¬ (scan text)[i].raw.toList <:+: overwrittenTo data text.toList (scan text)[i].start 0 ((scan text).take i))
    ⟨fun h i p hi => by
      obtain ⟨lt, rfl⟩ := List.getElem?_eq_some_iff.mp hi
      exact h ⟨i, lt⟩,
    fun h i => h i _ (List.getElem?_eq_getElem i.isLt)⟩

theorem overwrittenTo_append (data : Bindings) (text : List Char) (stop : Nat) (p : Placeholder)
    (ps : List Placeholder) : ∀ (before : List Placeholder) (pos : Nat),
      overwrittenTo data text stop pos (before ++ p :: ps) =
        overwrittenTo data text p.start pos before ++ replacement data text p ++ overwrittenTo data text stop p.stop ps
  | [], _ => rfl
  | q :: before, pos => by
      rw [List.cons_append, overwrittenTo, overwrittenTo_append data text stop p ps before q.stop, overwrittenTo]
      simp only [List.append_assoc]

theorem mem_overwrittenTo {data : Bindings} {text : List Char} {stop : Nat} {p : Placeholder} {c : Char} :
    ∀ {ps : List Placeholder} {pos : Nat}, p ∈ ps → c ∈ replacement data text p → c ∈ overwrittenTo data text stop pos ps
  | q :: ps, pos, hp, hc => by
      rw [overwrittenTo]
      rcases List.mem_cons.mp hp with rfl | hp
      · exact List.mem_append_left _ (List.mem_append_right _ hc)
      · exact List.mem_append_right _ (mem_overwrittenTo hp hc)

/-- What is written at the place of the next placeholder, in front of it and behind it. -/
theorem Located.extract {text : List Char} {pos : Nat} {p : Placeholder} {ps : List Placeholder}
    (h : Located pos (p :: ps) (text.drop pos)) :
    text.drop pos = text.extract pos p.start ++ p.raw.toList ++ text.drop p.stop ∧
      p.raw.toList = text.extract p.start p.stop ∧ ∃ opening, '}' ∉ opening ∧ p.raw.toList = opening ++ ['}'] ∧
      Located p.stop ps (text.drop p.stop) := by
  generalize ht : text.drop pos = rest at h
  cases h with
  | @cons _ _ _ front opening back written closing start stop located =>
      have front_eq : text.extract pos p.start = front := by
        show (text.drop pos).take (p.start - pos) = front
        rw [ht, start, Nat.add_sub_cancel_left, List.append_assoc, List.take_left]
      have behind : text.drop p.start = p.raw.toList ++ back := by
        have : text.drop p.start = (text.drop pos).drop front.length := by rw [List.drop_drop, start]
        rw [this, ht, List.append_assoc, List.drop_left]
      have back_eq : text.drop p.stop = back := by
        have : text.drop p.stop = (text.drop p.start).drop p.raw.toList.length := by rw [List.drop_drop, stop]
        rw [this, behind, List.drop_left]
      refine ⟨by rw [front_eq, back_eq], ?_, opening, closing, written, by rwa [back_eq]⟩
      show p.raw.toList = (text.drop p.start).take (p.stop - p.start)
      rw [behind, stop, Nat.add_sub_cancel_left, List.take_left]

end Placeholder
end Gridfill

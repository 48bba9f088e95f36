import Gridfill.Proofs.Placeholder
import Gridfill.Proofs.Text.Pieces

/-!
# Texts woven from placeholders

A text whose signs `$`, `{` and `}` all stand in its placeholders (`SignsInside`) is bare text with the placeholders
woven in, one behind the other (`woven_scan`). The first sign of such a text is that of its first placeholder, so
overwriting the placeholders one after the other overwrites each where it stands.
-/

namespace Gridfill

/-- The first place of a piece is known when its first character does not stand before it. -/
theorem Text.replaceFirst_of_not_mem {c : Char} (old new : List Char) : ∀ {front : List Char} (back : List Char),
    c ∉ front → replaceFirst (c :: old) new (front ++ c :: old ++ back) = front ++ new ++ back := by
  have found : ∀ {front : List Char} (back : List Char), c ∉ front →
      find? (c :: old) (front ++ c :: old ++ back) = some (front, back) := by
    intro front back h
    induction front with
    | nil =>
        rw [List.nil_append, List.cons_append, find?, ← List.cons_append, dropLead?_append]
    | cons d ds ih =>
        have other : c ≠ d := fun e => h (e ▸ List.mem_cons_self)
        rw [List.cons_append, List.cons_append, find?, dropLead?, if_neg other,
          ih fun hd => h (List.mem_cons_of_mem d hd)]
        rfl
  intro front back h
  rw [replaceFirst, found back h]

namespace Placeholder

/-! ### Signs -/

/-- The characters that placeholders are marked with. -/
def signs : List Char := ['$', '{', '}']

/-- The text holds none of the characters that placeholders are marked with. -/
def Bare (text : String) : Prop := ∀ c ∈ text.toList, c ∉ signs

instance (text : String) : Decidable (Bare text) := List.decidableBAll (· ∉ signs) text.toList

/-- All signs of the text stand in its placeholders. -/
def SignsInside (text : String) : Prop :=
  ∀ (i : Nat) (c : Char), text.toList[i]? = some c → c ∈ signs → ∃ p ∈ scan text, p.start ≤ i ∧ i < p.stop

instance (text : String) : Decidable (SignsInside text) :=
  decidable_of_iff (∀ i : Fin text.toList.length, text.toList[i] ∈ signs → ∃ p ∈ scan text, p.start ≤ i ∧ i < p.stop)
    ⟨fun h i c hi hc => by
      obtain ⟨lt, rfl⟩ := List.getElem?_eq_some_iff.mp hi
      exact h ⟨i, lt⟩ hc,
    fun h i => h i _ (List.getElem?_eq_getElem i.isLt)⟩

theorem bare_empty : Bare "" := fun _ hc => by cases hc

theorem Bare.scan_eq_nil {text : String} (h : Bare text) : scan text = [] :=
  Placeholder.scan_eq_nil (not_hasMark_of_not_mem fun hm => h '$' hm List.mem_cons_self)

theorem Bare.signsInside {text : String} (h : Bare text) : SignsInside text :=
  fun _ c hi hc => absurd hc (h c (List.mem_of_getElem? hi))

/-! ### Where the spans stand -/

/-- The spans stand one behind the other in a text whose first character is at a place. -/
inductive Spaced : Nat → List Span → List Char → Prop where
  | nil (pos : Nat) (cs : List Char) : Spaced pos [] cs
  | cons {pos : Nat} {s : Span} {ss : List Span} {front back : List Char} (start : s.start = pos + front.length)
      (rest : Spaced (s.start + s.rawChars.length) ss back) : Spaced pos (s :: ss) (front ++ s.rawChars ++ back)

theorem length_rawChars (s : Span) : s.rawChars.length = s.body.length + 3 := by
  rw [Span.rawChars, List.cons_append, List.length_cons, List.cons_append, List.length_cons, List.length_append]
  rfl

theorem length_openedChars (s : Span) : (openedChars (some s)).length = s.body.length + 2 := by
  rw [openedChars, Option.elim_some, List.length_cons, List.length_cons, List.length_reverse]

/-- The first span that is found, and what is scanned behind it. -/
theorem exists_of_spansFrom_cons {s : Span} {ss : List Span} {pos : Nat} {opened : Option Span} {cs : List Char}
    (h : spansFrom pos opened cs = s :: ss)
    (hopened : ∀ o, opened = some o → pos = o.start + (openedChars opened).length) :
    ∃ front back, openedChars opened ++ cs = front ++ s.rawChars ++ back ∧
      s.start + (openedChars opened).length = pos + front.length ∧
      ss = spansFrom (s.start + s.rawChars.length) none back := by
  induction pos, opened, cs using spansFrom.induct with
  | case1 => cases h
  | case2 pos cs o ih =>
      unfold spansFrom at h
      simp only [if_true] at h
      obtain ⟨rfl, rfl⟩ := List.cons.inj h
      have pos_eq := hopened o rfl
      rw [length_openedChars] at pos_eq ⊢
      refine ⟨[], cs, ?_, ?_, ?_⟩
      · simp [Span.rawChars, openedChars]
      · show o.start + (o.body.length + 2) = pos + 0
        omega
      · rw [length_rawChars, List.length_reverse]
        congr 1
        show pos + 1 = o.start + (o.body.length + 3)
        omega
  | case3 pos cs ih =>
      unfold spansFrom at h
      simp only [if_true] at h
      obtain ⟨front, back, text, start, rest⟩ := ih h fun _ ho => by cases ho
      refine ⟨'}' :: front, back, congrArg ('}' :: ·) text, ?_, rest⟩
      rw [List.length_cons]
      have blank : (openedChars none).length = 0 := rfl
      omega
  | case4 pos opened c hc d ds mark ih =>
      unfold spansFrom at h
      simp only [if_neg hc, if_pos mark] at h
      obtain ⟨rfl, rfl⟩ := mark
      obtain ⟨front, back, text, start, rest⟩ := ih h fun o ho => by
        obtain rfl := Option.some.inj ho
        rfl
      refine ⟨openedChars opened ++ front, back, ?_, ?_, rest⟩
      · rw [List.append_assoc, List.append_assoc]
        exact congrArg (openedChars opened ++ ·) (text.trans (List.append_assoc _ _ _))
      · rw [length_openedChars] at start
        rw [List.length_append]
        have bodyless : (⟨pos, []⟩ : Span).body.length = 0 := rfl
        omega
  | case5 pos opened c hc d ds mark ih =>
      unfold spansFrom at h
      simp only [if_neg hc, if_neg mark] at h
      cases opened with
      | none =>
          obtain ⟨front, back, text, start, rest⟩ := ih h fun _ ho => by cases ho
          refine ⟨c :: front, back, congrArg (c :: ·) text, ?_, rest⟩
          rw [List.length_cons]
          have blank : (openedChars none).length = 0 := rfl
          have mapped : (openedChars (Option.map (fun s : Span => ⟨s.start, c :: s.body⟩) none)).length = 0 := rfl
          omega
      | some o =>
          have pos_eq := hopened o rfl
          rw [length_openedChars] at pos_eq ⊢
          have longer : (openedChars (some ⟨o.start, c :: o.body⟩)).length = o.body.length + 1 + 2 :=
            length_openedChars _
          obtain ⟨front, back, text, start, rest⟩ := ih h fun p hp => by
            obtain rfl := Option.some.inj hp
            show pos + 1 = o.start + (openedChars (some ⟨o.start, c :: o.body⟩)).length
            omega
          have start : s.start + (openedChars (some ⟨o.start, c :: o.body⟩)).length = pos + 1 + front.length := start
          refine ⟨front, back, Eq.trans ?_ text, by omega, rest⟩
          simp [openedChars]
  | case6 pos opened c hc =>
      unfold spansFrom at h
      simp only [if_neg hc] at h
      cases h

theorem spaced_spansFrom {ss : List Span} : ∀ {pos : Nat} {cs : List Char}, spansFrom pos none cs = ss →
    Spaced pos ss cs := by
  induction ss with
  | nil => exact fun _ => .nil _ _
  | cons s ss ih =>
      intro pos cs h
      obtain ⟨front, back, text, start, rest⟩ := exists_of_spansFrom_cons h nofun
      have text : cs = front ++ s.rawChars ++ back := text
      have start : s.start = pos + front.length := start
      rw [text]
      exact .cons start (ih rest.symm)

theorem Spaced.start_le {pos : Nat} {ss : List Span} {cs : List Char} (h : Spaced pos ss cs) :
    ∀ s ∈ ss, pos ≤ s.start := by
  induction h with
  | nil => exact fun _ hs => by cases hs
  | cons start _ ih =>
      intro t ht
      rcases List.mem_cons.mp ht with rfl | ht
      · omega
      · have := ih t ht
        omega

/-! ### Bare text and placeholders -/

/-- The text is bare but for the placeholders, which stand in it one behind the other. -/
inductive Woven : List Placeholder → List Char → Prop where
  | nil {cs : List Char} (bare : ∀ c ∈ cs, c ∉ signs) : Woven [] cs
  | cons {p : Placeholder} {ps : List Placeholder} {front raw back : List Char} (bare : ∀ c ∈ front, c ∉ signs)
      (written : p.raw.toList = '$' :: raw) (rest : Woven ps back) :
      Woven (p :: ps) (front ++ p.raw.toList ++ back)

theorem ofSpan_eq_some {n : Nat} {s : Span} {p : Placeholder} (h : ofSpan n s = some p) :
    p.start = s.start ∧ p.stop = s.start + s.rawChars.length ∧ p.raw.toList = s.rawChars := by
  obtain ⟨b, -, rfl⟩ := Option.map_eq_some_iff.mp h
  exact ⟨rfl, congrArg (s.start + ·) (length_rawChars s).symm, String.toList_ofList⟩

theorem woven_of_spaced {n pos : Nat} {ss : List Span} {cs : List Char} (h : Spaced pos ss cs)
    (inside : ∀ (i : Nat) (c : Char), cs[i]? = some c → c ∈ signs →
      ∃ p ∈ ss.filterMap (ofSpan n), p.start ≤ pos + i ∧ pos + i < p.stop) :
    Woven (ss.filterMap (ofSpan n)) cs := by
  induction h with
  | nil pos cs =>
      refine .nil fun c hc sign => ?_
      obtain ⟨i, hi⟩ := List.mem_iff_getElem?.mp hc
      obtain ⟨p, hp, -⟩ := inside i c hi sign
      cases hp
  | @cons pos s ss front back start rest ih =>
      -- the placeholders behind the span start behind it
      have later : ∀ p ∈ ss.filterMap (ofSpan n), s.start + s.rawChars.length ≤ p.start := by
        intro p hp
        obtain ⟨t, ht, hp⟩ := List.mem_filterMap.mp hp
        rw [(ofSpan_eq_some hp).1]
        exact rest.start_le t ht
      have long := length_rawChars s
      have first : (front ++ s.rawChars ++ back)[front.length]? = some '$' := by
        rw [List.append_assoc, List.getElem?_append_right (Nat.le_refl _), Nat.sub_self]
        rfl
      cases hq : ofSpan n s with
      | none =>
          rw [List.filterMap_cons, hq] at inside
          obtain ⟨p, hp, low, -⟩ := inside front.length '$' first List.mem_cons_self
          have := later p hp
          omega
      | some q =>
          obtain ⟨qstart, qstop, written⟩ := ofSpan_eq_some hq
          rw [List.filterMap_cons, hq] at inside ⊢
          have inside : ∀ (i : Nat) (c : Char), (front ++ s.rawChars ++ back)[i]? = some c → c ∈ signs →
            ∃ p ∈ q :: ss.filterMap (ofSpan n), p.start ≤ pos + i ∧ pos + i < p.stop := inside
          show Woven (q :: ss.filterMap (ofSpan n)) (front ++ s.rawChars ++ back)
          rw [← written]
          have marked : q.raw.toList = '$' :: ('{' :: s.body ++ ['}']) := written
          refine .cons (fun c hc sign => ?_) marked (ih fun i c hi sign => ?_)
          · obtain ⟨i, hi⟩ := List.mem_iff_getElem?.mp hc
            have lt := (List.getElem?_eq_some_iff.mp hi).1
            obtain ⟨p, hp, low, -⟩ := inside i c (by rwa [List.append_assoc, List.getElem?_append_left lt]) sign
            rcases List.mem_cons.mp hp with rfl | hp
            · omega
            · have := later p hp
              omega
          · obtain ⟨p, hp, low, high⟩ := inside (front.length + s.rawChars.length + i) c (by
              rw [← List.length_append, List.getElem?_append_right (Nat.le_add_right _ _), Nat.add_sub_cancel_left]
              exact hi) sign
            have place : pos + (front.length + s.rawChars.length + i) = s.start + s.rawChars.length + i := by omega
            rw [place] at low high
            rcases List.mem_cons.mp hp with rfl | hp
            · omega
            · exact ⟨p, hp, low, high⟩

/-- A text whose signs all stand in its placeholders is bare text with the placeholders woven in. -/
theorem woven_scan {text : String} (h : SignsInside text) : Woven (scan text) text.toList :=
  woven_of_spaced (spaced_spansFrom rfl) fun i c hi hc => by rw [Nat.zero_add]; exact h i c hi hc

/-- A placeholder is at most as long as the text, and alone in it when it is as long. -/
theorem Woven.alone {ps : List Placeholder} {cs : List Char} (h : Woven ps cs) : ∀ p ∈ ps,
    p.raw.toList.length ≤ cs.length ∧ (cs.length = p.raw.toList.length → ps = [p]) := by
  induction h with
  | nil => exact fun _ hp => by cases hp
  | @cons q ps front raw back bare written rest ih =>
      have long : 1 ≤ q.raw.toList.length := by
        rw [written]
        exact Nat.le_add_left 1 _
      intro p hp
      rw [List.length_append, List.length_append]
      rcases List.mem_cons.mp hp with rfl | hp
      · refine ⟨by omega, fun all => ?_⟩
        cases ps with
        | nil => rfl
        | cons r rs =>
            have := (ih r List.mem_cons_self).1
            have some : 1 ≤ r.raw.toList.length := by
              cases rest with
              | cons _ written' _ =>
                  rw [written']
                  exact Nat.le_add_left 1 _
            omega
      · have := (ih p hp).1
        exact ⟨by omega, fun all => by omega⟩

/-- A placeholder that spans the whole text is its only one. -/
theorem scan_of_whole {text : String} (h : SignsInside text) {p : Placeholder} (hp : p ∈ scan text)
    (whole : p.whole = true) : scan text = [p] := by
  refine ((woven_scan h).alone p hp).2 ?_
  rw [raw_of_whole hp whole]

end Placeholder
end Gridfill

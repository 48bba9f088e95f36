import Gridfill.Proofs.Pool.Soundness
import Mathlib.Logic.Relation

/-!
# How a pool changes while a sheet is filled and written

Filling a sheet changes the pool in two ways only: the place of a text is looked for, which may add the
text, and a text that stands at the place of a cell of the sheet is replaced. `holds` says which places
those are, and `becomes` which text may take the place of which. Writing the sheet puts the markup of the
texts into a document.

The pool never shrinks (`Steps.size_le`), and the text at a place changes only along the second relation,
and only if one of those places had that text from the start (`Steps.drift`).
-/

namespace Gridfill.Pool

open Relation (ReflTransGen TransGen)

/-- One change of the pool. -/
inductive Step (holds : Nat → Prop) (becomes : String → String → Prop) : Pool → Pool → Prop where
  | indexOf (p : Pool) (text : String) : Step holds becomes p (p.indexOf text).1
  | replace {p : Pool} {k : Nat} {old new : String} (hk : holds k) (hold : p.get? k = some old)
      (hnew : becomes old new) : Step holds becomes p (p.replace old new).1
  | movedTo (p : Pool) (root : Markup.Element) : Step holds becomes p (p.movedTo root)

/-- Any number of changes. -/
abbrev Steps (holds : Nat → Prop) (becomes : String → String → Prop) : Pool → Pool → Prop :=
  ReflTransGen (Step holds becomes)

section
variable {holds : Nat → Prop} {becomes : String → String → Prop} {p₀ p q : Pool}

theorem Step.sound (h : Step holds becomes p q) (hp : p.Sound) : q.Sound := by
  cases h with
  | indexOf text => exact hp.indexOf text
  | replace _ _ _ => exact hp.replace _ _
  | movedTo root => exact hp.movedTo root

theorem Step.size_le (h : Step holds becomes p q) : p.size ≤ q.size := by
  cases h with
  | indexOf text => exact p.size_le_indexOf text
  | replace _ _ _ => exact p.size_le_replace _ _
  | movedTo root => exact Nat.le_of_eq (p.size_movedTo root).symm

theorem Steps.sound (h : Steps holds becomes p q) (hp : p.Sound) : q.Sound := by
  induction h with
  | refl => exact hp
  | tail _ hs ih => exact hs.sound ih

theorem Steps.size_le (h : Steps holds becomes p q) : p.size ≤ q.size := by
  induction h with
  | refl => exact Nat.le_refl _
  | tail _ hs ih => exact Nat.le_trans ih hs.size_le

theorem Step.built (h : Step holds becomes p q) (hp : p.Built) : q.Built := by
  cases h with
  | indexOf text => exact hp.indexOf text
  | replace _ _ _ => exact hp.replace _ _
  | movedTo root => exact hp.movedTo root

theorem Steps.built (h : Steps holds becomes p q) (hp : p.Built) : q.Built := by
  induction h with
  | refl => exact hp
  | tail _ hs ih => exact hs.built ih

/-- Changes at some places are changes at more places. -/
theorem Steps.mono {holds' : Nat → Prop} (more : ∀ k, holds k → holds' k) (h : Steps holds becomes p q) :
    Steps holds' becomes p q := by
  induction h with
  | refl => exact .refl
  | tail _ hs ih =>
      refine ih.tail ?_
      cases hs with
      | indexOf text => exact .indexOf _ text
      | replace hk hold hnew => exact .replace (more _ hk) hold hnew
      | movedTo root => exact .movedTo _ root

/-! ### Where texts come from -/

/-- A text that stands at a place has stood there in the pool `p₀`, or the index gives that place. -/
def Origin (p₀ p : Pool) : Prop :=
  ∀ k t, p.get? k = some t → p₀.get? k = some t ∨ p.find? t = some k

theorem origin_add (h : Origin p₀ p) {text : String} (hn : p.find? text = none) :
    Origin p₀ (p.add text).1 := by
  intro k t ht
  rcases get?_add_eq_some ht with ht | ⟨rfl, rfl⟩
  · rcases h k t ht with h | h
    · exact Or.inl h
    · have hne : t ≠ text := fun e => by rw [e, hn] at h; cases h
      exact Or.inr ((find?_add_ne p hne).trans h)
  · exact Or.inr (find?_add p t)

theorem origin_overwrite (h : Origin p₀ p) (hp : p.Sound) {old new : String} {i : Nat}
    (hn : p.find? new = none) (ho : p.find? old = some i) :
    Origin p₀ (p.overwrite old new i) := by
  intro k t ht
  by_cases hk : k = i
  · rw [hk, get?_overwrite old new (hp.lt_size ho)] at ht
    injection ht with ht
    rw [hk, ← ht]
    exact Or.inr (find?_overwrite p old new i)
  · rw [get?_overwrite_ne p old new hk] at ht
    rcases h k t ht with h | h
    · exact Or.inl h
    · have hne : t ≠ new := fun e => by rw [e, hn] at h; cases h
      have hne' : t ≠ old := fun e => by
        rw [e, ho] at h
        exact hk (Option.some.inj h).symm
      exact Or.inr ((find?_overwrite_ne p i hne hne').trans h)

theorem Step.origin (hs : Step holds becomes p q) (hp : p.Sound) (h : Origin p₀ p) :
    Origin p₀ q := by
  cases hs with
  | indexOf text =>
      rcases indexOf_cases p text with ⟨i, -, e⟩ | ⟨hn, e⟩
      · rwa [e]
      · rw [e]
        exact origin_add h hn
  | @replace k old new _ _ _ =>
      rcases replace_cases p old new with ⟨i, -, e⟩ | ⟨hn, -, e⟩ | ⟨i, hn, ho, e⟩
      · rwa [e]
      · rw [e]
        exact origin_add h hn
      · rw [e]
        exact origin_overwrite h hp hn ho
  | movedTo root =>
      intro k t ht
      rw [get?_movedTo] at ht
      exact h k t ht

theorem Steps.origin (h : Steps holds becomes p q) (hp : p.Sound) : Origin p q := by
  induction h with
  | refl => exact fun k t ht => Or.inl ht
  | tail h hs ih => exact hs.origin (Steps.sound h hp) ih

/-! ### Where texts change -/

/-- What one change does to the text at a place: nothing, or the text was one that is replaced. -/
theorem Step.get? (hs : Step holds becomes p q) (hp : p.Sound) {i : Nat} {t : String}
    (ht : p.get? i = some t) :
    q.get? i = some t ∨ ∃ k s, holds k ∧ p.get? k = some t ∧ p.find? t = some i ∧ becomes t s ∧
      q.get? i = some s := by
  have lt := lt_size_of_get? ht
  cases hs with
  | indexOf text =>
      rcases indexOf_cases p text with ⟨j, -, e⟩ | ⟨-, e⟩
      · exact Or.inl (by rwa [e])
      · exact Or.inl (by rwa [e, get?_add_lt lt])
  | @replace k old new hk hold hnew =>
      rcases replace_cases p old new with ⟨j, -, e⟩ | ⟨-, -, e⟩ | ⟨j, -, ho, e⟩
      · exact Or.inl (by rwa [e])
      · exact Or.inl (by rwa [e, get?_add_lt lt])
      · by_cases hij : i = j
        · have hto : t = old := Option.some.inj (ht.symm.trans (hij ▸ hp old j ho))
          rw [hto, e]
          exact Or.inr ⟨k, new, hk, hold, hij ▸ ho, hnew, by rw [hij, get?_overwrite _ _ (hp.lt_size ho)]⟩
        · exact Or.inl (by rwa [e, get?_overwrite_ne p old new hij])
  | movedTo root => exact Or.inl (by rwa [get?_movedTo])

/-- The text at a place of the pool stays, or it is one of a replaced place and was replaced. -/
theorem Steps.drift (h : Steps holds becomes p₀ p) (hp : p₀.Sound) {i : Nat} {t₀ : String}
    (ht : p₀.get? i = some t₀) :
    ∃ t, p.get? i = some t ∧
      (t = t₀ ∨ (∃ k, holds k ∧ p₀.get? k = some t₀) ∧ TransGen becomes t₀ t) := by
  induction h with
  | refl => exact ⟨t₀, ht, Or.inl rfl⟩
  | @tail p q h hs ih =>
      obtain ⟨t, htp, from₀⟩ := ih
      rcases hs.get? (Steps.sound h hp) htp with hq | ⟨k, s, hk, hold, hfind, hbecomes, hq⟩
      · exact ⟨t, hq, from₀⟩
      · refine ⟨s, hq, Or.inr ?_⟩
        rcases from₀ with rfl | ⟨first, chain⟩
        · refine ⟨⟨k, hk, ?_⟩, TransGen.single hbecomes⟩
          rcases Steps.origin h hp k t hold with hk₀ | hk₀
          · exact hk₀
          · have : i = k := Option.some.inj (hfind.symm.trans hk₀)
            rwa [← this]
        · exact ⟨first, chain.tail hbecomes⟩

end

end Gridfill.Pool

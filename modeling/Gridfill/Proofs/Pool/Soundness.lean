import Gridfill.Pool

/-!
# What the index of a pool says is true

A pool is sound when every text that its index knows stands at the place that the index gives. Pools
that are read from a document or made from texts are sound, whatever texts they hold twice, and stay
so under adding, finding and replacing, and when their markup is put into a document (`sound_of_built`).
-/

namespace Gridfill.Pool

/-- Every text that the index knows stands at its place. -/
def Sound (p : Pool) : Prop := ∀ t i, p.find? t = some i → p.get? i = some t

/-- The pools that come about: read from a document or made from texts, and then changed or written. -/
inductive Built : Pool → Prop where
  | ofRoot (root : Markup.Element) : Built (Pool.ofRoot root)
  | ofTexts (texts : List String) : Built (Pool.ofTexts texts)
  | add {p : Pool} (text : String) : Built p → Built (p.add text).1
  | indexOf {p : Pool} (text : String) : Built p → Built (p.indexOf text).1
  | replace {p : Pool} (old new : String) : Built p → Built (p.replace old new).1
  | movedTo {p : Pool} (root : Markup.Element) : Built p → Built (p.movedTo root)

/-! ### Places -/

theorem lt_size_of_get? {p : Pool} {i : Nat} {t : String} (h : p.get? i = some t) : i < p.size := by
  unfold get? at h
  obtain ⟨e, he, -⟩ := Option.map_eq_some_iff.mp h
  exact (List.getElem?_eq_some_iff.mp he).1

theorem exists_get? {p : Pool} {i : Nat} (h : i < p.size) : ∃ t, p.get? i = some t := by
  refine ⟨(p.entries.get ⟨i, h⟩).text, ?_⟩
  rw [get?, List.getElem?_eq_getElem h]
  rfl

theorem Sound.lt_size {p : Pool} (hp : p.Sound) {t : String} {i : Nat} (h : p.find? t = some i) :
    i < p.size :=
  lt_size_of_get? (hp t i h)

theorem get?_add_lt {p : Pool} {i : Nat} (h : i < p.size) (t : String) :
    (p.add t).1.get? i = p.get? i := by
  simp only [add, get?, List.getElem?_append_left h]

theorem get?_add_size (p : Pool) (t : String) : (p.add t).1.get? p.size = some t := by
  simp [add, get?, size]

theorem get?_add_eq_some {p : Pool} {t u : String} {i : Nat} (h : (p.add t).1.get? i = some u) :
    p.get? i = some u ∨ i = p.size ∧ u = t := by
  have hlt := lt_size_of_get? h
  rw [size_add] at hlt
  by_cases hi : i < p.size
  · rw [get?_add_lt hi] at h
    exact Or.inl h
  · have e : i = p.size := by omega
    rw [e, get?_add_size] at h
    injection h with h
    exact Or.inr ⟨e, h.symm⟩

/-! ### Replacing a text that the index knows by one that it does not know -/

/-- The pool with the text at the place of `old` overwritten. -/
def overwrite (p : Pool) (old new : String) (i : Nat) : Pool :=
  ⟨p.entries.set i ⟨new, none⟩, (p.index.erase old).put new i⟩

/-- The outcomes of a replacement: the new text is known, neither text is, or only the old one is. -/
theorem replace_cases (p : Pool) (old new : String) :
    (∃ i, p.find? new = some i ∧ p.replace old new = (p, i)) ∨
    (p.find? new = none ∧ p.find? old = none ∧ p.replace old new = p.add new) ∨
    (∃ i, p.find? new = none ∧ p.find? old = some i ∧
      p.replace old new = (p.overwrite old new i, i)) := by
  cases hn : p.find? new with
  | some i => exact Or.inl ⟨i, rfl, by simp only [replace, hn]⟩
  | none =>
      cases ho : p.find? old with
      | none => exact Or.inr (Or.inl ⟨rfl, rfl, by simp only [replace, hn, ho]⟩)
      | some i => exact Or.inr (Or.inr ⟨i, rfl, rfl, by simp only [replace, hn, ho, overwrite]⟩)

/-- The outcomes of looking for a place: the text is known, or it is added. -/
theorem indexOf_cases (p : Pool) (t : String) :
    (∃ i, p.find? t = some i ∧ p.indexOf t = (p, i)) ∨
    (p.find? t = none ∧ p.indexOf t = p.add t) := by
  cases h : p.find? t with
  | some i => exact Or.inl ⟨i, rfl, by simp only [indexOf, h]⟩
  | none => exact Or.inr ⟨rfl, by simp only [indexOf, h]⟩

@[simp] theorem size_overwrite (p : Pool) (old new : String) (i : Nat) :
    (p.overwrite old new i).size = p.size := by
  simp [overwrite, size]

theorem get?_overwrite {p : Pool} (old new : String) {i : Nat} (h : i < p.size) :
    (p.overwrite old new i).get? i = some new := by
  have h' : i < p.entries.length := h
  simp [overwrite, get?, h']

theorem get?_overwrite_ne (p : Pool) (old new : String) {i j : Nat} (h : j ≠ i) :
    (p.overwrite old new i).get? j = p.get? j := by
  simp only [overwrite, get?]
  rw [List.getElem?_set_ne (Ne.symm h)]

@[simp] theorem find?_overwrite (p : Pool) (old new : String) (i : Nat) :
    (p.overwrite old new i).find? new = some i := by
  simp only [overwrite, find?, Listing.lookup_put]

theorem find?_overwrite_old (p : Pool) {old new : String} (i : Nat) (h : old ≠ new) :
    (p.overwrite old new i).find? old = none := by
  simp only [overwrite, find?, Listing.lookup_put_ne _ _ h, Listing.lookup_erase]

theorem find?_overwrite_ne (p : Pool) {old new t : String} (i : Nat) (hn : t ≠ new) (ho : t ≠ old) :
    (p.overwrite old new i).find? t = p.find? t := by
  simp only [overwrite, find?, Listing.lookup_put_ne _ _ hn, Listing.lookup_erase_ne _ ho]

/-! ### Markup that is put into a document -/

@[simp] theorem texts_movedTo (p : Pool) (root : Markup.Element) : (p.movedTo root).texts = p.texts := by
  rw [texts, movedTo, List.map_map]
  rfl

@[simp] theorem get?_movedTo (p : Pool) (root : Markup.Element) (i : Nat) : (p.movedTo root).get? i = p.get? i := by
  rw [get?, movedTo, List.getElem?_map, Option.map_map]
  rfl

@[simp] theorem find?_movedTo (p : Pool) (root : Markup.Element) (t : String) :
    (p.movedTo root).find? t = p.find? t := rfl

@[simp] theorem size_movedTo (p : Pool) (root : Markup.Element) : (p.movedTo root).size = p.size := List.length_map _

/-! ### Soundness -/

theorem sound_empty : empty.Sound := by
  intro t i h
  cases h

theorem Sound.add {p : Pool} (hp : p.Sound) (t : String) : (p.add t).1.Sound := by
  intro u i h
  by_cases e : u = t
  · rw [e, find?_add] at h
    injection h with h
    rw [e, ← h, get?_add_size]
  · rw [find?_add_ne p e] at h
    rw [get?_add_lt (hp.lt_size h)]
    exact hp u i h

theorem Sound.indexOf {p : Pool} (hp : p.Sound) (t : String) : (p.indexOf t).1.Sound := by
  rcases indexOf_cases p t with ⟨i, -, e⟩ | ⟨-, e⟩
  · rwa [e]
  · rw [e]
    exact hp.add t

theorem Sound.overwrite {p : Pool} (hp : p.Sound) {old new : String} {i : Nat}
    (hn : p.find? new = none) (ho : p.find? old = some i) : (p.overwrite old new i).Sound := by
  have hne : old ≠ new := fun e => by rw [e, hn] at ho; cases ho
  intro t j h
  by_cases e : t = new
  · rw [e, find?_overwrite] at h
    injection h with h
    rw [e, ← h, get?_overwrite old new (hp.lt_size ho)]
  · by_cases e' : t = old
    · rw [e', find?_overwrite_old p i hne] at h
      cases h
    · rw [find?_overwrite_ne p i e e'] at h
      have hji : j ≠ i := by
        rintro rfl
        have := (hp t j h).symm.trans (hp old j ho)
        injection this with this
        exact e' this
      rw [get?_overwrite_ne p old new hji]
      exact hp t j h

theorem Sound.replace {p : Pool} (hp : p.Sound) (old new : String) : (p.replace old new).1.Sound := by
  rcases replace_cases p old new with ⟨i, -, e⟩ | ⟨-, -, e⟩ | ⟨i, hn, ho, e⟩
  · rwa [e]
  · rw [e]
    exact hp.add new
  · rw [e]
    exact hp.overwrite hn ho

theorem Sound.movedTo {p : Pool} (hp : p.Sound) (root : Markup.Element) : (p.movedTo root).Sound := by
  intro t i h
  rw [get?_movedTo]
  exact hp t i h

theorem Sound.addRead {p : Pool} (hp : p.Sound) (e : Markup.Element) : (p.addRead e).Sound := by
  have old {i : Nat} (h : i < p.size) : (p.addRead e).get? i = p.get? i := by
    simp only [Pool.addRead, get?, List.getElem?_append_left h]
  intro t i h
  cases hk : p.contains (entryText e) with
  | true =>
      have h' : p.find? t = some i := by
        simp only [Pool.addRead, find?, hk, if_true] at h
        exact h
      rw [old (hp.lt_size h')]
      exact hp t i h'
  | false =>
      simp only [Pool.addRead, find?, hk, Bool.false_eq_true, if_false, List.lookup_append] at h
      cases hl : p.index.lookup t with
      | some j =>
          rw [hl, Option.some_or] at h
          injection h with h
          subst h
          rw [old (hp.lt_size hl)]
          exact hp t j hl
      | none =>
          rw [hl, Option.none_or] at h
          by_cases et : t = entryText e
          · rw [et, List.lookup_cons_self] at h
            injection h with h
            rw [← h, et]
            simp [Pool.addRead, get?, size]
          · rw [List.lookup_cons, Listing.beq_eq_false et] at h
            cases h

theorem sound_ofRoot (root : Markup.Element) : (ofRoot root).Sound := by
  have key : ∀ (es : List Markup.Element) (p : Pool), p.Sound → (es.foldl Pool.addRead p).Sound := by
    intro es
    induction es with
    | nil => exact fun p hp => hp
    | cons e es ih => exact fun p hp => ih _ (hp.addRead e)
  exact key _ _ sound_empty

theorem sound_ofTexts (texts : List String) : (ofTexts texts).Sound := by
  have key : ∀ (ts : List String) (p : Pool), p.Sound → (ts.foldl (fun p t => (p.add t).1) p).Sound := by
    intro ts
    induction ts with
    | nil => exact fun p hp => hp
    | cons t ts ih => exact fun p hp => ih _ (hp.add t)
  exact key _ _ sound_empty

/-- Every pool that comes about is sound. -/
theorem sound_of_built {p : Pool} (h : Built p) : p.Sound := by
  induction h with
  | ofRoot root => exact sound_ofRoot root
  | ofTexts texts => exact sound_ofTexts texts
  | add text _ ih => exact ih.add text
  | indexOf text _ ih => exact ih.indexOf text
  | replace old new _ ih => exact ih.replace old new
  | movedTo root _ ih => exact ih.movedTo root

/-! ### Growth -/

theorem size_le_indexOf (p : Pool) (t : String) : p.size ≤ (p.indexOf t).1.size := by
  rcases indexOf_cases p t with ⟨i, -, e⟩ | ⟨-, e⟩
  · have same : (p.indexOf t).1.size = p.size := by rw [e]
    exact Nat.le_of_eq same.symm
  · rw [e, size_add]
    exact Nat.le_succ _

theorem size_le_replace (p : Pool) (old new : String) : p.size ≤ (p.replace old new).1.size := by
  rcases replace_cases p old new with ⟨i, -, e⟩ | ⟨-, -, e⟩ | ⟨i, -, -, e⟩
  · have same : (p.replace old new).1.size = p.size := by rw [e]
    exact Nat.le_of_eq same.symm
  · rw [e, size_add]
    exact Nat.le_succ _
  · have same : (p.replace old new).1.size = p.size := by rw [e, size_overwrite]
    exact Nat.le_of_eq same.symm

/-- The place that is given for a text is one of the pool. -/
theorem Sound.indexOf_lt {p : Pool} (hp : p.Sound) (t : String) :
    (p.indexOf t).2 < (p.indexOf t).1.size := by
  rcases indexOf_cases p t with ⟨i, h, e⟩ | ⟨-, e⟩
  · rw [e]
    exact hp.lt_size h
  · rw [e, size_add]
    exact Nat.lt_succ_self _

end Gridfill.Pool

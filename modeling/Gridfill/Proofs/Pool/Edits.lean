import Gridfill.Proofs.Pool.Steps
import Mathlib.Data.List.Induction
import Mathlib.Data.List.Nodup

/-!
# Pools over any run of edits

A pool is made from a document or from a list of texts and then edited: a text is added, looked for, or put in
the place of another. Whatever the edits and however often a text stands twice, the index tells the truth, the
list only grows, and a text changes only where a known text makes way for an unknown one; an entry that still has
its markup has never changed (`pool_after_edits`).

A pool whose texts are different from one another, and to which none is added as it is, has an index that is the
inverse of its list (`Exact`).
-/

namespace Gridfill.Pool

open Markup (Element)

/-! ### Where a pool comes from -/

/-- What a pool is made from: a document, or a list of texts. -/
inductive Source where
  | document (root : Element)
  | list (texts : List String)

/-- The pool that is made. -/
def Source.pool : Source → Pool
  | .document root => .ofRoot root
  | .list texts => .ofTexts texts

/-- The entries as they are listed there. -/
def Source.entries : Source → List PoolEntry
  | .document root => (root.childrenWith Vocabulary.stringItem).map fun e => ⟨entryText e, some e⟩
  | .list texts => texts.map fun t => ⟨t, none⟩

theorem entries_foldl_addRead (es : List Element) (p : Pool) :
    (es.foldl addRead p).entries = p.entries ++ es.map fun e => ⟨entryText e, some e⟩ := by
  induction es generalizing p with
  | nil => simp
  | cons e es ih => simp [ih, addRead]

theorem entries_foldl_add (ts : List String) (p : Pool) :
    (ts.foldl (fun p t => (p.add t).1) p).entries = p.entries ++ ts.map fun t => ⟨t, none⟩ := by
  induction ts generalizing p with
  | nil => simp
  | cons t ts ih =>
      rw [List.foldl_cons, ih, add]
      simp

/-- A pool has the entries of what it is made from, in their order. -/
theorem Source.entries_pool (s : Source) : s.pool.entries = s.entries := by
  cases s with
  | document root => exact entries_foldl_addRead _ empty
  | list texts => exact entries_foldl_add texts empty

theorem Source.sound (s : Source) : s.pool.Sound := by
  cases s with
  | document root => exact sound_ofRoot root
  | list texts => exact sound_ofTexts texts

/-! ### Edits -/

/-- An edit of a pool. -/
inductive Edit where
  | add (text : String)
  | indexOf (text : String)
  | replace (old new : String)

/-- The text that an edit asks a place for. -/
def Edit.text : Edit → String
  | .add text => text
  | .indexOf text => text
  | .replace _ new => new

/-- Does an edit add its text even if the index knows it? -/
def Edit.isAdd : Edit → Bool
  | .add _ => true
  | _ => false

/-- The pool after an edit, and the place that the edit answers with. -/
def edit (p : Pool) : Edit → Pool × Nat
  | .add text => p.add text
  | .indexOf text => p.indexOf text
  | .replace old new => p.replace old new

/-- The pool after edits, one after the other. -/
def editAll (p : Pool) (es : List Edit) : Pool := es.foldl (fun p e => (p.edit e).1) p

@[simp] theorem editAll_nil (p : Pool) : p.editAll [] = p := rfl

theorem editAll_concat (p : Pool) (es : List Edit) (e : Edit) :
    p.editAll (es ++ [e]) = ((p.editAll es).edit e).1 := by
  simp [editAll]

/-- What an edit does: nothing, as the index knows the text; the text goes to the end; or it overwrites one that
the index knows. -/
theorem edit_cases (p : Pool) (e : Edit) :
    (∃ i, p.find? e.text = some i ∧ p.edit e = (p, i)) ∨
    ((e.isAdd = false → p.find? e.text = none) ∧ p.edit e = p.add e.text) ∨
    (∃ old i, e = .replace old e.text ∧ p.find? e.text = none ∧ p.find? old = some i ∧
      p.edit e = (p.overwrite old e.text i, i)) := by
  cases e with
  | add text => exact Or.inr (Or.inl ⟨fun h => (by cases h), rfl⟩)
  | indexOf text =>
      rcases indexOf_cases p text with h | ⟨h, e⟩
      · exact Or.inl h
      · exact Or.inr (Or.inl ⟨fun _ => h, e⟩)
  | replace old new =>
      rcases replace_cases p old new with h | ⟨h, -, e⟩ | ⟨i, hn, ho, e⟩
      · exact Or.inl h
      · exact Or.inr (Or.inl ⟨fun _ => h, e⟩)
      · exact Or.inr (Or.inr ⟨old, i, rfl, hn, ho, e⟩)

section
variable {p : Pool}

theorem Sound.edit (hp : p.Sound) (e : Edit) : (p.edit e).1.Sound := by
  cases e with
  | add text => exact hp.add text
  | indexOf text => exact hp.indexOf text
  | replace old new => exact hp.replace old new

theorem Sound.editAll (hp : p.Sound) (es : List Edit) : (p.editAll es).Sound := by
  induction es using List.reverseRecOn with
  | nil => exact hp
  | append_singleton es e ih =>
      rw [editAll_concat]
      exact ih.edit e

/-- An edit answers with a place that holds its text. -/
theorem get?_edit (hp : p.Sound) (e : Edit) : (p.edit e).1.get? (p.edit e).2 = some e.text := by
  rcases edit_cases p e with ⟨i, h, he⟩ | ⟨-, he⟩ | ⟨old, i, -, -, ho, he⟩
  · rw [he]
    exact hp _ i h
  · rw [he]
    exact get?_add_size p e.text
  · rw [he]
    exact get?_overwrite old e.text (hp.lt_size ho)

theorem size_le_edit (p : Pool) (e : Edit) : p.size ≤ (p.edit e).1.size := by
  rcases edit_cases p e with ⟨i, -, he⟩ | ⟨-, he⟩ | ⟨old, i, -, -, -, he⟩
  · exact Nat.le_of_eq (by rw [he])
  · rw [he, size_add]
    exact Nat.le_succ _
  · exact Nat.le_of_eq (by rw [he, size_overwrite])

/-- A text changes in one way only: it is known, and an unknown text is put in its place. -/
theorem changed_of_edit (hp : p.Sound) {e : Edit} {i : Nat} {t : String} (ht : p.get? i = some t)
    (changed : (p.edit e).1.get? i ≠ some t) :
    e = .replace t e.text ∧ p.find? t = some i ∧ p.find? e.text = none ∧ (p.edit e).1.get? i = some e.text := by
  rcases edit_cases p e with ⟨j, -, he⟩ | ⟨-, he⟩ | ⟨old, j, hreplace, hn, ho, he⟩
  · rw [he] at changed
    exact absurd ht changed
  · rw [he, get?_add_lt (lt_size_of_get? ht)] at changed
    exact absurd ht changed
  · by_cases hij : i = j
    · subst hij
      obtain rfl : t = old := Option.some.inj (ht.symm.trans (hp old i ho))
      refine ⟨hreplace, ho, hn, ?_⟩
      rw [he]
      exact get?_overwrite t e.text (hp.lt_size ho)
    · rw [he, get?_overwrite_ne p old e.text hij] at changed
      exact absurd ht changed

/-! ### Markup -/

/-- An entry that has its markup after an edit was there before: the entries that edits write have none. -/
theorem entry_of_edit {e : Edit} {i : Nat} {entry : PoolEntry} (hentry : (p.edit e).1.entries[i]? = some entry)
    (marked : entry.markup.isSome) : p.entries[i]? = some entry := by
  have written : entry ≠ ⟨e.text, none⟩ := by
    rintro rfl
    cases marked
  rcases edit_cases p e with ⟨j, -, he⟩ | ⟨-, he⟩ | ⟨old, j, -, -, ho, he⟩
  · rwa [he] at hentry
  · rw [he, add, List.getElem?_append] at hentry
    split at hentry
    · exact hentry
    · exact absurd (List.mem_singleton.mp (List.mem_of_getElem? hentry)) written
  · rw [he, overwrite, List.getElem?_set] at hentry
    split at hentry
    · split at hentry
      · exact absurd (Option.some.inj hentry).symm written
      · cases hentry
    · exact hentry

/-- An entry that has its markup after a run has stood in its place, with its text, all the time. -/
theorem entry_of_editAll {es : List Edit} {i : Nat} {entry : PoolEntry}
    (hentry : (p.editAll es).entries[i]? = some entry) (marked : entry.markup.isSome) :
    ∀ k, (p.editAll (es.take k)).entries[i]? = some entry := by
  induction es using List.reverseRecOn with
  | nil =>
      intro k
      rwa [List.take_nil]
  | append_singleton es e ih =>
      intro k
      rw [editAll_concat] at hentry
      have before := ih (entry_of_edit hentry marked) k
      rcases Nat.lt_or_ge es.length k with hk | hk
      · rw [List.take_of_length_le (by rw [List.length_append, List.length_singleton]; exact hk), editAll_concat]
        exact hentry
      · rwa [List.take_append_of_le_length hk]

/-! ### Pools whose index is the inverse of the list -/

/-- The index knows every text at its only place. -/
def Exact (p : Pool) : Prop := ∀ t i, p.find? t = some i ↔ p.get? i = some t

theorem exact_iff : p.Exact ↔ p.Sound ∧ Origin empty p := by
  constructor
  · intro h
    exact ⟨fun t i ht => (h t i).mp ht, fun i t ht => Or.inr ((h t i).mpr ht)⟩
  · rintro ⟨sound, origin⟩ t i
    constructor
    · exact sound t i
    · intro ht
      rcases origin i t ht with none | h
      · cases none
      · exact h

theorem Exact.add (h : p.Exact) {t : String} (ht : p.find? t = none) : (p.add t).1.Exact := by
  obtain ⟨sound, origin⟩ := exact_iff.mp h
  exact exact_iff.mpr ⟨sound.add t, origin_add origin ht⟩

/-- Edits other than plain additions keep the index exact. -/
theorem Exact.edit (h : p.Exact) {e : Edit} (he : e.isAdd = false) : (p.edit e).1.Exact := by
  obtain ⟨sound, origin⟩ := exact_iff.mp h
  rcases edit_cases p e with ⟨i, -, he'⟩ | ⟨unknown, he'⟩ | ⟨old, i, -, hn, ho, he'⟩
  · rwa [he']
  · rw [he']
    exact h.add (unknown he)
  · rw [he']
    exact exact_iff.mpr ⟨sound.overwrite hn ho, origin_overwrite origin sound hn ho⟩

theorem Exact.editAll (h : p.Exact) {es : List Edit} (hes : ∀ e ∈ es, e.isAdd = false) :
    (p.editAll es).Exact := by
  induction es using List.reverseRecOn with
  | nil => exact h
  | append_singleton es e ih =>
      rw [editAll_concat]
      exact (ih fun d hd => hes d (List.mem_append_left _ hd)).edit (hes e (by simp))

theorem getElem?_texts (p : Pool) (i : Nat) : p.texts[i]? = p.get? i := by
  rw [texts, List.getElem?_map, get?]

/-- A text of an exact pool stands at one place only. -/
theorem Exact.nodup (h : p.Exact) : p.texts.Nodup := by
  rw [List.nodup_iff_getElem?_ne_getElem?]
  intro i j hij hj same
  rw [getElem?_texts, getElem?_texts] at same
  obtain ⟨t, ht⟩ := exists_get? (p := p) (i := j) (by simpa [texts, size] using hj)
  have first := (h t i).mpr (same.trans ht)
  have second := (h t j).mpr ht
  rw [first] at second
  exact absurd (Option.some.inj second) (Nat.ne_of_lt hij)

/-- A text that does not stand in a sound pool is unknown. -/
theorem Sound.find?_eq_none (hp : p.Sound) {t : String} (ht : t ∉ p.texts) : p.find? t = none := by
  rw [Option.eq_none_iff_forall_ne_some]
  intro i hi
  have place := hp t i hi
  rw [← getElem?_texts] at place
  exact ht (List.mem_of_getElem? place)

/-- An entry that is read with an unknown text is found like one that is added. -/
theorem Exact.addRead (h : p.Exact) {e : Element} (hn : p.find? (entryText e) = none) : (p.addRead e).Exact := by
  have place (i : Nat) : (p.addRead e).get? i = (p.add (entryText e)).1.get? i := by
    rw [get?, get?, Pool.addRead, Pool.add, List.getElem?_append, List.getElem?_append]
    split
    · rfl
    · cases i - p.entries.length <;> rfl
  have found (t : String) : (p.addRead e).find? t = (p.add (entryText e)).1.find? t := by
    have unknown : p.contains (entryText e) = false := by rw [contains, hn, Option.isSome_none]
    rw [find?, Pool.addRead]
    simp only [unknown, Bool.false_eq_true, if_false, List.lookup_append]
    by_cases ht : t = entryText e
    · have missing : p.index.lookup (entryText e) = none := hn
      rw [ht, missing, Option.none_or, List.lookup_cons_self, find?_add]
    · rw [List.lookup_cons, Listing.beq_eq_false ht, find?_add_ne p ht]
      exact Option.or_none
  intro t i
  rw [found, place]
  exact h.add hn t i

theorem Exact.foldl_addRead : ∀ {es : List Element} {p : Pool}, p.Exact →
    (p.texts ++ es.map entryText).Nodup → (es.foldl Pool.addRead p).Exact
  | [], _, h, _ => h
  | e :: es, p, h, distinct => by
      rw [List.map_cons, List.append_cons] at distinct
      have new : entryText e ∉ p.texts := fun hm =>
        (List.nodup_append.mp (List.nodup_append.mp distinct).1).2.2 _ hm _ (by simp) rfl
      have texts : (p.addRead e).texts = p.texts ++ [entryText e] := by simp [Pool.addRead, Pool.texts]
      exact (h.addRead ((exact_iff.mp h).1.find?_eq_none new)).foldl_addRead (texts ▸ distinct)

theorem Exact.foldl_add : ∀ {ts : List String} {p : Pool}, p.Exact → (p.texts ++ ts).Nodup →
    (ts.foldl (fun p t => (p.add t).1) p).Exact
  | [], _, h, _ => h
  | t :: ts, p, h, distinct => by
      rw [List.append_cons] at distinct
      have new : t ∉ p.texts := fun hm =>
        (List.nodup_append.mp (List.nodup_append.mp distinct).1).2.2 _ hm _ (by simp) rfl
      exact (h.add ((exact_iff.mp h).1.find?_eq_none new)).foldl_add (texts_add p t ▸ distinct)

theorem exact_empty : empty.Exact := fun _ _ => ⟨nofun, nofun⟩

end

/-- A pool that is made from different texts is exact. -/
theorem Source.exact_pool {s : Source} (distinct : (s.entries.map (·.text)).Nodup) : s.pool.Exact := by
  cases s with
  | document root =>
      refine exact_empty.foldl_addRead ?_
      rwa [entries, List.map_map] at distinct
  | list texts =>
      refine exact_empty.foldl_add ?_
      rw [entries, List.map_map] at distinct
      simpa [Function.comp_def, Pool.texts, empty] using distinct

/-! ### Any run of edits -/

/-- A pool after any edits, made from any document or list. The index gives for each text that it knows a place
with that text, and looking for it changes nothing. An edit answers with a place that holds its text, and the list
never gets shorter. A text changes only when it is known and an unknown text is put in its place. An entry with
markup is the one that was read, and its text has been the same all the time. If the texts were different at first
and none was added as it is, they are different, and the index is the inverse of the list. -/
theorem pool_after_edits (s : Source) (es : List Edit) :
    let p := s.pool.editAll es
    (∀ t i, p.find? t = some i → p.get? i = some t ∧ p.indexOf t = (p, i)) ∧
    (∀ e, p.size ≤ (p.edit e).1.size ∧ (p.edit e).1.get? (p.edit e).2 = some e.text) ∧
    (∀ e i t, p.get? i = some t → (p.edit e).1.get? i ≠ some t →
      e = .replace t e.text ∧ p.find? t = some i ∧ p.find? e.text = none ∧ (p.edit e).1.get? i = some e.text) ∧
    (∀ i entry, p.entries[i]? = some entry → entry.markup.isSome → s.entries[i]? = some entry ∧
      ∀ k, (s.pool.editAll (es.take k)).get? i = some entry.text) ∧
    ((s.entries.map (·.text)).Nodup → (∀ e ∈ es, e.isAdd = false) →
      p.texts.Nodup ∧ ∀ t i, p.find? t = some i ↔ p.get? i = some t) := by
  intro p
  have sound : p.Sound := s.sound.editAll es
  refine ⟨fun t i h => ⟨sound t i h, ?_⟩, fun e => ⟨size_le_edit p e, get?_edit sound e⟩,
    fun e i t ht changed => changed_of_edit sound ht changed, fun i entry hentry marked => ?_, fun distinct hes => ?_⟩
  · rcases indexOf_cases p t with ⟨j, hj, e⟩ | ⟨hn, -⟩
    · rw [e, Option.some.inj (hj.symm.trans h)]
    · rw [hn] at h
      cases h
  · have always := entry_of_editAll hentry marked
    refine ⟨?_, fun k => by rw [get?, always k, Option.map_some]⟩
    rw [← s.entries_pool]
    exact always 0
  · have exact_ : p.Exact := (Source.exact_pool distinct).editAll hes
    exact ⟨exact_.nodup, exact_⟩

/-- A document with two texts. -/
def smallSource : Source :=
  let item (text : String) : Element :=
    ⟨⟨some ⟨none, Vocabulary.main⟩, "si"⟩, [], [], none,
      [.element ⟨⟨some ⟨none, Vocabulary.main⟩, "t"⟩, [], [], some text, [], ""⟩], ""⟩
  .document ⟨⟨some ⟨none, Vocabulary.main⟩, "sst"⟩, [], [], none, [.element (item "a"), .element (item "b")], ""⟩

/-- The first text makes way for another, and the second keeps its markup and its place. -/
theorem pool_after_edits_small :
    let es : List Edit := [.indexOf "c", .replace "a" "d"]
    let p := smallSource.pool.editAll es
    (smallSource.entries.map (·.text)).Nodup ∧ (∀ e ∈ es, e.isAdd = false) ∧ p.texts = ["d", "b", "c"] ∧
      p.texts.Nodup ∧ p.find? "d" = some 0 ∧ p.indexOf "b" = (p, 1) ∧
      ∀ entry, p.entries[1]? = some entry → entry.markup.isSome →
        ∀ k, (smallSource.pool.editAll (es.take k)).get? 1 = some entry.text := by
  intro es p
  have distinct : (smallSource.entries.map (·.text)).Nodup := by decide +kernel
  have edits : ∀ e ∈ es, e.isAdd = false := by decide
  obtain ⟨known, -, -, kept, inverse⟩ := pool_after_edits smallSource es
  obtain ⟨nodup, index⟩ := inverse distinct edits
  refine ⟨distinct, edits, by decide +kernel, nodup, (index "d" 0).mpr (by decide +kernel),
    (known "b" 1 (by decide +kernel)).2, fun entry hentry marked => (kept 1 entry hentry marked).2⟩

end Gridfill.Pool

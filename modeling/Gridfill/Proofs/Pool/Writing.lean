import Gridfill.Proofs.Markup.InPlace
import Gridfill.Proofs.Outcome
import Gridfill.Proofs.Pool.Edits

/-!
# Pools that are written and read again

An entry of a pool that still has its markup has the text of that markup (`markup_of_built`), and the markup made
for any other entry has its text. So the document that a pool is written as holds the texts of the pool in their
order, whatever short forms its names are written with (`texts_of_writeTo`).
-/

namespace Gridfill.Pool

open Markup (Element)

/-! ### The text of an entry -/

theorem descendants_meaning (path : List Markup.Tag) :
    ∀ e : Element, e.meaning.descendants path = (e.descendants path).map Element.meaning := by
  induction path with
  | nil => exact fun e => rfl
  | cons tag path ih =>
      intro e
      rw [Element.descendants, Element.childrenWith_meaning, List.flatMap_map, Element.descendants, List.map_flatMap]
      simp only [ih]

theorem entryText_meaning (e : Element) : entryText e.meaning = entryText e := by
  simp only [entryText, Element.childrenWith_meaning, descendants_meaning, ← List.map_append, List.map_map,
    Function.comp_def, Element.meaning_text]

/-- The texts of a pool that was read are those of the entries in the document, in order. -/
theorem texts_ofRoot (root : Element) :
    (ofRoot root).texts = (root.childrenWith Vocabulary.stringItem).map entryText := by
  rw [texts, ofRoot, entries_foldl_addRead]
  simp [empty]

/-! ### Markup that is kept -/

/-- The markup of an entry is that of an entry, and its text is the text of the entry. -/
def PoolEntry.Kept (e : PoolEntry) : Prop :=
  ∀ m, e.markup = some m → m.tag = Vocabulary.stringItem ∧ entryText m = e.text

theorem kept_of_none {text : String} : PoolEntry.Kept ⟨text, none⟩ := fun _ h => nomatch h

/-- An entry without markup may be added. -/
theorem kept_append {entries : List PoolEntry} (h : ∀ e ∈ entries, PoolEntry.Kept e) (text : String) :
    ∀ e ∈ entries ++ [⟨text, none⟩], PoolEntry.Kept e := by
  intro e he
  rcases List.mem_append.mp he with he | he
  · exact h e he
  · exact List.mem_singleton.mp he ▸ kept_of_none

/-- In every pool that comes about, the markup that is left is true to its text. -/
theorem markup_of_built {p : Pool} (h : Built p) : ∀ e ∈ p.entries, PoolEntry.Kept e := by
  induction h with
  | ofRoot root =>
      intro e he
      rw [ofRoot, entries_foldl_addRead] at he
      obtain ⟨m, hm, rfl⟩ := List.mem_map.mp he
      rintro _ ⟨⟩
      exact ⟨Element.tag_of_mem_childrenWith hm, rfl⟩
  | ofTexts texts =>
      intro e he
      rw [ofTexts, entries_foldl_add] at he
      obtain ⟨t, -, rfl⟩ := List.mem_map.mp he
      exact kept_of_none
  | @add p text _ ih => exact kept_append ih text
  | @indexOf p text _ ih =>
      rcases indexOf_cases p text with ⟨i, -, eq⟩ | ⟨-, eq⟩
      · rw [eq]
        exact ih
      · rw [eq]
        exact kept_append ih text
  | @replace p old new _ ih =>
      rcases replace_cases p old new with ⟨i, -, eq⟩ | ⟨-, -, eq⟩ | ⟨i, -, -, eq⟩
      · rw [eq]
        exact ih
      · rw [eq]
        exact kept_append ih new
      · rw [eq]
        intro e he
        rcases List.mem_or_eq_of_mem_set he with he | rfl
        · exact ih e he
        · exact kept_of_none
  | @movedTo p root _ ih =>
      intro e he m hm
      obtain ⟨own, hown, rfl⟩ := List.mem_map.mp he
      obtain ⟨m, hmarkup, rfl⟩ := Option.map_eq_some_iff.mp hm
      obtain ⟨tag, text⟩ := ih own hown m hmarkup
      have meaning := Element.meaning_moveTo [root.frame] m
      exact ⟨(Markup.tag_eq_of_meaning meaning).trans tag, by rw [← entryText_meaning, meaning, entryText_meaning, text]⟩

/-! ### Writing -/

/-- The markup that is made for a text has that text. -/
theorem newItem_spec {text : String} {m : Element} (h : newItem text = .ok m) :
    m.tag = Vocabulary.stringItem ∧ entryText m = text := by
  unfold newItem at h
  split at h
  · obtain rfl := Except.ok.inj h
    refine ⟨rfl, ?_⟩
    show String.join [text] = text
    simp [String.join]
  · cases h

theorem itemOf_spec {e : PoolEntry} (kept : PoolEntry.Kept e) {m : Element} (h : itemOf e = .ok m) :
    m.tag = Vocabulary.stringItem ∧ entryText m = e.text := by
  unfold itemOf at h
  split at h
  · next own hown =>
    obtain rfl := Except.ok.inj h
    exact kept own hown
  · exact newItem_spec h

/-- What writing a pool comes to: an element for each entry, their number, and the markup moved to the document. -/
theorem writeTo_cases {p p' : Pool} {root root' : Element} (h : p.writeTo root = .ok (root', p')) :
    p' = p.movedTo root ∧ ∃ items count, List.Forall₂ (fun e m => itemOf e = .ok m) p.entries items ∧
      writeInteger p.size = .ok count ∧
      root' = ((root.replaceContent [] (items.map .element)).set "count" count).set "uniqueCount" count := by
  obtain ⟨items, hitems, h⟩ := bind_eq_ok_iff.mp h
  obtain ⟨count, hcount, h⟩ := bind_eq_ok_iff.mp h
  obtain ⟨rfl, rfl⟩ := Prod.mk.inj (Except.ok.inj h)
  exact ⟨rfl, items, count, mapM_eq_ok_iff.mp hitems, hcount, rfl⟩

/-- The document that a pool is written as has the texts of the pool, in order. -/
theorem texts_of_writeTo {p p' : Pool} {root root' : Element} (hp : Built p)
    (h : p.writeTo root = .ok (root', p')) : (ofRoot root').texts = p.texts := by
  obtain ⟨-, items, count, hitems, -, rfl⟩ := writeTo_cases h
  have kept := markup_of_built hp
  have tags : ∀ m ∈ items, m.tag = Vocabulary.stringItem := by
    intro m hm
    obtain ⟨e, he, hitem⟩ := exists_of_mem_right hitems hm
    exact (itemOf_spec (kept e he) hitem).1
  have meanings := Element.meaning_childrenWith_replaceContent [] root tags
  have own : items.map entryText = p.texts := by
    clear h meanings tags
    unfold texts
    generalize p.entries = entries at hitems kept
    induction hitems with
    | nil => rfl
    | @cons e m es ms hm _ ih =>
        rw [List.map_cons, List.map_cons, (itemOf_spec (kept e List.mem_cons_self) hm).2,
          ih fun f hf => kept f (List.mem_cons_of_mem e hf)]
  have texts := congrArg (List.map entryText) meanings
  simp only [List.map_map, Function.comp_def, entryText_meaning] at texts
  rw [texts_ofRoot, Element.childrenWith_set, Element.childrenWith_set, texts, own]

/-! ### Markup that is put back -/

/-- The pools have the same texts at the same places, and markup that means the same. -/
structure SameMeaning (p q : Pool) : Prop where
  texts : q.texts = p.texts
  index : q.index = p.index
  markup : q.entries.map (·.markup.map Element.meaning) = p.entries.map (·.markup.map Element.meaning)

/-- Does the markup of the entries declare nothing, and is it written with the bindings of the root of a document? -/
def atHome (p : Pool) (root : Element) : Bool := p.entries.all fun e => e.markup.all (·.atHome [root.frame])

/-- Putting the entries of a pool into a document leaves what they mean. -/
theorem sameMeaning_movedTo (p : Pool) (root : Element) : p.SameMeaning (p.movedTo root) where
  texts := texts_movedTo p root
  index := rfl
  markup := by
    rw [movedTo, List.map_map]
    refine List.map_congr_left fun e _ => ?_
    simp only [Function.comp_apply, Option.map_map, Function.comp_def, Element.meaning_moveTo]

/-- Entries whose markup is at home are the same when they were put into the document. -/
theorem movedTo_eq_self {p : Pool} {root : Element} (h : p.atHome root = true) : p.movedTo root = p := by
  have same : p.entries.map (fun e => { e with markup := e.markup.map (·.moveTo [root.frame]) }) = p.entries := by
    refine (List.map_congr_left fun e he => ?_).trans (List.map_id _)
    obtain ⟨text, markup⟩ := e
    have home := List.all_eq_true.mp h _ he
    cases markup with
    | none => rfl
    | some m => exact congrArg (fun m => PoolEntry.mk text (some m)) (Element.moveTo_eq_self home)
  rw [movedTo, same]

end Gridfill.Pool

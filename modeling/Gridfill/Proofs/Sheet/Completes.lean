import Gridfill.Proofs.Markup.InPlace
import Gridfill.Proofs.Sheet.HeaderCells
import Gridfill.Proofs.Text.Woven

/-!
# Texts that values complete

Values complete a text when its signs all stand in placeholders and each of these has values with bare texts
(`Completes`): then overwriting the placeholders leaves bare text (`Completes.filledText`). A cell is settled when it
shows no text with a sign of a placeholder and stands where its reference says; so is a cell that is filled with such a
value (`settled_fill`), and it stays so as long as only bare texts come into the pool (`Pool.Cleans`, `Settled.mono`).
-/

namespace Gridfill

open Markup (Element Node Scope)
open CellRef (numbered)
open Placeholder (Bare)

/-! ### Texts that values complete -/

/-- The values that go into cells or into a text in the place of the placeholder. Below a cell go those of records, but
into the name of a column what a placeholder of the table kind names itself. -/
def Placeholder.rendered (data : Bindings) (p : Placeholder) : List Value :=
  match p.layout? data with
  | some items =>
    if p.isTable then items.flatMap Expand.sideBySide ++ (data.find? p.name p.key).toList else items
  | none => (data.find? p.name p.key).toList

/-- All signs of the text stand in its placeholders, and each of these has values, whose texts are bare. -/
structure Completes (data : Bindings) (text : String) : Prop where
  inside : Placeholder.SignsInside text
  resolves : ∀ p ∈ Placeholder.scan text, p.resolves data = true
  bare : ∀ p ∈ Placeholder.scan text, ∀ v ∈ p.rendered data, Bare v.wording

instance (data : Bindings) (text : String) : Decidable (Completes data text) :=
  decidable_of_iff (Placeholder.SignsInside text ∧ (∀ p ∈ Placeholder.scan text, p.resolves data = true) ∧
      ∀ p ∈ Placeholder.scan text, ∀ v ∈ p.rendered data, Bare v.wording)
    ⟨fun h => ⟨h.1, h.2.1, h.2.2⟩, fun h => ⟨h.inside, h.resolves, h.bare⟩⟩

theorem Placeholder.Bare.completes {text : String} (h : Bare text) (data : Bindings) : Completes data text where
  inside := h.signsInside
  resolves p hp := by
    rw [h.scan_eq_nil] at hp
    cases hp
  bare p hp := by
    rw [h.scan_eq_nil] at hp
    cases hp

/-- A placeholder that is not laid out has a value. -/
theorem Completes.find? {data : Bindings} {text : String} (h : Completes data text) {p : Placeholder}
    (hp : p ∈ Placeholder.scan text) (layout : p.layout? data = none) :
    ∃ v, data.find? p.name p.key = some v ∧ Bare v.wording := by
  have resolves := h.resolves p hp
  rw [Placeholder.resolves, layout, Option.isSome_none, Bool.false_or] at resolves
  obtain ⟨v, hv⟩ := Option.isSome_iff_exists.mp resolves
  refine ⟨v, hv, h.bare p hp v ?_⟩
  rw [Placeholder.rendered, layout]
  show v ∈ (data.find? p.name p.key).toList
  rw [hv]
  exact List.mem_singleton_self v

/-- Placeholders that have bare values leave bare text when they are overwritten one after the other. -/
theorem Header.bare_filledText {data : Bindings} {ps : List Placeholder} {back : List Char}
    (woven : Placeholder.Woven ps back)
    (values : ∀ p ∈ ps, ∃ v, data.find? p.name p.key = some v ∧ Bare v.wording) {front : List Char}
    (bare : ∀ c ∈ front, c ∉ Placeholder.signs) :
    Bare (filledText data ps (String.ofList (front ++ back))) := by
  induction woven generalizing front with
  | @nil cs own =>
      intro c hc
      rw [filledText, String.toList_ofList] at hc
      rcases List.mem_append.mp hc with hc | hc
      · exact bare c hc
      · exact own c hc
  | @cons p ps between raw back own written rest ih =>
      obtain ⟨v, hv, shown⟩ := values p List.mem_cons_self
      have before : ∀ c ∈ front ++ between, c ∉ Placeholder.signs := fun c hc =>
        (List.mem_append.mp hc).elim (bare c) (own c)
      have overwritten : Text.replaceFirst p.raw.toList v.wording.toList (front ++ (between ++ p.raw.toList ++ back)) =
          front ++ between ++ v.wording.toList ++ back := by
        rw [← List.append_assoc, ← List.append_assoc, written]
        exact Text.replaceFirst_of_not_mem raw _ back fun hm => before '$' hm List.mem_cons_self
      simp only [filledText, hv]
      rw [String.toList_ofList, overwritten]
      refine ih (fun q hq => values q (List.mem_cons_of_mem p hq)) fun c hc => ?_
      exact (List.mem_append.mp hc).elim (before c) (shown c)

/-- A text that the values complete is bare when its placeholders are overwritten. -/
theorem Completes.filledText {data : Bindings} {text : String} (h : Completes data text)
    (values : ∀ p ∈ Placeholder.scan text, ∃ v, data.find? p.name p.key = some v ∧ Bare v.wording) :
    Bare (Header.filledText data (Placeholder.scan text) text) := by
  have bare : Bare (Header.filledText data (Placeholder.scan text) (String.ofList ([] ++ text.toList))) :=
    Header.bare_filledText (Placeholder.woven_scan h.inside) values fun _ hc => by cases hc
  rwa [List.nil_append, String.ofList_toList] at bare

/-! ### Bare texts in the pool -/

/-- The pool goes on with bare texts only: a text at a place has stood there before or is bare. -/
structure Pool.Cleans (p q : Pool) : Prop where
  sound : p.Sound → q.Sound
  size_le : p.size ≤ q.size
  texts : ∀ k t, q.get? k = some t → p.get? k = some t ∨ Bare t

namespace Pool

theorem Cleans.refl (p : Pool) : Cleans p p := ⟨id, Nat.le_refl _, fun _ _ => Or.inl⟩

theorem Cleans.trans {p q r : Pool} (h : Cleans p q) (h' : Cleans q r) : Cleans p r where
  sound := h'.sound ∘ h.sound
  size_le := Nat.le_trans h.size_le h'.size_le
  texts k t ht := (h'.texts k t ht).elim (h.texts k t) Or.inr

theorem cleans_add (p : Pool) {text : String} (h : Bare text) : Cleans p (p.add text).1 where
  sound hp := hp.add text
  size_le := by
    rw [size_add]
    exact Nat.le_succ _
  texts k t ht := by
    rcases get?_add_eq_some ht with ht | ⟨-, rfl⟩
    · exact Or.inl ht
    · exact Or.inr h

theorem cleans_indexOf (p : Pool) {text : String} (h : Bare text) : Cleans p (p.indexOf text).1 := by
  rcases indexOf_cases p text with ⟨i, -, e⟩ | ⟨-, e⟩
  · rw [e]
    exact .refl p
  · rw [e]
    exact cleans_add p h

theorem cleans_movedTo (p : Pool) (root : Element) : Cleans p (p.movedTo root) where
  sound hp := hp.movedTo root
  size_le := Nat.le_of_eq (size_movedTo p root).symm
  texts k t ht := Or.inl (by rwa [get?_movedTo] at ht)

theorem cleans_replace {p : Pool} (hp : p.Sound) (old : String) {new : String} (h : Bare new) :
    Cleans p (p.replace old new).1 := by
  rcases replace_cases p old new with ⟨i, -, e⟩ | ⟨-, -, e⟩ | ⟨i, hn, ho, e⟩
  · rw [e]
    exact .refl p
  · rw [e]
    exact cleans_add p h
  · rw [e]
    refine ⟨fun hp => hp.overwrite hn ho, Nat.le_of_eq (size_overwrite p old new i).symm, fun k t ht => ?_⟩
    by_cases hk : k = i
    · rw [hk] at ht
      have new_eq : new = t := Option.some.inj ((get?_overwrite old new (hp.lt_size ho)).symm.trans ht)
      exact Or.inr (new_eq ▸ h)
    · rw [get?_overwrite_ne p old new hk] at ht
      exact Or.inl ht

end Pool

/-! ### Cells -/

namespace Cell

/-- A run of digits that the cell holds as its place can be read, as long as the size of the pool can be written. -/
def Readable (size : Nat) (cell : Element) : Prop :=
  size < Text.integerBound → cell.attribute? "t" = some "s" → ∀ s, valueText cell = some s →
    Text.isDigitRun (Text.strip s.toList) = true → ∃ i, parseInteger s = .ok i

/-- The cell stands in a row where its reference says, and shows no text with a sign of a placeholder. -/
structure Settled (pool : Pool) (number : Int) (cell : Element) : Prop where
  tag : cell.tag = Vocabulary.cell
  written : ∃ c, (numbered c number).Wide ∧ cell.Writes "r" (numbered c number).text
  readable : Readable pool.size cell
  bare : ∀ t, shownText pool cell = some t → Bare t

theorem Readable.mono {m n : Nat} {cell : Element} (h : Readable m cell) (hle : m ≤ n) : Readable n cell :=
  fun hn => h (Nat.lt_of_le_of_lt hle hn)

theorem Readable.of_meaning {size : Nat} {a b : Element} (hm : a.meaning = b.meaning) (h : Readable size b) :
    Readable size a := by
  unfold Readable
  rw [Markup.attribute?_eq_of_meaning hm, valueText_eq_of_meaning hm]
  exact h

theorem Readable.set_ref {size : Nat} {cell : Element} (h : Readable size cell) (ref : String) :
    Readable size (cell.set "r" ref) := by
  unfold Readable
  rw [Element.attribute?_set_ne cell ref (by decide)]
  exact h

theorem readable_of_type {size : Nat} {cell : Element} (h : cell.attribute? "t" ≠ some "s") : Readable size cell :=
  fun _ ht => absurd ht h

/-- A bare text stays, and what comes into the pool is bare. -/
theorem bare_of_cleans {p q : Pool} (h : Pool.Cleans p q) {cell : Element}
    (bare : ∀ t, shownText p cell = some t → Bare t) : ∀ t, shownText q cell = some t → Bare t := by
  intro t ht
  rw [shownText_eq] at ht
  obtain ⟨k, hplace, hget⟩ := Option.bind_eq_some_iff.mp ht
  rcases h.texts k t hget with old | new
  · exact bare t (by rw [shownText_eq, hplace]; exact old)
  · exact new

theorem Settled.mono {p q : Pool} {number : Int} {cell : Element} (h : Settled p number cell) (hc : Pool.Cleans p q) :
    Settled q number cell :=
  ⟨h.tag, h.written, h.readable.mono hc.size_le, bare_of_cleans hc h.bare⟩

theorem Settled.of_meaning {pool : Pool} {number : Int} {a b : Element} (hm : a.meaning = b.meaning)
    (h : Settled pool number b) : Settled pool number a where
  tag := (Markup.tag_eq_of_meaning hm).trans h.tag
  written := by
    obtain ⟨c, wide, written⟩ := h.written
    exact ⟨c, wide, Element.writes_of_meaning hm.symm written⟩
  readable := h.readable.of_meaning hm
  bare t ht := h.bare t (by rw [← ht]; exact (shownText_eq_of_meaning hm pool).symm)

/-- What is known of a cell that is not reached yet: its place can be read, and the values complete its text. -/
structure Fillable (data : Bindings) (pool : Pool) (cell : Element) : Prop where
  readable : Readable pool.size cell
  text : ∀ t, shownText pool cell = some t → Completes data t

theorem Fillable.mono {data : Bindings} {p q : Pool} {cell : Element} (h : Fillable data p cell)
    (hc : Pool.Cleans p q) : Fillable data q cell where
  readable := h.readable.mono hc.size_le
  text t ht := by
    rw [shownText_eq] at ht
    obtain ⟨k, hplace, hget⟩ := Option.bind_eq_some_iff.mp ht
    rcases hc.texts k t hget with old | new
    · exact h.text t (by rw [shownText_eq, hplace]; exact old)
    · exact new.completes data

theorem unshown_of_type {pool : Pool} {cell : Element} (h : cell.attribute? "t" ≠ some "s") {t : String} :
    shownText pool cell ≠ some t :=
  fun shown => h (type_of_shownText shown)

/-! ### Filling a cell -/

theorem attributes_putText (cell : Element) (text : String) : (putText cell text).attributes = cell.attributes := by
  show (prepare cell).attributes = cell.attributes
  unfold prepare
  simp only
  split <;> rfl

theorem writes_putText {cell : Element} {label value : String} (h : cell.Writes label value) (text : String) :
    (putText cell text).Writes label value := by
  obtain ⟨name, h⟩ := h
  exact ⟨name, by rw [attributes_putText]; exact h⟩

/-- What is written of the other attributes of a cell is left when its content is. -/
theorem writes_writeForm {cell : Element} {label value : String} (h : cell.Writes label value) (own : label ≠ "t")
    (form : CellForm) (pool : Pool) : (writeForm cell form pool).1.Writes label value := by
  cases form with
  | flag b => exact (writes_putText h _).set_ne own _
  | number text => exact (writes_putText h _).unset_ne own
  | text s => exact (writes_putText h _).set_ne own _

/-- A place that was written is the only one that the cell can hold. -/
theorem eq_of_place? {cell : Element} {i k : Nat} (content : valueText cell = some (toString i))
    (h : place? cell = some k) : k = i := by
  obtain ⟨s, hs, h⟩ := Option.bind_eq_some_iff.mp h
  unfold placeText at hs
  split at hs
  · obtain ⟨hs, -⟩ := Option.filter_eq_some_iff.mp hs
    obtain rfl : toString i = s := Option.some.inj (content.symm.trans hs)
    split at h
    · next n read =>
      have digits : (toString i).toList = Text.decimal i := Text.toList_toString_ofNat i
      rw [digits] at read
      obtain ⟨rfl, -⟩ := Text.eq_of_readInteger_decimal read
      rw [if_neg (by omega)] at h
      exact (Option.some.inj h).symm
    · cases h
  · cases hs

theorem readable_of_valueText {size i : Nat} {cell : Element} (hi : i < size)
    (h : valueText cell = some (toString i)) : Readable size cell := by
  intro hb _ s hs _
  obtain rfl : toString i = s := Option.some.inj (h.symm.trans hs)
  exact ⟨(i : Int), parseInteger_of_write (writeInteger_eq_ok_iff.mpr ⟨by omega, rfl⟩)⟩

section
variable {pool : Pool} {number : Int} {cell : Element} {c : Nat} (hp : pool.Sound) (tag : cell.tag = Vocabulary.cell)
  (wide : (numbered c number).Wide) (own : cell.Writes "r" (numbered c number).text)
include hp tag wide own

/-- A cell that is written in a form whose text is bare is settled. -/
theorem settled_writeForm {form : CellForm} (bare : ∀ s, form = .text s → Bare s) :
    Pool.Cleans pool (writeForm cell form pool).2.1 ∧
      Settled (writeForm cell form pool).2.1 number (writeForm cell form pool).1 := by
  have written := writes_writeForm own (by decide) form pool
  have tagged := (writeForm_style cell form pool).tag.trans tag
  cases form with
  | flag b =>
      have type : ((putText cell (if b then "1" else "0")).set "t" "b").attribute? "t" ≠ some "s" := by
        rw [Element.attribute?_set]
        decide
      exact ⟨.refl pool, tagged, ⟨c, wide, written⟩, readable_of_type type, fun t ht => absurd ht (unshown_of_type type)⟩
  | number text =>
      have type : ((putText cell text).unset "t").attribute? "t" ≠ some "s" := by
        rw [Element.attribute?_unset]
        nofun
      exact ⟨.refl pool, tagged, ⟨c, wide, written⟩, readable_of_type type, fun t ht => absurd ht (unshown_of_type type)⟩
  | text s =>
      have content : valueText ((putText cell (toString (pool.indexOf s).2)).set "t" "s") = _ :=
        valueText_putText cell (toString (pool.indexOf s).2)
      refine ⟨Pool.cleans_indexOf pool (bare s rfl), tagged, ⟨c, wide, written⟩,
        readable_of_valueText (hp.indexOf_lt s) content, fun t ht => ?_⟩
      rw [shownText_eq] at ht
      obtain ⟨k, hplace, hget⟩ := Option.bind_eq_some_iff.mp ht
      obtain rfl : k = (pool.indexOf s).2 := eq_of_place? content hplace
      obtain rfl : s = t := Option.some.inj ((get?_indexOf hp s).symm.trans hget)
      exact bare s rfl

omit hp in
theorem settled_clear : Settled pool number (clear cell) := by
  have type : (clear cell).attribute? "t" ≠ some "s" := by
    have hn : (clear cell).attribute? "t" = none := cell.attribute?_unset "t"
    rw [hn]
    nofun
  obtain ⟨name, find⟩ := own.unset_ne (show "r" ≠ "t" by decide)
  exact ⟨tag, ⟨c, wide, name, find⟩, readable_of_type type, fun t ht => absurd ht (unshown_of_type type)⟩

theorem settled_fill {v : Value} (bare : Bare v.wording) {e : Element} {pool' : Pool}
    (h : fill cell v pool = .ok (e, pool')) : Pool.Cleans pool pool' ∧ Settled pool' number e := by
  rcases fill_cases h with ⟨-, rfl, rfl⟩ | ⟨form, -, hform, rfl, rfl⟩
  · exact ⟨.refl _, settled_clear tag wide own⟩
  · refine settled_writeForm hp tag wide own fun s text => ?_
    rw [text] at hform
    rwa [← Value.wording_of_toText (Value.toText_of_cellForm hform)]

end

end Cell

end Gridfill

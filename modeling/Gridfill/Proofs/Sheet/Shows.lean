import Gridfill.Proofs.Sheet.Layout
import Gridfill.Proofs.Value.Marks

/-!
# What a cell shows

A cell shows a value in the form of its type: a truth value as a flag, a number or a date as an untyped
number, anything else as a text of the pool, and nothing as a cell without type and content (`Shows`). A cell
that was filled with a value shows it, in whatever cell of a sequence or a record it stands, and goes on
showing it while a pass changes the pool, as long as no text of the values has an opening mark
(`Lasts.steps`): the pass replaces only texts that are placeholders.
-/

namespace Gridfill

open Markup (Element)
open Relation (TransGen)

/-- What is true of elements is true of elements that mean the same. -/
theorem forall₂_of_meaning {α : Type} {R : α → Element → Prop}
    (hR : ∀ a e e', e'.meaning = e.meaning → R a e → R a e') :
    ∀ {as : List α} {es es' : List Element}, es'.map Element.meaning = es.map Element.meaning →
      List.Forall₂ R as es → List.Forall₂ R as es'
  | [], _, es', hm, .nil => by
      rw [List.map_eq_nil_iff.mp hm]
      exact .nil
  | a :: as, _, es', hm, .cons h hs => by
      obtain ⟨e', rest, rfl, he, hrest⟩ := List.map_eq_cons_iff.mp hm
      exact .cons (hR a _ e' he h) (forall₂_of_meaning hR hrest hs)

namespace Cell

/-- The cell has the type and the content of the form. -/
def ShowsForm (pool : Pool) (cell : Element) : CellForm → Prop
  | .flag b => cell.attribute? "t" = some "b" ∧ valueText cell = some (if b then "1" else "0")
  | .number text => cell.attribute? "t" = none ∧ valueText cell = some text
  | .text s => cell.attribute? "t" = some "s" ∧ shownText pool cell = some s

/-- The cell shows the value: for nothing it has neither type nor content. -/
def Shows (pool : Pool) (cell : Element) (v : Value) : Prop :=
  match v with
  | .null => cell.attribute? "t" = none ∧ cell.content = []
  | v => ∃ form, v.cellForm = .ok form ∧ ShowsForm pool cell form

/-- Putting the texts away changes nothing that cells show. -/
theorem shows_movedTo {pool : Pool} (root : Element) {cell : Element} {v : Value} :
    Shows (pool.movedTo root) cell v ↔ Shows pool cell v := by
  have forms (form : CellForm) : ShowsForm (pool.movedTo root) cell form ↔ ShowsForm pool cell form := by
    cases form <;> simp only [ShowsForm, shownText_movedTo]
  cases v <;> simp only [Shows, forms]

theorem shows_of_form {pool : Pool} {cell : Element} {v : Value} {form : CellForm} (hv : v ≠ .null)
    (hform : v.cellForm = .ok form) (h : ShowsForm pool cell form) : Shows pool cell v := by
  cases v with
  | null => exact absurd rfl hv
  | _ => exact ⟨form, hform, h⟩

theorem shows_cases {pool : Pool} {cell : Element} {v : Value} (h : Shows pool cell v) :
    v = .null ∧ cell.attribute? "t" = none ∧ cell.content = [] ∨
      ∃ form, v ≠ .null ∧ v.cellForm = .ok form ∧ ShowsForm pool cell form := by
  have shown (hv : v ≠ .null) (h : ∃ form, v.cellForm = .ok form ∧ ShowsForm pool cell form) :
      ∃ form, v ≠ .null ∧ v.cellForm = .ok form ∧ ShowsForm pool cell form := by
    obtain ⟨form, hform, h⟩ := h
    exact ⟨form, hv, hform, h⟩
  cases v with
  | null => exact Or.inl ⟨rfl, h⟩
  | _ => exact Or.inr (shown nofun h)

/-! ### Cells that mean the same -/

theorem shownText_eq_of_meaning {a b : Element} (h : a.meaning = b.meaning) (pool : Pool) :
    shownText pool a = shownText pool b := by
  unfold shownText placeText
  rw [Markup.attribute?_eq_of_meaning h, valueText_eq_of_meaning h]

theorem ShowsForm.of_meaning {pool : Pool} {a b : Element} {form : CellForm} (hm : a.meaning = b.meaning)
    (h : ShowsForm pool b form) : ShowsForm pool a form := by
  unfold ShowsForm at h ⊢
  rw [Markup.attribute?_eq_of_meaning hm, valueText_eq_of_meaning hm, shownText_eq_of_meaning hm]
  exact h

theorem Shows.of_meaning {pool : Pool} {a b : Element} {v : Value} (hm : a.meaning = b.meaning)
    (h : Shows pool b v) : Shows pool a v := by
  rcases shows_cases h with ⟨rfl, type, content⟩ | ⟨form, hv, hform, h⟩
  · refine ⟨(Markup.attribute?_eq_of_meaning hm _).trans type, ?_⟩
    have := congrArg Element.content hm
    rw [Element.meaning_content, Element.meaning_content, content, List.map_nil] at this
    exact List.map_eq_nil_iff.mp this
  · exact shows_of_form hv hform (h.of_meaning hm)

/-! ### Cells that were filled -/

/-- A cell that shows a text has the type of such cells. -/
theorem type_of_shownText {pool : Pool} {cell : Element} {s : String} (h : shownText pool cell = some s) :
    cell.attribute? "t" = some "s" := by
  obtain ⟨written, hw, -⟩ := Option.bind_eq_some_iff.mp h
  unfold placeText at hw
  split at hw
  · next ht => exact ht
  · cases hw

/-- A written place is the place that the cell holds, as far as numbers can be read. -/
theorem place?_of_valueText {cell : Element} {i : Nat} (type : cell.attribute? "t" = some "s")
    (content : valueText cell = some (toString i)) (hi : i < Text.integerBound) : place? cell = some i := by
  have digits : (toString i).toList = Text.decimal i := Text.toList_toString_ofNat i
  have blank : Text.strip (Text.decimal i) = Text.decimal i :=
    Text.trim_eq_self fun c hc => Text.isBlank_of_isDigit (Text.isDigit_of_mem_decimal hc)
  have place : placeText cell = some (toString i) := by
    rw [placeText, if_pos type, content]
    refine Option.filter_eq_some_iff.mpr ⟨rfl, ?_⟩
    rw [digits, blank]
    simp [Text.decimal_ne_nil]
  have read : Text.readInteger (toString i).toList = .ok (i : Int) :=
    Text.readInteger_toString (n := (i : Int)) (by omega)
  unfold place?
  rw [place, Option.bind_some, read]
  rfl

/-- The place that a pool gives for a text has that text. -/
theorem get?_indexOf {pool : Pool} (hp : pool.Sound) (s : String) :
    (pool.indexOf s).1.get? (pool.indexOf s).2 = some s := by
  rcases Pool.indexOf_cases pool s with ⟨i, h, e⟩ | ⟨-, e⟩
  · rw [e]
    exact hp s i h
  · rw [e]
    exact Pool.get?_add_size pool s

theorem showsForm_writeForm {pool : Pool} (hp : pool.Sound) (cell : Element) (form : CellForm)
    (writable : (writeForm cell form pool).2.1.size < Text.integerBound) :
    ShowsForm (writeForm cell form pool).2.1 (writeForm cell form pool).1 form := by
  cases form with
  | flag b => exact ⟨Element.attribute?_set _ _ _, valueText_putText cell _⟩
  | number text => exact ⟨Element.attribute?_unset _ _, valueText_putText cell text⟩
  | text s =>
      have type := (putText cell (toString (pool.indexOf s).2)).attribute?_set "t" "s"
      have place := place?_of_valueText type (valueText_putText cell _)
        (Nat.lt_trans (hp.indexOf_lt s) writable)
      refine ⟨type, ?_⟩
      rw [shownText_eq]
      show (place? ((putText cell (toString (pool.indexOf s).2)).set "t" "s")).bind _ = _
      rw [place]
      exact get?_indexOf hp s

theorem shows_fill {cell e : Element} {v : Value} {pool pool' : Pool} (hp : pool.Sound)
    (writable : pool'.size < Text.integerBound) (h : fill cell v pool = .ok (e, pool')) : Shows pool' e v := by
  rcases fill_cases h with ⟨rfl, rfl, rfl⟩ | ⟨form, hv, hform, rfl, rfl⟩
  · exact ⟨cell.attribute?_unset "t", rfl⟩
  · exact shows_of_form hv hform (showsForm_writeForm hp cell form writable)

/-! ### While the pool changes -/

section
variable {holds : Nat → Prop} {data : Bindings} {p q : Pool}

/-- A text without an opening mark that a cell shows is shown as long as the pass goes on. -/
theorem shownText_steps (hs : Pool.Steps holds (Fills data) p q) (hp : p.Sound) {cell : Element} {s : String}
    (hn : ¬ Placeholder.HasMark s) (h : shownText p cell = some s) : shownText q cell = some s := by
  rw [shownText_eq] at h ⊢
  obtain ⟨k, hplace, hget⟩ := Option.bind_eq_some_iff.mp h
  obtain ⟨t, ht, rfl | ⟨-, chain⟩⟩ := hs.drift hp hget
  · rw [hplace]
    exact ht
  · obtain ⟨next, ⟨r, hscan, -⟩, -⟩ := Relation.TransGen.head'_iff.mp chain
    rw [Placeholder.scan_eq_nil hn] at hscan
    cases hscan

theorem Shows.steps (hs : Pool.Steps holds (Fills data) p q) (hp : p.Sound) {cell : Element} {v : Value}
    (hv : v.Unmarked) (h : Shows p cell v) : Shows q cell v := by
  rcases shows_cases h with ⟨rfl, blank⟩ | ⟨form, hn, hform, h⟩
  · exact blank
  · refine shows_of_form hn hform ?_
    cases form with
    | text s => exact ⟨h.1, shownText_steps hs hp (hv.cellForm hform) h.2⟩
    | flag b => exact h
    | number text => exact h

variable (p) in
/-- The cell shows a value that has no marks of its own, as long as the places of the pool can be written. -/
def Lasts (cell : Element) (v : Value) : Prop := v.Unmarked → p.size < Text.integerBound → Shows p cell v

theorem Lasts.steps (hs : Pool.Steps holds (Fills data) p q) (hp : p.Sound) {cell : Element} {v : Value}
    (h : Lasts p cell v) : Lasts q cell v :=
  fun hv writable => (h hv (Nat.lt_of_le_of_lt hs.size_le writable)).steps hs hp hv

theorem Lasts.of_meaning {a b : Element} {v : Value} (hm : a.meaning = b.meaning) (h : Lasts p b v) :
    Lasts p a v :=
  fun hv writable => (h hv writable).of_meaning hm

theorem lasts_fill (hp : p.Sound) {cell e : Element} {v : Value} (h : fill cell v p = .ok (e, q)) : Lasts q e v :=
  fun _ writable => shows_fill hp writable h

end

end Cell

namespace Expand

open Cell (Lasts)
open CellRef (numbered)

/-! ### The cells for a value -/

theorem lasts_putWhole {cell e : Element} {text : String} {v : Value} {pool pool' : Pool} (hp : pool.Sound)
    (h : putWhole cell text v pool = .ok (e, pool')) : Lasts pool' e v := by
  rcases putWhole_cases h with ⟨s, rfl, hfill⟩ | ⟨-, hfill⟩
  · exact Cell.lasts_fill (hp.replace text s) hfill
  · exact Cell.lasts_fill hp hfill

theorem layRight_lasts {cell : Element} {c : Nat} {m : Int} (hc : 1 ≤ c)
    (hr : cell.attribute? "r" = some (numbered c m).text) :
    ∀ {items : List Value} {offset : Nat} {pool pool' : Pool} {cells : List Element}, pool.Sound →
      layRight cell offset items pool = .ok (cells, pool') →
      List.Forall₂ (fun v e => Lasts pool' e v) items cells
  | [], offset, pool, pool', cells, _, h => by
      injection Except.ok.inj h with h1 h2
      subst h1
      exact .nil
  | v :: vs, offset, pool, pool', cells, hp, h => by
      obtain ⟨copy, -, h⟩ := bind_eq_ok_iff.mp h
      obtain ⟨⟨filled, mid⟩, hfill, h⟩ := bind_eq_ok_iff.mp h
      obtain ⟨⟨rest, pool''⟩, hrest, h⟩ := bind_eq_ok_iff.mp h
      have steps := Cell.fill_pool (fun _ => True) (Fills (.ofValues [])) hfill
      have sound := steps.sound hp
      obtain ⟨-, -, more⟩ := layRight_spec (fun _ => True) (Fills (.ofValues [])) hc hr sound hrest
      injection Except.ok.inj h with h1 h2
      subst h1 h2
      exact .cons ((Cell.lasts_fill hp hfill).steps more sound) (layRight_lasts hc hr sound hrest)

/-- The cells for a sequence show its elements, or a blank when it has none. -/
theorem spread_lasts {cell : Element} {c : Nat} {m : Int} (hc : 1 ≤ c)
    (hr : cell.attribute? "r" = some (numbered c m).text) {items : List Value} {pool pool' : Pool}
    {cells : List Element} (hp : pool.Sound) (h : spread cell items pool = .ok (cells, pool')) :
    List.Forall₂ (fun v e => Lasts pool' e v) (laidOut items) cells :=
  layRight_lasts hc hr hp h

/-- The cells that a value puts in show the values that stand side by side for it. -/
theorem puts_lasts {cell : Element} {c : Nat} {m : Int} (hc : 1 ≤ c)
    (hr : cell.attribute? "r" = some (numbered c m).text) {item : Value} {pool pool' : Pool}
    {cells : List Element} (hp : pool.Sound) (h : Puts cell item pool cells pool') :
    List.Forall₂ (fun v e => Lasts pool' e v) (sideBySide item) cells := by
  cases h with
  | @sequence items _ _ hitems hspread =>
      rw [sideBySide_of_items? hitems]
      exact spread_lasts hc hr hp hspread
  | single hitems hfill =>
      rw [sideBySide_of_items?_none hitems]
      exact .cons (Cell.lasts_fill hp hfill) .nil

end Expand
end Gridfill

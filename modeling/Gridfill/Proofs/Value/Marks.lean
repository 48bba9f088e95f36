import Gridfill.Proofs.Placeholder
import Gridfill.Proofs.Value.Wording

/-!
# Values without opening marks

The bindings supply the values of the names, the fields of a value that they supply and the elements of a
sequence that they supply (`Supplies`); whatever a placeholder shows is among them. When no text among them
has an opening mark, no text that one of them puts into a cell has one (`Unmarked.cellForm`): all texts that
are made up are without marks.
-/

namespace Gridfill

open Calendar (Clock Reading)
open Placeholder (HasMark)

namespace Placeholder

instance (text : String) : Decidable (HasMark text) := inferInstanceAs (Decidable (_ <:+: _))

end Placeholder

namespace Value

mutual

/-- The texts in a value, at any depth. -/
def texts : Value → List String
  | .text s => [s]
  | .list items => textsOfItems items
  | .tuple items => textsOfItems items
  | .mapping entries => textsOfEntries entries
  | _ => []

/-- The texts in some values. -/
def textsOfItems : List Value → List String
  | [] => []
  | v :: vs => v.texts ++ textsOfItems vs

/-- The texts in the values of some entries. -/
def textsOfEntries : List (String × Value) → List String
  | [] => []
  | (_, v) :: entries => v.texts ++ textsOfEntries entries

end

/-! ### The texts of a part -/

theorem texts_of_mem {v : Value} : ∀ {items : List Value}, v ∈ items → v.texts ⊆ textsOfItems items
  | w :: items, h => by
      rw [textsOfItems]
      rcases List.mem_cons.mp h with rfl | h
      · exact List.subset_append_left _ _
      · exact List.subset_append_of_subset_right _ (texts_of_mem h)

theorem texts_of_lookup {name : String} {v : Value} :
    ∀ {entries : List (String × Value)}, entries.lookup name = some v → v.texts ⊆ textsOfEntries entries
  | (_, w) :: entries, h => by
      rw [textsOfEntries]
      rw [List.lookup_cons] at h
      split at h
      · rw [← Option.some.inj h]
        exact List.subset_append_left _ _
      · exact List.subset_append_of_subset_right _ (texts_of_lookup h)

/-- A sequence has the texts of its elements. -/
theorem texts_of_items? {v : Value} {items : List Value} (h : v.items? = some items) {item : Value}
    (hi : item ∈ items) : item.texts ⊆ v.texts := by
  cases v with
  | list vs =>
      obtain rfl := Option.some.inj h
      exact texts_of_mem hi
  | tuple vs =>
      obtain rfl := Option.some.inj h
      exact texts_of_mem hi
  | _ => cases h

/-! ### Unmarked values -/

/-- The value is no text with an opening mark. -/
def Unmarked (v : Value) : Prop := ∀ s, v = .text s → ¬ HasMark s

theorem unmarked_null : Unmarked .null := nofun

/-! A time of day is written with digits and a few signs. -/

theorem not_mem_padded (width n : Nat) : '$' ∉ Calendar.padded width n := by
  intro h
  rcases List.mem_append.mp h with h | h
  · exact absurd (List.eq_of_mem_replicate h) (by decide)
  · exact absurd (Text.isDigit_of_mem_decimal h) (by decide)

theorem not_mem_clock (c : Clock) : '$' ∉ c.chars := by
  have fraction : '$' ∉ (if c.microsecond = 0 then [] else '.' :: Calendar.padded 6 c.microsecond) := by
    split
    · exact List.not_mem_nil
    · simp [not_mem_padded]
  simp [Clock.chars, not_mem_padded, fraction]

theorem not_mem_offset (offset : Int) : '$' ∉ Reading.offsetChars offset := by
  have sign : '$' ≠ (if offset < 0 then '-' else '+') := by
    split
    · decide
    · decide
  have seconds : '$' ∉ (if offset.natAbs % 60 = 0 then []
      else ':' :: Calendar.padded 2 (offset.natAbs % 60)) := by
    split
    · exact List.not_mem_nil
    · simp [not_mem_padded]
  simp [Reading.offsetChars, not_mem_padded, sign, seconds]

theorem not_hasMark_clock (r : Reading) : ¬ HasMark r.text := by
  apply Placeholder.not_hasMark_of_not_mem
  rw [Reading.text, String.toList_ofList, Reading.chars, List.mem_append]
  rintro (h | h)
  · exact not_mem_clock r.clock h
  · cases hr : r.offset with
    | none =>
        rw [hr] at h
        cases h
    | some offset =>
        rw [hr] at h
        exact not_mem_offset offset h

/-- The text that an unmarked value puts into a cell has no opening mark. -/
theorem Unmarked.cellForm {v : Value} (hv : v.Unmarked) {s : String} (h : v.cellForm = .ok (.text s)) :
    ¬ HasMark s := by
  obtain ⟨flag, number, serial, words⟩ := words_of_cellForm h
  have bare (empty : v.words = "") : ¬ HasMark s := by
    rw [← words, empty]
    decide
  cases v with
  | text t => exact words ▸ hv t rfl
  | clock r => exact words ▸ not_hasMark_clock r
  | bool b => exact absurd rfl (flag b)
  | int | float | decimal => cases number
  | date | moment => cases serial
  | null | list | tuple | mapping | other => exact bare rfl

end Value

namespace Bindings

/-! ### What the bindings supply -/

/-- The bindings supply the value. Nothing is supplied for a part that is missing. -/
inductive Supplies (data : Bindings) : Value → Prop
  | bound {name : String} {v : Value} (h : data.lookup name = some v) : Supplies data v
  | field {v u : Value} {name : String} (hv : Supplies data v) (h : data.field? v name = some u) : Supplies data u
  | element {v u : Value} {items : List Value} (hv : Supplies data v) (h : v.items? = some items) (hu : u ∈ items) :
      Supplies data u
  | blank : Supplies data .null

namespace Supplies

variable {data : Bindings} {v u : Value} {key : Option String}

theorem follow : ∀ {path : List String} {v : Value}, data.Supplies v → data.follow path v = some u → data.Supplies u
  | [], v, hv, h => Option.some.inj h ▸ hv
  | name :: path, v, hv, h => by
      obtain ⟨w, hw, h⟩ := Option.bind_eq_some_iff.mp h
      exact (hv.field hw).follow h

theorem project (hv : data.Supplies v) (h : data.project v key = some u) : data.Supplies u := by
  cases key with
  | none => exact Option.some.inj h ▸ hv
  | some key => exact hv.follow h

theorem find? {name : String} (h : data.find? name key = some v) : data.Supplies v := by
  obtain ⟨w, hw, h⟩ := Option.bind_eq_some_iff.mp h
  exact (bound hw).project h

theorem part (hv : data.Supplies v) (key : Option String) : data.Supplies (data.part key v) := by
  unfold Bindings.part
  cases h : data.project v key with
  | none => exact blank
  | some u => exact hv.project h

/-- The parts of the elements of a sequence are supplied. -/
theorem of_mem_parts (hv : data.Supplies v) {items : List Value} (h : v.items? = some items)
    (hu : u ∈ data.parts key items) : data.Supplies u := by
  obtain ⟨e, he, rfl⟩ := List.mem_map.mp hu
  exact (hv.element h he).part key

end Supplies

/-- No text that the bindings supply has an opening mark. -/
def Unmarked (data : Bindings) : Prop := ∀ v, data.Supplies v → v.Unmarked

/-- Values with no marked text at any depth, and attributes that bring no other texts. -/
theorem unmarked_of_texts {data : Bindings} (bound : ∀ b ∈ data.values, ∀ s ∈ b.2.texts, ¬ HasMark s)
    (own : ∀ v name u, data.attribute? v name = some u → u.texts ⊆ v.texts) : data.Unmarked := by
  have texts : ∀ v, data.Supplies v → ∀ s ∈ v.texts, ¬ HasMark s := by
    intro v hv
    induction hv with
    | @bound name v h =>
        obtain ⟨front, back, eq, -⟩ := List.lookup_eq_some_iff.mp h
        exact bound (name, v) (by rw [eq]; simp)
    | @field v u name _ h ih =>
        have sub : u.texts ⊆ v.texts := by
          cases v with
          | mapping entries =>
              rw [Value.texts]
              exact Value.texts_of_lookup h
          | _ => exact own _ name u h
        exact fun s hs => ih s (sub hs)
    | element _ h hu ih => exact fun s hs => ih s (Value.texts_of_items? h hu hs)
    | blank => exact fun s hs => by simp [Value.texts] at hs
  rintro v hv s rfl
  exact texts _ hv s (by rw [Value.texts]; exact List.mem_singleton_self s)

/-- Values without attributes are unmarked when no text at any depth of them is marked. -/
theorem unmarked_ofValues {values : List (String × Value)} (h : ∀ b ∈ values, ∀ s ∈ b.2.texts, ¬ HasMark s) :
    (ofValues values).Unmarked :=
  unmarked_of_texts h fun _ _ _ hu => nomatch hu

end Bindings
end Gridfill

import Gridfill.Proofs.Sheet.Values

/-!
# What a cell displays

A cell displays the text that it shows by its place in the pool, and one without type and content displays a
text without characters. So a cell that shows a text, or nothing, displays the text of that value
(`Shows.displays`). What a cell displays stays while a pass goes on, unless the text is nothing but a placeholder
for a text and some cell of the sheet shows it (`Displays.steps`).
-/

namespace Gridfill

open Markup (Element)
open Relation (TransGen)

namespace Cell

/-- The cell displays the text: it shows it by its place in the pool, or it has neither type nor content and the
text has no characters. -/
def Displays (pool : Pool) (cell : Element) (s : String) : Prop :=
  shownText pool cell = some s ∨ s = "" ∧ cell.attribute? "t" = none ∧ cell.content = []

theorem Displays.of_meaning {pool : Pool} {a b : Element} {s : String} (hm : a.meaning = b.meaning)
    (h : Displays pool b s) : Displays pool a s := by
  rcases h with h | ⟨rfl, blank⟩
  · left
    rw [shownText_eq_of_meaning hm]
    exact h
  · right
    have shows : Shows pool a .null := Shows.of_meaning hm blank
    exact ⟨rfl, shows⟩

theorem Displays.set_ref {pool : Pool} {cell : Element} {s : String} (h : Displays pool cell s) (ref : String) :
    Displays pool (cell.set "r" ref) s := by
  rcases h with h | ⟨rfl, type, content⟩
  · left
    rw [shownText_set_ref]
    exact h
  · right
    refine ⟨rfl, ?_, content⟩
    rw [Element.attribute?_set_ne cell ref (by decide)]
    exact type

/-- A cell displays the text of the value that it shows, when the value goes into a cell as a text. -/
theorem Shows.displays {pool : Pool} {cell : Element} {v : Value} (hv : v.InWords) (h : Shows pool cell v) :
    Displays pool cell v.wording := by
  rcases shows_cases h with ⟨rfl, blank⟩ | ⟨form, -, hform, shows⟩
  · exact .inr ⟨rfl, blank⟩
  · rw [← Except.ok.inj (hv.cellForm.symm.trans hform)] at shows
    exact .inl shows.2

/-! ### While the pool changes -/

section
variable {holds : Nat → Prop} {data : Bindings} {p₀ p q : Pool}

/-- The text stays in the pool: if values resolve it to a text, it does not stand at the places that are replaced. -/
def Stays (holds : Nat → Prop) (data : Bindings) (pool : Pool) (text : String) : Prop :=
  ∀ s, Fills data text s → ∀ k, holds k → pool.get? k ≠ some text

/-- A text that stays goes on to do so: the texts that are put in are not replaced. -/
theorem Stays.steps (plain : data.Plain) (hp : p₀.Sound) (hholds : ∀ k, holds k → k < p₀.size)
    (hs : Pool.Steps holds (Fills data) p₀ p) {text : String} (h : Stays holds data p₀ text) :
    Stays holds data p text := by
  intro s fills k hk hget
  obtain ⟨t₀, ht₀⟩ := Pool.exists_get? (hholds k hk)
  obtain ⟨t, ht, rfl | ⟨-, chain⟩⟩ := hs.drift hp ht₀
  · rw [Option.some.inj (hget.symm.trans ht)] at h fills
    exact h s fills k hk ht₀
  · rw [Option.some.inj (hget.symm.trans ht)] at fills
    have none := Expand.scan_of_fills plain (Expand.fills_of_transGen plain chain)
    obtain ⟨q, hscan, -⟩ := fills
    rw [none] at hscan
    cases hscan

/-- What a cell displays stays while the pass goes on when the text stays in the pool. -/
theorem Displays.steps (hs : Pool.Steps holds (Fills data) p q) (hp : p.Sound) {cell : Element} {text : String}
    (stays : Stays holds data p text) (h : Displays p cell text) : Displays q cell text := by
  rcases h with h | blank
  · left
    rw [shownText_eq] at h ⊢
    obtain ⟨k, hplace, hget⟩ := Option.bind_eq_some_iff.mp h
    obtain ⟨t, ht, rfl | ⟨⟨i, hi, hold⟩, chain⟩⟩ := hs.drift hp hget
    · rw [hplace]
      exact ht
    · obtain ⟨s, fills, -⟩ := TransGen.head'_iff.mp chain
      exact absurd hold (stays s fills i hi)
  · exact .inr blank

/-- What a cell displays stays, or its text is one that a text has taken the place of. -/
theorem Displays.steps_or (plain : data.Plain) (hs : Pool.Steps holds (Fills data) p q) (hp : p.Sound)
    {cell : Element} {text : String} (h : Displays p cell text) :
    Displays q cell text ∨ ∃ s, Fills data text s ∧ shownText q cell = some s := by
  rcases h with h | blank
  · rcases Expand.shownText_of_steps plain hp hs h with h | h
    · exact .inl (.inl h)
    · exact .inr h
  · exact .inl (.inr blank)

end

end Cell
end Gridfill

import Gridfill.Proofs.Sheet.HeaderNames

/-!
# The cells of a header row

A cell that displays the name of a column becomes cells that display the names that the name becomes, whether it is
filled or its text was replaced at another cell before (`displays_of_fillCell`, `displays_of_replaced`). Cells side
by side do so one after the other, and stay side by side (`walkCells_headers`).
-/

namespace Gridfill

open Markup (Element)
open CellRef (numbered)

namespace Header

variable {data : Bindings}

/-- A name that is nothing but a placeholder becomes the texts of its values. -/
theorem newNames_of_values? {name : String} {p : Placeholder} (scan : Placeholder.scan name = [p])
    (whole : p.whole = true) {values : List Value} (hv : p.values? data = some values) :
    newNames data name = values.map Value.wording := by
  have sequence := sequence?_of_scan data scan
  rcases Placeholder.values?_cases hv with ⟨layout, v, found, rfl⟩ | ⟨items, layout, -, rfl⟩
  · rw [layout] at sequence
    have raw : p.raw = name := Placeholder.raw_of_whole (by rw [scan]; exact List.mem_singleton_self p) whole
    rw [newNames_of_none sequence, scan]
    simp only [filledText, found, raw, Text.replaceFirst_self, String.ofList_toList, List.map_singleton]
  · rw [layout] at sequence
    exact newNames_of_sequence? sequence

/-- A name without a placeholder that resolves stays. -/
theorem newNames_of_unresolved {name : String} {p : Placeholder} (scan : Placeholder.scan name = [p])
    (layout : p.layout? data = none) (unbound : data.find? p.name p.key = none) : newNames data name = [name] := by
  have sequence := sequence?_of_scan data scan
  rw [layout] at sequence
  rw [newNames_of_none sequence, scan]
  simp only [filledText, unbound]

end Header

namespace Expand

open Cell (Displays Stays Lasts)
open Header (filledText newNames Worded)

/-! ### One cell -/

/-- The placeholders of a text are overwritten, and one that is not changed stays. -/
theorem filledText_of_fillText {data : Bindings} {ps : List Placeholder} {text : String} {changed : Bool} {work : Work}
    {r : String × Bool × Work} (h : fillText data ps text changed work = .ok r) :
    r.1 = filledText data ps text ∧ (r.2.1 = false → changed = false ∧ r.1 = text) := by
  induction ps generalizing text changed work with
  | nil =>
      rw [← Except.ok.inj h]
      exact ⟨rfl, fun unchanged => ⟨unchanged, rfl⟩⟩
  | cons p ps ih =>
      unfold fillText at h
      unfold filledText
      cases found : data.find? p.name p.key with
      | none =>
          rw [found] at h
          exact ih h
      | some v =>
          rw [found] at h
          obtain ⟨new, hnew, h⟩ := bind_eq_ok_iff.mp h
          obtain rfl := Value.wording_of_toText hnew
          obtain ⟨text, changes⟩ := ih h
          exact ⟨text, fun unchanged => absurd (changes unchanged).1 (by decide)⟩

section
variable {site : Site} {cell : Element} {work : Work} {r : Outcome} {name : String}

/-- A text with placeholders among other text is overwritten. -/
theorem displays_fillParts (hp : work.pool.Sound) (shown : Cell.shownText work.pool cell = some name)
    {ps : List Placeholder} (h : fillParts site cell name ps work = .ok r)
    (writable : r.work.pool.size < Text.integerBound) :
    List.Forall₂ (fun s e => Displays r.work.pool e s) [filledText site.data ps name] r.cells := by
  obtain ⟨⟨s, changed, work'⟩, htext, h⟩ := bind_eq_ok_iff.mp h
  obtain ⟨counted, -⟩ := fillText_spec site.data htext
  obtain ⟨text, changes⟩ := filledText_of_fillText htext
  obtain ⟨_, _, rfl⟩ := counted
  cases changed with
  | true =>
      rw [← Except.ok.inj h] at writable ⊢
      have form := Cell.showsForm_writeForm hp cell (.text s) writable
      rw [← text]
      exact .cons (.inl form.2) .nil
  | false =>
      have unchanged : s = name := (changes rfl).2
      rw [← Except.ok.inj h, ← text]
      exact .cons (.inl (unchanged ▸ shown)) .nil

theorem fillCell_of_parts (shown : Cell.shownText work.pool cell = some name)
    (parts : ∀ p, Placeholder.scan name = [p] → p.whole = false) :
    fillCell site cell work = fillParts site cell name (Placeholder.scan name) work := by
  unfold fillCell
  rw [shown]
  simp only
  cases scan : Placeholder.scan name with
  | nil => rfl
  | cons p ps =>
      cases ps with
      | nil => simp only [parts p scan, Bool.false_eq_true, if_false]
      | cons q qs => rfl

theorem fillCell_of_unresolved (shown : Cell.shownText work.pool cell = some name) {p : Placeholder}
    (scan : Placeholder.scan name = [p]) (whole : p.whole = true) (layout : p.layout? site.data = none)
    (unbound : site.data.find? p.name p.key = none) : fillCell site cell work = .ok ⟨[cell], 0, work.countSkipped⟩ := by
  unfold fillCell
  simp only [shown, scan, whole, if_true]
  unfold fillWhole
  split
  · rfl
  · next v hv =>
    have missing : site.data.project v p.key = none := by
      rwa [Bindings.find?, hv, Option.bind_some] at unbound
    split
    · next items hitems =>
      have kind : (p.isTable || p.isNormal) = false := by
        simpa [Placeholder.layout?, whole, hv, hitems] using layout
      obtain ⟨table, normal⟩ := Bool.or_eq_false_iff.mp kind
      simp only [table, normal, Bool.false_eq_true, if_false, fillWhole.plain, missing]
    · simp only [fillWhole.plain, missing]

/-- Cells that go on to show values that are words display their texts. -/
theorem displays_of_lasts {pool : Pool} {values : List Value} {cells : List Element}
    (writable : pool.size < Text.integerBound) (words : ∀ v ∈ values, v.InWords) (unmarked : ∀ v ∈ values, v.Unmarked)
    (h : List.Forall₂ (fun v e => Lasts pool e v) values cells) :
    List.Forall₂ (fun s e => Displays pool e s) (values.map Value.wording) cells := by
  rw [List.forall₂_map_left_iff]
  have all : ∀ v ∈ values, v.InWords ∧ v.Unmarked := fun v hv => ⟨words v hv, unmarked v hv⟩
  apply ((List.forall₂_and_left values cells).mpr ⟨all, h⟩).imp
  rintro v e ⟨⟨hw, hu⟩, lasts⟩
  exact (lasts hu writable).displays hw

/-- A cell that shows a name with text around its placeholders, or with none of them whole. -/
theorem displays_of_parts (hp : work.pool.Sound) (shown : Cell.shownText work.pool cell = some name)
    (parts : ∀ p, Placeholder.scan name = [p] → p.whole = false) (h : fillCell site cell work = .ok r)
    (writable : r.work.pool.size < Text.integerBound) :
    List.Forall₂ (fun s e => Displays r.work.pool e s) (newNames site.data name) r.cells := by
  have none : Header.sequence? site.data name = none := by
    unfold Header.sequence?
    split
    · next p scan =>
      rw [Placeholder.layout?, parts p scan]
      rfl
    · rfl
  rw [fillCell_of_parts shown parts] at h
  rw [Header.newNames_of_none none]
  exact displays_fillParts hp shown h writable

/-- A cell that shows a name that is nothing but a placeholder. -/
theorem displays_of_whole (hmarks : site.data.Unmarked) (worded : Worded site.data name) (hp : work.pool.Sound)
    {c : Nat} {m : Int} (hc : 1 ≤ c) (hr : cell.attribute? "r" = some (numbered c m).text)
    (shown : Cell.shownText work.pool cell = some name) {p : Placeholder} (scan : Placeholder.scan name = [p])
    (whole : p.whole = true) (h : fillCell site cell work = .ok r) (writable : r.work.pool.size < Text.integerBound) :
    List.Forall₂ (fun s e => Displays r.work.pool e s) (newNames site.data name) r.cells := by
  have mem : p ∈ Placeholder.scan name := by
    rw [scan]
    exact List.mem_singleton_self p
  have table := Header.isTable_of_isNormal (worded.normal p mem)
  cases hv : p.values? site.data with
  | some values =>
      rw [Header.newNames_of_values? scan whole hv]
      have unmarked := fun v hmem => hmarks v (Placeholder.supplies_of_values? hv v hmem)
      apply displays_of_lasts writable (worded.words p mem whole values hv) unmarked
      exact lasts_of_fillCell hp hc hr shown scan whole hv h
  | none =>
      have layout : p.layout? site.data = none := by
        cases hl : p.layout? site.data with
        | none => rfl
        | some items =>
            rw [Placeholder.values?_of_layout? hl table] at hv
            cases hv
      rw [Placeholder.values?_of_layout?_none layout, Option.map_eq_none_iff] at hv
      rw [fillCell_of_unresolved shown scan whole layout hv] at h
      rw [← Except.ok.inj h, Header.newNames_of_unresolved scan layout hv]
      exact .cons (.inl shown) .nil

/-- The cells in the place of a cell that displays the name of a column display the names that the name becomes. -/
theorem displays_of_fillCell (hmarks : site.data.Unmarked) (worded : Worded site.data name) (hp : work.pool.Sound)
    {c : Nat} {m : Int} (hc : 1 ≤ c) (hr : cell.attribute? "r" = some (numbered c m).text)
    (displays : Displays work.pool cell name) (h : fillCell site cell work = .ok r)
    (writable : r.work.pool.size < Text.integerBound) :
    List.Forall₂ (fun s e => Displays r.work.pool e s) (newNames site.data name) r.cells := by
  rcases displays with shown | ⟨rfl, type, content⟩
  · by_cases alone : ∃ p, Placeholder.scan name = [p] ∧ p.whole = true
    · obtain ⟨p, scan, whole⟩ := alone
      exact displays_of_whole hmarks worded hp hc hr shown scan whole h writable
    · apply displays_of_parts hp shown _ h writable
      intro p scan
      rw [← Bool.not_eq_true]
      exact fun whole => alone ⟨p, scan, whole⟩
  · have shown : Cell.shownText work.pool cell = none := by
      unfold Cell.shownText Cell.placeText
      rw [type]
      rfl
    have kept : fillCell site cell work = .ok ⟨[cell], 0, work⟩ := by
      unfold fillCell
      rw [shown]
    rw [← Except.ok.inj (kept.symm.trans h)]
    exact .cons (.inr ⟨rfl, type, content⟩) .nil

/-- A cell whose text was replaced at another cell displays what its name becomes, and filling it leaves it. -/
theorem displays_of_replaced (plain : site.data.Plain) {s : String} (fills : Fills site.data name s)
    (shown : Cell.shownText work.pool cell = some s) (h : fillCell site cell work = .ok r) :
    List.Forall₂ (fun s e => Displays r.work.pool e s) (newNames site.data name) r.cells := by
  rw [fillCell_of_scan_nil shown (scan_of_fills plain fills)] at h
  obtain ⟨p, scan, whole, layout, found⟩ := fills
  have values : p.values? site.data = some [.text s] := by
    rw [Placeholder.values?_of_layout?_none layout, found, Option.map_some]
  rw [← Except.ok.inj h, Header.newNames_of_values? scan whole values]
  exact .cons (.inl shown) .nil

end

/-! ### Cells side by side -/

section
variable {holds : Nat → Prop} {p₀ : Pool} (hp : p₀.Sound) (hholds : ∀ k, holds k → k < p₀.size)
include hp hholds

/-- What cells display goes on to be displayed when the texts stay in the pool, from the start of the pass on. -/
theorem displays_steps {data : Bindings} (plain : data.Plain) {p q : Pool} (before : Pool.Steps holds (Fills data) p₀ p)
    (later : Pool.Steps holds (Fills data) p q) {names : List String} {cells : List Element}
    (stays : ∀ s ∈ names, Stays holds data p₀ s) (h : List.Forall₂ (fun s e => Displays p e s) names cells) :
    List.Forall₂ (fun s e => Displays q e s) names cells := by
  apply ((List.forall₂_and_left names cells).mpr ⟨stays, h⟩).imp
  rintro s e ⟨stay, shows⟩
  exact shows.steps later (before.sound hp) (stay.steps plain hp hholds before)

variable {site : Site}

/-- No cells are inserted for cells that take a single column. -/
theorem inserted_of_narrow (plain : site.data.Plain) {cells : List Element} {last : Nat} {walk walk' : Walk}
    (ready : WalkReady False site last walk) (tags : ∀ cell ∈ cells, cell.tag = Vocabulary.cell)
    (places : ∀ cell ∈ cells, ∀ k, Cell.place? cell = some k → holds k)
    (steps : Pool.Steps holds (Fills site.data) p₀ walk.work.pool)
    (narrow : ∀ cell ∈ cells, cellWidth site.data (Cell.shownText p₀ cell) = 1)
    (h : walkCells site cells walk = .ok walk') : walk'.inserted = walk.inserted := by
  induction cells generalizing last walk with
  | nil => rw [← Except.ok.inj h]
  | cons cell cells ih =>
      obtain ⟨next, hnext, h⟩ := bind_eq_ok_iff.mp h
      rw [List.forall_mem_cons] at tags places narrow
      obtain ⟨c, r, ⟨-, -, -, done, width, next⟩, rfl⟩ := exists_cellStep ready tags.1 places.1 False.elim hnext
      obtain ⟨same, -⟩ := width_of_steps plain hp steps fun k hk => hholds k (places.1 k hk)
      rw [same, narrow.1] at width
      have rest := ih next tags.2 places.2 (steps.trans done.follows.pool) narrow.2 h
      rw [Walk.filled_inserted] at rest
      omega

/-- Cells side by side that display names become cells side by side that display the names that these become. -/
theorem walkCells_headers (hmarks : site.data.Unmarked) {headers : List Element} {names : List String}
    {first last : Nat} {walk walk' : Walk} (ready : WalkReady False site last walk)
    (tags : ∀ cell ∈ headers, cell.tag = Vocabulary.cell)
    (places : ∀ cell ∈ headers, ∀ k, Cell.place? cell = some k → holds k)
    (steps : Pool.Steps holds (Fills site.data) p₀ walk.work.pool)
    (hcolumns : effectiveColumns last headers = .ok (List.range' first headers.length))
    (worded : ∀ name ∈ names, Worded site.data name)
    (stays : ∀ s ∈ names.flatMap (newNames site.data), Stays holds site.data p₀ s)
    (displays : List.Forall₂ (fun s e => Displays p₀ e s) names headers)
    (h : walkCells site headers walk = .ok walk') (writable : walk'.work.pool.size < Text.integerBound) :
    ∃ added, walk'.cells = walk.cells ++ added ∧
      StandAt site.number (List.range' (first + walk.inserted) added.length) added ∧
      List.Forall₂ (fun s e => Displays walk'.work.pool e s) (names.flatMap (newNames site.data)) added := by
  induction displays generalizing first last walk with
  | nil =>
      rw [← Except.ok.inj h]
      exact ⟨[], (List.append_nil _).symm, rfl, .nil⟩
  | @cons name header names headers shows _ ih =>
      obtain ⟨next, hnext, h⟩ := bind_eq_ok_iff.mp h
      rw [List.forall_mem_cons] at tags places worded
      rw [List.flatMap_cons, List.forall_mem_append] at stays
      obtain ⟨c, r, ⟨hc, start, hfill, done, -, next⟩, rfl⟩ := exists_cellStep ready tags.1 places.1 False.elim hnext
      obtain ⟨c', cs, hc', hcs, hcolumns⟩ := exists_of_effectiveColumns_cons hcolumns
      obtain rfl : c = c' := Except.ok.inj (hc.symm.trans hc')
      obtain ⟨rfl, rfl⟩ := List.cons.inj hcolumns.symm
      have filled := steps.trans done.follows.pool
      obtain ⟨-, later, -⟩ := walkCells_goes holds next tags.2 places.2 h
      have writable' := Nat.lt_of_le_of_lt later.pool.size_le writable
      have here : List.Forall₂ (fun s e => Displays r.work.pool e s) (newNames site.data name) r.cells := by
        rcases shows.steps_or hmarks.plain steps hp with shows | ⟨s, fills, shown⟩
        · exact displays_of_fillCell hmarks worded.1 ready.sound start.pos start.ref (shows.set_ref _) hfill writable'
        · exact displays_of_replaced hmarks.plain fills ((Cell.shownText_set_ref _ _ _).trans shown) hfill
      have here' := displays_steps hp hholds hmarks.plain filled later.pool stays.1 here
      obtain ⟨added, hcells, stand, others⟩ := ih next tags.2 places.2 filled hcs worded.2 stays.2 h
      refine ⟨r.cells ++ added, hcells.trans (List.append_assoc _ _ _), ?_, ?_⟩
      · have behind : c + 1 + (walk.inserted + r.inserted) = c + walk.inserted + r.cells.length := by
          have := done.lies.length
          omega
        rw [Walk.filled_inserted, behind] at stand
        rw [List.length_append, ← List.range'_append_1]
        exact done.lies.stand.append stand
      · rw [List.flatMap_cons]
        exact List.rel_append here' others

end

end Expand
end Gridfill

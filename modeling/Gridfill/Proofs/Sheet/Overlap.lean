import Gridfill.Proofs.Sheet.Insertions
import Mathlib.Data.List.Pairwise

/-!
# Merged ranges that overlap

The copies of a merged range are each one row lower than the one before. A range of one row gets copies that
share no cell with it or with any other range (`mergesApart_shifted`); a range of several rows overlaps its
own first copy, and nothing that is inserted later parts the two again (`stacked_shifted`). So whether the
ranges of a sheet stay apart is decided by where the ranges of several rows begin (`mergesApart_grown_iff`).
-/

namespace Gridfill

open Markup (Element)
open Reference (lettersNumber)

/-! ### Cells of ranges -/

namespace Extent

/-- The range has the cell. Its two corners may be any two that lie across from each other. -/
def Contains (e : Extent) (column : Nat) (row : Int) : Prop :=
  (min (lettersNumber e.left.toList) (lettersNumber e.right.toList) ≤ column ∧
      column ≤ max (lettersNumber e.left.toList) (lettersNumber e.right.toList)) ∧
    min e.top e.bottom ≤ row ∧ row ≤ max e.top e.bottom

instance (e : Extent) (column : Nat) (row : Int) : Decidable (e.Contains column row) :=
  inferInstanceAs (Decidable ((_ ∧ _) ∧ _ ∧ _))

/-- No cell lies in both ranges. -/
def Apart (a b : Extent) : Prop := ∀ column row, ¬ (a.Contains column row ∧ b.Contains column row)

/-- The columns of two ranges have none in common. -/
def ColumnsApart (a b : Extent) : Prop :=
  max (lettersNumber a.left.toList) (lettersNumber a.right.toList) <
      min (lettersNumber b.left.toList) (lettersNumber b.right.toList) ∨
    max (lettersNumber b.left.toList) (lettersNumber b.right.toList) <
      min (lettersNumber a.left.toList) (lettersNumber a.right.toList)

/-- The rows of two ranges have none in common. -/
def RowsApart (a b : Extent) : Prop := max a.top a.bottom < min b.top b.bottom ∨ max b.top b.bottom < min a.top a.bottom

instance (a b : Extent) : Decidable (a.ColumnsApart b) := inferInstanceAs (Decidable (_ ∨ _))

instance (a b : Extent) : Decidable (a.RowsApart b) := inferInstanceAs (Decidable (_ ∨ _))

theorem apart_iff {a b : Extent} : a.Apart b ↔ a.ColumnsApart b ∨ a.RowsApart b := by
  unfold ColumnsApart RowsApart
  constructor
  · intro h
    -- the cell furthest to the lower right of the two upper left corners is in both, if any is
    have := h (max (min (lettersNumber a.left.toList) (lettersNumber a.right.toList))
        (min (lettersNumber b.left.toList) (lettersNumber b.right.toList)))
      (max (min a.top a.bottom) (min b.top b.bottom))
    unfold Contains at this
    omega
  · intro h column row both
    unfold Contains at both
    omega

instance (a b : Extent) : Decidable (a.Apart b) := decidable_of_iff' _ apart_iff

@[simp]
theorem top_down (e : Extent) (k : Int) : (e.down k).top = e.top + k := rfl

@[simp]
theorem bottom_down (e : Extent) (k : Int) : (e.down k).bottom = e.bottom + k := rfl

@[simp]
theorem left_down (e : Extent) (k : Int) : (e.down k).left = e.left := rfl

@[simp]
theorem right_down (e : Extent) (k : Int) : (e.down k).right = e.right := rfl

@[simp]
theorem top_shift (number count : Int) (e : Extent) : (e.shift number count).top = below number count e.top := by
  unfold shift below
  split <;> rfl

@[simp]
theorem bottom_shift (number count : Int) (e : Extent) :
    (e.shift number count).bottom = if number < e.top then e.bottom + count else e.bottom := by
  unfold shift
  split <;> rfl

theorem Apart.symm {a b : Extent} (h : a.Apart b) : b.Apart a := by
  intro column row both
  apply h column row
  exact ⟨both.2, both.1⟩

/-! ### One shift of two ranges -/

section
variable {number : Int} {count : Nat} {a b : Extent}

/-- Moving a range does not change its columns. -/
theorem columnsApart_shift : (a.shift number count).ColumnsApart (b.shift number count) ↔ a.ColumnsApart b := by
  unfold shift
  split <;> split <;> rfl

/-- What is below the row moves away from what begins on it or above. -/
theorem apart_shift (h : a.Apart b) : (a.shift number count).Apart (b.shift number count) := by
  rw [apart_iff] at h ⊢
  rw [columnsApart_shift]
  rcases h with h | h
  · exact .inl h
  · apply Or.inr
    unfold RowsApart at h ⊢
    simp only [top_shift, bottom_shift, below]
    split <;> split <;> omega

section
variable (htop : a.top = number) (hlevel : a.bottom = a.top) {i : Nat}
include htop hlevel

/-- The rows for the copies of a range of one row are free: all other ranges are above or have moved. -/
theorem apart_copy (hi : i < count) (h : a.Apart b) : (a.down ((i : Int) + 1)).Apart (b.shift number count) := by
  rw [apart_iff] at h ⊢
  rcases h with h | h
  · apply Or.inl
    unfold shift
    split <;> exact h
  · apply Or.inr
    unfold RowsApart at h ⊢
    simp only [top_shift, bottom_shift, top_down, bottom_down, below]
    split <;> omega

theorem apart_copy_self : (a.down ((i : Int) + 1)).Apart (a.shift number count) := by
  apply apart_iff.mpr
  apply Or.inr
  unfold RowsApart
  simp only [top_shift, bottom_shift, top_down, bottom_down, below]
  split <;> omega

theorem apart_copies_self {j : Nat} (hij : i < j) : (a.down ((i : Int) + 1)).Apart (a.down ((j : Int) + 1)) := by
  apply apart_iff.mpr
  apply Or.inr
  unfold RowsApart
  simp only [top_down, bottom_down]
  omega

/-- Two ranges on the same row have no column in common, and neither have their copies. -/
theorem apart_copies (htop' : b.top = number) {j : Nat} (h : a.Apart b) :
    (a.down ((i : Int) + 1)).Apart (b.down ((j : Int) + 1)) := by
  rw [apart_iff] at h ⊢
  rcases h with h | h
  · exact .inl h
  · unfold RowsApart at h
    omega

end

/-- A range of several rows overlaps the range one row lower. -/
theorem not_apart_down_one (tall : a.bottom ≠ a.top) : ¬ a.Apart (a.down 1) := by
  rw [apart_iff]
  unfold ColumnsApart RowsApart
  simp only [top_down, bottom_down, left_down, right_down]
  omega

end

end Extent

/-! ### One shift of the merged ranges -/

/-- All merged ranges are known, and no two of them share a cell. -/
structure MergesApart (ms : List (Option Extent)) : Prop where
  known : ∀ m ∈ ms, m.isSome = true
  apart : ms.Pairwise fun a b => ∀ x ∈ a, ∀ y ∈ b, x.Apart y

instance (ms : List (Option Extent)) : Decidable (MergesApart ms) :=
  decidable_of_iff
    ((∀ m ∈ ms, m.isSome = true) ∧ ms.Pairwise fun a b => ∀ x ∈ a, ∀ y ∈ b, x.Apart y)
    ⟨fun h => ⟨h.1, h.2⟩, fun h => ⟨h.known, h.apart⟩⟩

/-- Every merged range that begins on the row is one row high. -/
def LevelAt (number : Int) (ms : List (Option Extent)) : Prop :=
  ∀ e, some e ∈ ms → e.top = number → e.bottom = e.top

theorem mem_copies {number : Int} {count : Nat} {e x : Extent} (h : some x ∈ e.copies number count) :
    e.top = number ∧ ∃ i < count, x = e.down ((i : Int) + 1) := by
  unfold Extent.copies at h
  split at h
  · next htop =>
    obtain ⟨i, hi, e⟩ := List.mem_map.mp h
    exact ⟨htop, i, List.mem_range.mp hi, (Option.some.inj e).symm⟩
  · cases h

theorem mem_shifted_iff {number : Int} {count : Nat} {ms : List (Option Extent)} {x : Extent} :
    some x ∈ shifted number count ms ↔
      ∃ e, some e ∈ ms ∧ (x = e.shift number count ∨ some x ∈ e.copies number count) := by
  unfold shifted
  rw [List.mem_append, List.mem_map, List.mem_flatMap]
  constructor
  · rintro (⟨m, hm, hx⟩ | ⟨m, hm, hx⟩)
    · obtain ⟨e, rfl, rfl⟩ := Option.map_eq_some_iff.mp hx
      exact ⟨e, hm, .inl rfl⟩
    · cases m with
      | none => cases hx
      | some e => exact ⟨e, hm, .inr hx⟩
  · rintro ⟨e, he, rfl | hx⟩
    · exact .inl ⟨some e, he, rfl⟩
    · exact .inr ⟨some e, he, hx⟩

section
variable {number : Int} {count : Nat} {ms : List (Option Extent)}

/-- Two merged ranges at different places are apart, whichever comes first. -/
theorem MergesApart.of_mem (h : MergesApart ms) {a b : Extent} (ha : some a ∈ ms) (hb : some b ∈ ms) (hab : a ≠ b) :
    a.Apart b := by
  have symmetric : Std.Symm fun a b : Option Extent => ∀ x ∈ a, ∀ y ∈ b, x.Apart y :=
    ⟨fun _ _ h y hy x hx => (h x hx y hy).symm⟩
  exact h.apart.forall ha hb (fun e => hab (Option.some.inj e)) a rfl b rfl

theorem copies_pairwise {e : Extent} (hlevel : e.top = number → e.bottom = e.top) :
    (e.copies number count).Pairwise fun a b => ∀ x ∈ a, ∀ y ∈ b, x.Apart y := by
  unfold Extent.copies
  split
  · next htop =>
    apply List.pairwise_map.mpr
    apply List.pairwise_lt_range.imp
    rintro i j hij x hx y hy
    obtain rfl := Option.some.inj hx
    obtain rfl := Option.some.inj hy
    exact Extent.apart_copies_self htop (hlevel htop) hij
  · exact .nil

/-- Merged ranges that are apart stay apart when rows are inserted behind a row on which only ranges of one
row begin. -/
theorem mergesApart_shifted (h : MergesApart ms) (hlevel : LevelAt number ms) :
    MergesApart (shifted number count ms) := by
  refine ⟨isSome_of_mem_shifted h.known, ?_⟩
  unfold shifted
  apply List.pairwise_append.mpr
  refine ⟨?_, ?_, ?_⟩
  -- the ranges at their places
  · apply List.pairwise_map.mpr
    apply h.apart.imp
    intro a b hab x hx y hy
    obtain ⟨c, hc, rfl⟩ := Option.map_eq_some_iff.mp hx
    obtain ⟨d, hd, rfl⟩ := Option.map_eq_some_iff.mp hy
    exact Extent.apart_shift (hab c hc d hd)
  -- the copies, of one range and of two
  · apply List.pairwise_flatMap.mpr
    constructor
    · intro m hm
      cases m with
      | none => exact .nil
      | some e => exact copies_pairwise (hlevel e hm)
    · apply List.Pairwise.imp_of_mem _ h.apart
      intro m n hm hn hmn a ha b hb x hx y hy
      obtain rfl := hx
      obtain rfl := hy
      cases m with
      | none => cases ha
      | some e =>
          cases n with
          | none => cases hb
          | some f =>
              obtain ⟨htop, i, -, rfl⟩ := mem_copies ha
              obtain ⟨htop', j, -, rfl⟩ := mem_copies hb
              exact Extent.apart_copies htop (hlevel e hm htop) htop' (hmn e rfl f rfl)
  -- a range and a copy
  · intro a ha b hb x hx y hy
    obtain rfl := hx
    obtain rfl := hy
    obtain ⟨m, hm, hx⟩ := List.mem_map.mp ha
    obtain ⟨f, rfl, rfl⟩ := Option.map_eq_some_iff.mp hx
    obtain ⟨n, hn, hy⟩ := List.mem_flatMap.mp hb
    cases n with
    | none => cases hy
    | some e =>
        obtain ⟨htop, i, hi, rfl⟩ := mem_copies hy
        apply Extent.Apart.symm
        by_cases hef : e = f
        · subst hef
          exact Extent.apart_copy_self htop (hlevel e hn htop)
        · exact Extent.apart_copy htop (hlevel e hn htop) hi (h.of_mem hn hm hef)

/-! ### Ranges that overlap for good -/

/-- A range of several rows is merged as well as the range one row lower. -/
def Stacked (ms : List (Option Extent)) : Prop :=
  ∃ e : Extent, e.bottom ≠ e.top ∧ some e ∈ ms ∧ some (e.down 1) ∈ ms

theorem Stacked.not_mergesApart (h : Stacked ms) : ¬ MergesApart ms := by
  intro apart
  obtain ⟨e, tall, he, hlow⟩ := h
  apply Extent.not_apart_down_one tall
  apply apart.of_mem he hlow
  intro same
  have := congrArg Extent.top same
  rw [Extent.top_down] at this
  omega

/-- The first copy of a range of several rows is one row lower than the range, which stays. -/
theorem stacked_of_copied {e : Extent} (he : some e ∈ ms) (htop : e.top = number) (tall : e.bottom ≠ e.top)
    (hcount : 0 < count) : Stacked (shifted number count ms) := by
  refine ⟨e, tall, mem_shifted_iff.mpr ⟨e, he, .inl ?_⟩, mem_shifted_iff.mpr ⟨e, he, .inr ?_⟩⟩
  · unfold Extent.shift
    rw [if_neg (by omega)]
  · unfold Extent.copies
    rw [if_pos htop]
    exact List.mem_map.mpr ⟨0, List.mem_range.mpr hcount, rfl⟩

/-- Ranges that are stacked are so after every shift: both move, or the upper one gets a copy in the place
that the lower one leaves, or both stay. -/
theorem stacked_shifted (h : Stacked ms) : Stacked (shifted number count ms) := by
  obtain ⟨e, tall, he, hlow⟩ := h
  rcases Nat.eq_zero_or_pos count with rfl | hcount
  · rw [shifted_zero]
    exact ⟨e, tall, he, hlow⟩
  rcases Int.lt_trichotomy number e.top with hlt | heq | hgt
  · refine ⟨e.down count, ?_, mem_shifted_iff.mpr ⟨e, he, .inl ?_⟩, mem_shifted_iff.mpr ⟨e.down 1, hlow, .inl ?_⟩⟩
    · rw [Extent.top_down, Extent.bottom_down]
      omega
    · unfold Extent.shift
      rw [if_pos hlt]
    · unfold Extent.shift
      have low : number < (e.down 1).top := by
        rw [Extent.top_down]
        omega
      rw [if_pos low, Extent.down_down, Extent.down_down, Int.add_comm]
  · exact stacked_of_copied he heq.symm tall hcount
  · refine ⟨e, tall, mem_shifted_iff.mpr ⟨e, he, .inl ?_⟩, mem_shifted_iff.mpr ⟨e.down 1, hlow, .inl ?_⟩⟩
    · unfold Extent.shift
      rw [if_neg (by omega)]
    · unfold Extent.shift
      have low : ¬ number < (e.down 1).top := by
        rw [Extent.top_down]
        omega
      rw [if_neg low]

end

/-! ### Several shifts -/

/-- The merged ranges after rows were inserted behind one row after the other, each given by its number at
that time. -/
def grown : List Growth → List (Option Extent) → List (Option Extent)
  | [], ms => ms
  | g :: gs, ms => grown gs (shifted g.number g.count ms)

/-- Whenever rows are inserted behind a row, only merged ranges of one row begin on it. -/
def LevelAlong : List Growth → List (Option Extent) → Prop
  | [], _ => True
  | g :: gs, ms => (0 < g.count → LevelAt g.number ms) ∧ LevelAlong gs (shifted g.number g.count ms)

theorem stacked_grown {gs : List Growth} {ms : List (Option Extent)} (h : Stacked ms) : Stacked (grown gs ms) := by
  induction gs generalizing ms with
  | nil => exact h
  | cons g gs ih =>
      unfold grown
      apply ih
      exact stacked_shifted h

/-- Merged ranges that are apart stay so exactly when no range of several rows is ever copied. -/
theorem mergesApart_grown_iff {gs : List Growth} {ms : List (Option Extent)} (h : MergesApart ms) :
    MergesApart (grown gs ms) ↔ LevelAlong gs ms := by
  induction gs generalizing ms with
  | nil => exact ⟨fun _ => trivial, fun _ => h⟩
  | cons g gs ih =>
      unfold grown LevelAlong
      by_cases hlevel : 0 < g.count → LevelAt g.number ms
      · have next : MergesApart (shifted g.number g.count ms) := by
          rcases Nat.eq_zero_or_pos g.count with hz | hpos
          · rw [hz, shifted_zero]
            exact h
          · exact mergesApart_shifted h (hlevel hpos)
        rw [ih next]
        exact ⟨fun later => ⟨hlevel, later⟩, fun both => both.2⟩
      · -- a range of several rows begins on the row: it is copied, and nothing parts it from its copy
        have hlevel' := hlevel
        unfold LevelAt at hlevel'
        push Not at hlevel'
        obtain ⟨hcount, e, he, htop, tall⟩ := hlevel'
        have stacked : Stacked (grown gs (shifted g.number g.count ms)) :=
          stacked_grown (stacked_of_copied he htop tall hcount)
        constructor
        · intro apart
          exact absurd apart stacked.not_mergesApart
        · intro both
          exact absurd both.1 hlevel

/-! ### Rows in order -/

/-- A range that begins on the next row to grow, at its present place, is one that began on it from the
start. -/
theorem levelAt_settled_iff {gs : List Growth} {g : Growth} (hg : ∀ x ∈ gs, x.number < g.number)
    {ms : List (Option Extent)} : LevelAt (g.number + insertedTotal gs) (settled gs ms) ↔ LevelAt g.number ms := by
  have height (e : Extent) : (e.settle gs).bottom = (e.settle gs).top ↔ e.bottom = e.top := by
    unfold Extent.settle
    rw [Extent.top_down, Extent.bottom_down]
    omega
  have place (e : Extent) : (e.settle gs).top = g.number + insertedTotal gs ↔ e.top = g.number := moved_eq_iff hg
  unfold LevelAt
  constructor
  · intro h e he htop
    apply (height e).mp
    apply h
    · exact List.mem_append_left _ (List.mem_map.mpr ⟨some e, he, rfl⟩)
    · exact (place e).mpr htop
  · intro h x hx htop
    rcases List.mem_append.mp hx with hx | hx
    · obtain ⟨m, hm, hx⟩ := List.mem_map.mp hx
      obtain ⟨e, rfl, rfl⟩ := Option.map_eq_some_iff.mp hx
      exact (height e).mpr (h e hm ((place e).mp htop))
    · -- the copies made for the rows above do not reach down to this row
      obtain ⟨y, hy, hx⟩ := List.mem_flatMap.mp hx
      obtain ⟨m, hm, hx⟩ := List.mem_flatMap.mp hx
      cases m with
      | none => cases hx
      | some e =>
          obtain ⟨c, hc, above⟩ := replica_above hg hy hx
          obtain rfl := Option.some.inj hc
          omega

/-- When the rows grow from the top downwards, what is copied is what begins on a row that grows from the
start. -/
theorem levelAlong_moved_iff {later gs : List Growth} (ms : List (Option Extent))
    (h : (gs ++ later).Pairwise (·.number < ·.number)) :
    LevelAlong (later.map fun g => ⟨moved (gs ++ later) g.number, g.count⟩) (settled gs ms) ↔
      ∀ g ∈ later, 0 < g.count → LevelAt g.number ms := by
  induction later generalizing gs with
  | nil =>
      constructor
      · intro _ g hg
        cases hg
      · intro _
        trivial
  | cons g later ih =>
      have above : ∀ x ∈ gs, x.number < g.number := fun x hx =>
        (List.pairwise_append.mp h).2.2 x hx g List.mem_cons_self
      have split : gs ++ g :: later = gs ++ [g] ++ later := by
        rw [List.append_assoc, List.singleton_append]
      rw [List.map_cons, moved_number_of_pairwise h, split]
      unfold LevelAlong
      simp only
      rw [levelAt_settled_iff above, shifted_settled above, ih (split ▸ h), List.forall_mem_cons]

/-! ### The rows of a pass -/

theorem eq_grown_of_chain {gs : List Growth} {ms ms' : List (Option Extent)}
    (h : Chain (fun g x y => y = shifted g.number g.count x) gs ms ms') : ms' = grown gs ms := by
  induction h with
  | nil _ => rfl
  | cons first _ ih =>
      rw [ih, first]
      rfl

/-- The merged ranges after a pass. -/
theorem Expand.merges_of_run {sheet : Sheet} {workbook : Element} {pool : Pool} {data : Bindings} {filled : Filled}
    (h : run sheet workbook pool data = .ok filled) :
    ∃ gs, Insertions (blocks sheet workbook pool data) gs ∧
      merges filled.sheet.root = grown gs (merges sheet.root) := by
  have other (root root' _ : Element)
      (same : ∀ tag, tag ≠ Vocabulary.sheetData → root'.childrenWith tag = root.childrenWith tag) :
      merges root' = merges root := by
    rw [merges_eq, merges_eq, Element.child?_eq_head?, Element.child?_eq_head?, same _ (by decide)]
  obtain ⟨gs, insertions, chain⟩ := chain_of_run (R := fun g x y => y = shifted g.number g.count x)
    (fun root _ => merges root) (fun _ _ _ _ hpush => (pushDown_spec hpush).1) other h
  exact ⟨gs, insertions, eq_grown_of_chain chain⟩

end Gridfill

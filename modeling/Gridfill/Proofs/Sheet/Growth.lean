import Mathlib.Algebra.GroupWithZero.Nat

/-!
# Rows inserted above a row

When rows are inserted behind some rows of a sheet, from the top downwards, a row ends as many rows lower
as were inserted behind the rows above it (`insertedAbove`). The rows are inserted behind one row after the
other, and each time the numbers are those of the moment; `below_moved` says that this comes to the same.
-/

namespace Gridfill

/-- A row and how many rows are inserted behind it. -/
structure Growth where
  number : Int
  count : Nat
deriving DecidableEq, Repr

/-- The number of rows inserted behind rows above the row `a`. -/
def insertedAbove (gs : List Growth) (a : Int) : Nat :=
  (gs.map fun g => if g.number < a then g.count else 0).sum

/-- The number of rows inserted. -/
def insertedTotal (gs : List Growth) : Nat := (gs.map (·.count)).sum

/-- Where the row `a` ends. -/
def moved (gs : List Growth) (a : Int) : Int := a + insertedAbove gs a

/-- Where the row `a` is after `count` rows were inserted behind the row of the given number. -/
def below (number count : Int) (a : Int) : Int := if number < a then a + count else a

section
variable {gs : List Growth} {g : Growth} {a : Int}

theorem insertedAbove_append (gs hs : List Growth) (a : Int) :
    insertedAbove (gs ++ hs) a = insertedAbove gs a + insertedAbove hs a := by
  rw [insertedAbove, List.map_append, List.sum_append]
  rfl

theorem insertedTotal_append (gs hs : List Growth) :
    insertedTotal (gs ++ hs) = insertedTotal gs + insertedTotal hs := by
  rw [insertedTotal, List.map_append, List.sum_append]
  rfl

theorem insertedAbove_singleton (g : Growth) (a : Int) :
    insertedAbove [g] a = if g.number < a then g.count else 0 := by
  simp [insertedAbove]

theorem insertedAbove_le_total : ∀ (gs : List Growth) (a : Int), insertedAbove gs a ≤ insertedTotal gs
  | [], _ => Nat.le_refl 0
  | g :: gs, a => by
      have ih := insertedAbove_le_total gs a
      have head : (if g.number < a then g.count else 0) ≤ g.count := by split <;> omega
      exact Nat.add_le_add head ih

/-- All rows are inserted above a row that is below all rows that grow. -/
theorem insertedAbove_eq_total : ∀ {gs : List Growth} {a : Int}, (∀ g ∈ gs, g.number < a) →
    insertedAbove gs a = insertedTotal gs
  | [], _, _ => rfl
  | g :: gs, a, h => by
      have ih := insertedAbove_eq_total fun x hx => h x (List.mem_cons_of_mem g hx)
      have head := h g List.mem_cons_self
      simp only [insertedAbove, insertedTotal, List.map_cons, List.sum_cons, if_pos head] at ih ⊢
      rw [ih]

/-- Nothing is inserted above a row that is above all rows that grow. -/
theorem insertedAbove_eq_zero : ∀ {gs : List Growth} {a : Int}, (∀ g ∈ gs, a ≤ g.number) →
    insertedAbove gs a = 0
  | [], _, _ => rfl
  | g :: gs, a, h => by
      have ih := insertedAbove_eq_zero fun x hx => h x (List.mem_cons_of_mem g hx)
      have head := h g List.mem_cons_self
      simp only [insertedAbove, List.map_cons, List.sum_cons, if_neg (Int.not_lt.mpr head)] at ih ⊢
      rw [ih]

/-- The rows inserted behind a row are not all the rows inserted unless it is the last. -/
theorem insertedAbove_add_count_le : ∀ {gs : List Growth}, g ∈ gs →
    insertedAbove gs g.number + g.count ≤ insertedTotal gs
  | h :: hs, hg => by
      rcases List.mem_cons.mp hg with rfl | hg
      · have := insertedAbove_le_total hs g.number
        simp only [insertedAbove, insertedTotal, List.map_cons, List.sum_cons, Int.lt_irrefl, if_false] at this ⊢
        omega
      · have ih := insertedAbove_add_count_le hg
        have head : (if h.number < g.number then h.count else 0) ≤ h.count := by split <;> omega
        simp only [insertedAbove, insertedTotal, List.map_cons, List.sum_cons] at ih ⊢
        omega

/-- A row is not moved by what is inserted behind it or further down. -/
theorem moved_append_of_le (h : a ≤ g.number) : moved (gs ++ [g]) a = moved gs a := by
  rw [moved, moved, insertedAbove_append, insertedAbove_singleton, if_neg (Int.not_lt.mpr h), Nat.add_zero]

/-- Above a row that is further down there are at least as many rows inserted, and those behind the rows between. -/
theorem insertedAbove_mono : ∀ (gs : List Growth) {a b : Int}, a ≤ b → insertedAbove gs a ≤ insertedAbove gs b
  | [], _, _, _ => Nat.le_refl 0
  | g :: gs, a, b, h => by
      have ih := insertedAbove_mono gs h
      have head : (if g.number < a then g.count else 0) ≤ if g.number < b then g.count else 0 := by
        split <;> split <;> omega
      exact Nat.add_le_add head ih

theorem insertedAbove_add_count_le_of_lt : ∀ {gs : List Growth} {a : Int}, g ∈ gs → g.number < a →
    insertedAbove gs g.number + g.count ≤ insertedAbove gs a
  | h :: hs, a, hg, hlt => by
      rcases List.mem_cons.mp hg with rfl | hg
      · have := insertedAbove_mono hs (Int.le_of_lt hlt)
        simp only [insertedAbove, List.map_cons, List.sum_cons, Int.lt_irrefl, if_false, if_pos hlt] at this ⊢
        omega
      · have ih := insertedAbove_add_count_le_of_lt hg hlt
        have head : (if h.number < g.number then h.count else 0) ≤ if h.number < a then h.count else 0 := by
          split <;> split <;> omega
        simp only [insertedAbove, List.map_cons, List.sum_cons] at ih ⊢
        omega

/-- When the rows grow from the top downwards, the next one is as many rows lower as were inserted so far. -/
theorem moved_number_of_pairwise {later : List Growth} (h : (gs ++ g :: later).Pairwise (·.number < ·.number)) :
    moved (gs ++ g :: later) g.number = g.number + insertedTotal gs := by
  obtain ⟨-, behind, across⟩ := List.pairwise_append.mp h
  have above : ∀ x ∈ gs, x.number < g.number := fun x hx => across x hx g List.mem_cons_self
  have below : ∀ x ∈ g :: later, g.number ≤ x.number := by
    intro x hx
    rcases List.mem_cons.mp hx with rfl | hx
    · exact Int.le_refl _
    · exact Int.le_of_lt ((List.pairwise_cons.mp behind).1 x hx)
  unfold moved
  rw [insertedAbove_append, insertedAbove_eq_total above, insertedAbove_eq_zero below, Nat.add_zero]

section
variable (hg : ∀ x ∈ gs, x.number < g.number)
include hg

/-- The next row that grows is above a row at its present place exactly when it was above it from the
start. -/
theorem lt_moved_iff : g.number + insertedTotal gs < moved gs a ↔ g.number < a := by
  unfold moved
  have hle := insertedAbove_le_total gs a
  by_cases h : g.number < a
  · have := insertedAbove_eq_total fun x hx => Int.lt_trans (hg x hx) h
    constructor <;> omega
  · constructor <;> omega

/-- The next row that grows is at the present place of a row exactly when it is that row. -/
theorem moved_eq_iff : moved gs a = g.number + insertedTotal gs ↔ a = g.number := by
  unfold moved
  have hle := insertedAbove_le_total gs a
  constructor
  · intro h
    by_cases hlt : g.number < a
    · have := insertedAbove_eq_total fun x hx => Int.lt_trans (hg x hx) hlt
      omega
    · omega
  · rintro rfl
    have := insertedAbove_eq_total hg
    omega

/-- Moving a row on when the next row grows is moving it by all rows so far. -/
theorem below_moved (a : Int) :
    below (g.number + insertedTotal gs) g.count (moved gs a) = moved (gs ++ [g]) a := by
  unfold below
  simp only [lt_moved_iff hg]
  rw [moved, moved, insertedAbove_append, insertedAbove_singleton]
  split <;> omega

end

end

end Gridfill

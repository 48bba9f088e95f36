import Gridfill.Proofs.Sheet.Rows

/-!
# What a pass does to the tables

A pass changes tables in two ways: a table gets one more row for a record below a cell that it covers, and it moves
down with the rows below a row that grew. A relation that both keep, and that any number of changes keep when each
does, holds between the tables before the pass and those after it (`Kept.run`).
-/

namespace Gridfill

open Markup (Element Scope)

namespace Table

/-- The relation holds of the changes that a pass makes to a table, one or many. -/
structure Kept (R : Table → Table → Prop) : Prop where
  refl (t : Table) : R t t
  trans {a b c : Table} : R a b → R b c → R a c
  grow {cell : String} {t t' : Table} : Shift.growTable cell t = .ok t' → R t t'
  shift {number : Int} {count : Nat} {t t' : Table} : Shift.shiftTable number count t = .ok t' → R t t'

namespace Kept

variable {R : Table → Table → Prop} (kept : Kept R)
include kept

theorem all_refl (ts : List Table) : List.Forall₂ R ts ts := List.forall₂_same.mpr fun t _ => kept.refl t

theorem all_trans {as bs cs : List Table} (h : List.Forall₂ R as bs) (h' : List.Forall₂ R bs cs) :
    List.Forall₂ R as cs :=
  forall₂_comp (fun (a b c : Table) (hab : R a b) (hbc : R b c) => kept.trans hab hbc) h h'

/-- Growing some of the tables leaves the others as they are. -/
theorem growTables {cell : String} {chosen : List Bool} {ts ts' : List Table} (length : chosen.length = ts.length)
    (h : Shift.growTables chosen cell ts = .ok ts') : List.Forall₂ R ts ts' := by
  induction ts generalizing chosen ts' with
  | nil =>
      obtain rfl := List.length_eq_zero_iff.mp length
      rw [← Except.ok.inj h]
      exact .nil
  | cons t ts ih =>
      obtain ⟨c, cs, rfl⟩ := List.exists_cons_of_length_eq_add_one length
      rw [Shift.growTables, List.zip_cons_cons, mapM_eq_ok_iff, List.forall₂_cons_left_iff] at h
      obtain ⟨t', rest, ht, hrest, rfl⟩ := h
      refine .cons ?_ (ih (Nat.succ.inj length) (mapM_eq_ok_iff.mpr hrest))
      cases c with
      | true => exact kept.grow ht
      | false =>
          rw [← Except.ok.inj ht]
          exact kept.refl t

theorem pushDown {name : String} {number : Int} {count : Nat} {a a' : Shift.Anchored}
    (h : Shift.pushDown name number count a = .ok a') : List.Forall₂ R a.tables a'.tables := by
  unfold Shift.pushDown at h
  split at h
  · rw [← Except.ok.inj h]
    exact kept.all_refl a.tables
  · obtain ⟨sheet, -, h⟩ := bind_eq_ok_iff.mp h
    obtain ⟨tables, htables, h⟩ := bind_eq_ok_iff.mp h
    obtain ⟨workbook, -, h⟩ := bind_eq_ok_iff.mp h
    rw [← Except.ok.inj h]
    exact (mapM_eq_ok_iff.mp htables).imp fun _ _ => kept.shift

/-! ### The cells of a row -/

section
open Expand
variable {site : Site} {cell : Element}

theorem placeRecord {column : String} {chosen : List Bool} {place : Nat} {item : Value} {work work' : Work}
    (length : chosen.length = work.tables.length)
    (h : Expand.placeRecord site cell column chosen place item work = .ok work') :
    List.Forall₂ R work.tables work'.tables := by
  obtain ⟨rows, -, ⟨-, rfl⟩ | ⟨_, _, ref, _, _, _, tables, _, -, -, -, htables, -, rfl⟩⟩ := placeRecord_cases h
  · exact kept.all_refl _
  · exact kept.growTables length htables

theorem placeRecords {column : String} {chosen : List Bool} {items : List Value} {place : Nat}
    {work work' : Work} (length : chosen.length = work.tables.length)
    (h : Expand.placeRecords site cell column chosen place items work = .ok work') :
    List.Forall₂ R work.tables work'.tables := by
  induction items generalizing place work with
  | nil =>
      rw [← Except.ok.inj h]
      exact kept.all_refl _
  | cons item items ih =>
      obtain ⟨next, hnext, h⟩ := bind_eq_ok_iff.mp h
      have first := kept.placeRecord length hnext
      have rest := ih (length.trans first.length_eq) h
      exact kept.all_trans first rest

theorem spreadDown {items : List Value} {work : Work} {r : Outcome}
    (h : Expand.spreadDown site cell items work = .ok r) : List.Forall₂ R work.tables r.work.tables := by
  cases items with
  | nil =>
      rw [← Except.ok.inj h]
      exact kept.all_refl _
  | cons item items =>
      obtain ⟨chosen, hchosen, h⟩ := bind_eq_ok_iff.mp h
      obtain ⟨own, -, h⟩ := bind_eq_ok_iff.mp h
      have length : chosen.length = work.tables.length := (mapM_eq_ok_iff.mp hchosen).length_eq.symm
      simp only at h
      split at h
      · obtain ⟨⟨cells, pool⟩, -, h⟩ := bind_eq_ok_iff.mp h
        obtain ⟨work', hplaced, h⟩ := bind_eq_ok_iff.mp h
        have below : List.Forall₂ R work.tables work'.tables := by
          apply kept.placeRecords _ hplaced
          exact length
        rw [← Except.ok.inj h]
        exact below
      · obtain ⟨⟨filled, pool⟩, -, h⟩ := bind_eq_ok_iff.mp h
        obtain ⟨work', hplaced, h⟩ := bind_eq_ok_iff.mp h
        have below : List.Forall₂ R work.tables work'.tables := by
          apply kept.placeRecords _ hplaced
          exact length
        rw [← Except.ok.inj h]
        exact below

/-- Only records below a cell change the tables while it is filled. -/
theorem fillCell {work : Work} {r : Outcome} (h : Expand.fillCell site cell work = .ok r) :
    List.Forall₂ R work.tables r.work.tables := by
  cases filling_of_fillCell h with
  | keep same =>
      obtain ⟨_, _, rfl⟩ := same
      exact kept.all_refl _
  | down _ _ _ _ spread =>
      have below := kept.spreadDown spread
      exact below
  | right => exact kept.all_refl _
  | whole => exact kept.all_refl _
  | parts _ _ _ _ same =>
      obtain ⟨_, _, rfl⟩ := same
      exact kept.all_refl _

theorem walkCells {cells : List Element} {walk walk' : Walk} (h : Expand.walkCells site cells walk = .ok walk') :
    List.Forall₂ R walk.work.tables walk'.work.tables := by
  induction cells generalizing walk with
  | nil =>
      rw [← Except.ok.inj h]
      exact kept.all_refl _
  | cons cell cells ih =>
      obtain ⟨next, hnext, h⟩ := bind_eq_ok_iff.mp h
      obtain ⟨ref, -, hnext⟩ := bind_eq_ok_iff.mp hnext
      obtain ⟨own, -, hnext⟩ := bind_eq_ok_iff.mp hnext
      obtain ⟨column, -, hnext⟩ := bind_eq_ok_iff.mp hnext
      obtain ⟨r, hfill, hnext⟩ := bind_eq_ok_iff.mp hnext
      have first := kept.fillCell hfill
      have rest := ih h
      rw [← Except.ok.inj hnext] at rest
      exact kept.all_trans first rest

/-! ### The rows of a sheet -/

theorem walkRows {name : String} {data : Bindings} {scope : Scope} {rows : List Element} {pass final : Pass}
    (h : Expand.walkRows name data scope rows pass = .ok final) :
    List.Forall₂ R pass.anchored.tables final.anchored.tables := by
  induction rows generalizing pass with
  | nil =>
      rw [← Except.ok.inj h]
      exact kept.all_refl _
  | cons row rows ih =>
      obtain ⟨next, hnext, h⟩ := bind_eq_ok_iff.mp h
      obtain ⟨number, walk, out, step⟩ := stepRow_cases hnext
      have filled := kept.walkCells step.walk_eq
      have moved := kept.pushDown step.anchored_eq
      exact kept.all_trans (kept.all_trans filled moved) (ih h)

/-- The relation holds between the tables of a sheet and those after a pass, one by one. -/
theorem run {sheet : Sheet} {workbook : Element} {pool : Pool} {data : Bindings} {filled : Filled}
    (h : Expand.run sheet workbook pool data = .ok filled) :
    List.Forall₂ R sheet.tables filled.sheet.tables := by
  rcases run_cases h with ⟨-, rfl⟩ | ⟨sheetData, pass, -, hpass, rfl⟩
  · exact kept.all_refl _
  · exact kept.walkRows hpass

end

end Kept

end Table
end Gridfill

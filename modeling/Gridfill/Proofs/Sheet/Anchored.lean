import Gridfill.Proofs.Sheet.Merges
import Gridfill.Proofs.Sheet.Table

/-!
# How everything anchored follows the rows

One shift moves the merged ranges and the tables of a sheet, and leaves the other parts of the sheet as they
are (`pushDown_spec`). Inserting no rows shifts nothing, so the same can be said of every row of a pass.
Growing the dimension of the sheet changes nothing else (`childrenWith_growDimension`).
-/

namespace Gridfill

open Markup (Element)

theorem shifted_zero (number : Int) (ms : List (Option Extent)) : shifted number 0 ms = ms := by
  have moves (m : Option Extent) : m.map (Extent.shift number (0 : Nat)) = m := by
    cases m with
    | none => rfl
    | some e =>
        refine congrArg some ?_
        unfold Extent.shift
        split
        · simp only [Extent.down, Int.natCast_zero, Int.add_zero]
        · rfl
  have makes (m : Option Extent) : m.elim [] (Extent.copies number 0) = [] := by
    cases m with
    | none => rfl
    | some e =>
        show e.copies number 0 = []
        unfold Extent.copies
        split <;> rfl
  rw [shifted, List.map_congr_left (g := id) (fun m _ => moves m), List.map_id,
    List.flatMap_eq_nil_iff.mpr fun m _ => makes m, List.append_nil]

theorem below_zero (number : Int) : below number 0 = id := by
  funext a
  unfold below
  split
  · exact Int.add_zero a
  · rfl

/-- Everything anchored after rows were inserted behind a row. -/
theorem pushDown_spec {name : String} {number : Int} {count : Nat} {a a' : Shift.Anchored}
    (h : Shift.pushDown name number count a = .ok a') :
    merges a'.sheet = shifted number count (merges a.sheet) ∧
      (MergeCountAgrees a.sheet → MergeCountAgrees a'.sheet) ∧
      (MergesRead a.sheet → MergesRead a'.sheet) ∧
      (∀ tag, tag ≠ Vocabulary.mergeCells → a'.sheet.childrenWith tag = a.sheet.childrenWith tag) ∧
      List.Forall₂ (Table.Follows (below number count)) a.tables a'.tables := by
  unfold Shift.pushDown at h
  split at h
  · next hc =>
    obtain rfl : count = 0 := by omega
    rw [← Except.ok.inj h, shifted_zero, Int.natCast_zero, below_zero]
    exact ⟨rfl, fun h => h, fun h => h, fun _ _ => rfl, Table.forall₂_follows_refl _⟩
  · obtain ⟨sheet, hsheet, h⟩ := bind_eq_ok_iff.mp h
    obtain ⟨tables, htables, h⟩ := bind_eq_ok_iff.mp h
    obtain ⟨workbook, -, h⟩ := bind_eq_ok_iff.mp h
    obtain ⟨hmerges, hcount, hother⟩ := shiftMerges_spec hsheet
    rw [← Except.ok.inj h]
    exact ⟨hmerges, fun _ => hcount, mergesRead_of_shiftMerges hsheet, hother,
      (mapM_eq_ok_iff.mp htables).imp fun _ _ => Table.shiftTable_follows (Int.natCast_nonneg count)⟩

/-- Growing the dimension of a sheet leaves its other parts. -/
theorem childrenWith_growDimension {rows columns : Int} {sheet root : Element}
    (h : Shift.growDimension rows columns sheet = .ok root) {tag : Markup.Tag}
    (ht : tag ≠ Vocabulary.dimension) : root.childrenWith tag = sheet.childrenWith tag := by
  unfold Shift.growDimension at h
  split at h
  · rw [← Except.ok.inj h]
  · split at h
    · rw [← Except.ok.inj h]
    · obtain ⟨range, -, h⟩ := bind_eq_ok_iff.mp h
      obtain ⟨stop, -, h⟩ := bind_eq_ok_iff.mp h
      obtain ⟨ref, -, h⟩ := bind_eq_ok_iff.mp h
      rw [← Except.ok.inj h]
      exact Element.childrenWith_changeChild_ne sheet (fun _ hc => hc) ht

end Gridfill

import Gridfill.Proofs.Workbook.Numbering
import Gridfill.Proofs.Workbook.Overlap

/-!
# Substitutions that are refused

A substitution is refused when its sheet is not there or a reference cannot be read. Where this shows up, in the rows,
in the ranges that move with them, in the column names or in the dimension, nothing has been written yet; and what
writes fails for other causes (`Failure.OfWriting`). So a refused substitution leaves the package as it was
(`package_of_refused`), however many rows it has filled.
-/

namespace Gridfill

open Markup (Element)

/-- The failures that refuse a substitution: a sheet that is not there, and a reference that cannot be read. -/
inductive Failure.Refuses : Failure → Prop where
  | sheet (key : SheetKey) : Refuses (.sheetNotFound key)
  | reference (kind : ReferenceKind) (text : String) : Refuses (.reference kind text)

/-- The failures of what writes into a package: a part that cannot be read back, a text with a character that no
document can hold, and a number with too many digits. -/
inductive Failure.OfWriting : Failure → Prop where
  | load (fault : LoadFault) : OfWriting (.load fault)
  | character : OfWriting .forbiddenCharacter
  | integer (text : String) (fault : Text.IntegerFault) : OfWriting (.integer text fault)

theorem Failure.Refuses.not_ofWriting {f : Failure} (h : f.Refuses) : ¬ f.OfWriting := by
  cases h with
  | sheet => nofun
  | reference => nofun

theorem ofWriting_of_writeInteger {n : Int} {f : Failure} (h : writeInteger n = .error f) : f.OfWriting := by
  rw [writeInteger] at h
  split at h
  · cases h
  · exact Except.error.inj h ▸ .integer _ _

theorem Pool.ofWriting_of_itemOf {e : PoolEntry} {f : Failure} (h : itemOf e = .error f) : f.OfWriting := by
  rw [itemOf] at h
  split at h
  · cases h
  · rw [newItem] at h
    split at h
    · cases h
    · exact Except.error.inj h ▸ .character

/-- A pool cannot be written when it has a text that no document can hold or too many texts to be counted. -/
theorem Pool.ofWriting_of_writeTo {p : Pool} {root : Element} {f : Failure} (h : p.writeTo root = .error f) :
    f.OfWriting := by
  rcases bind_eq_error_iff.mp h with h | ⟨items, -, h⟩
  · obtain ⟨_, _, _, -, -, hitem⟩ := mapM_eq_error_iff.mp h
    exact ofWriting_of_itemOf hitem
  · rcases bind_eq_error_iff.mp h with h | ⟨_, -, h⟩
    · exact ofWriting_of_writeInteger h
    · cases h

namespace Workbook

theorem ofWriting_of_dropCalcChain {w w' : Workbook} {f : Failure} (h : w.dropCalcChain = (w', .error f)) :
    f.OfWriting := by
  unfold dropCalcChain at h
  split at h
  · cases h
  · split at h
    · cases h
    · simp only at h
      split at h
      · split at h
        · next hread =>
          obtain rfl := Except.error.inj (Prod.mk.inj h).2
          obtain ⟨fault, rfl⟩ := Package.load_of_readDocument hread
          exact .load fault
        · cases h
      · cases h

theorem ofWriting_of_flush {w w' : Workbook} {sheet : Sheet} {f : Failure} (h : w.flush sheet = (w', .error f)) :
    f.OfWriting := by
  unfold flush at h
  simp only at h
  split at h
  · next hwrite =>
    obtain rfl := Except.error.inj (Prod.mk.inj h).2
    exact Pool.ofWriting_of_writeTo hwrite
  · cases h

/-- A substitution that fails has not found its sheet, has not filled it, or has failed at writing. -/
theorem substitute_error_cases {w w' : Workbook} {key : SheetKey} {data : Bindings} {f : Failure}
    (h : w.substitute key data = (w', .error f)) :
    (w.openSheet key = .error f ∧ w' = w) ∨
      (∃ sheet, w.openSheet key = .ok (sheet, w') ∧ w'.fillSheet sheet data = .error f) ∨ f.OfWriting := by
  unfold substitute at h
  split at h
  · next hopen =>
    obtain ⟨rfl, hf⟩ := Prod.mk.inj h
    exact .inl ⟨hopen.trans (congrArg Except.error (Except.error.inj hf)), rfl⟩
  · next sheet ready hopen =>
    split at h
    · next hfill =>
      obtain ⟨rfl, hf⟩ := Prod.mk.inj h
      exact .inr (.inl ⟨sheet, hopen, hfill.trans (congrArg Except.error (Except.error.inj hf))⟩)
    · simp only at h
      split at h
      · next hdropped =>
        obtain rfl := Except.error.inj (Prod.mk.inj h).2
        split at hdropped
        · exact .inr (.inr (ofWriting_of_dropCalcChain hdropped))
        · cases hdropped
      · split at h
        · next hwritten =>
          obtain rfl := Except.error.inj (Prod.mk.inj h).2
          exact .inr (.inr (ofWriting_of_flush hwritten))
        · cases h

/-- A substitution that is refused leaves the package, and so the container that the workbook is written as. -/
theorem package_of_refused {w w' : Workbook} {key : SheetKey} {data : Bindings} {f : Failure}
    (refuses : f.Refuses) (h : w.substitute key data = (w', .error f)) :
    w'.package = w.package ∧ ∀ method, w'.generate method = w.generate method := by
  have same : w'.package = w.package := by
    rcases substitute_error_cases h with ⟨-, rfl⟩ | ⟨sheet, hopen, -⟩ | writing
    · rfl
    · rw [eq_of_openSheet hopen]
    · exact absurd writing refuses.not_ofWriting
  refine ⟨same, fun method => ?_⟩
  rw [generate, generate, same]

end Workbook

/-! ### A refusal behind rows that were filled -/

namespace Small

/-- A workbook with parts and an order of calculation, and with a merged range that cannot be read. -/
def refusedBook : Workbook :=
  { mergedBook ["A1:B1", "?"] with package := .ofEntries entries, calcChain := some "one.xml" }

end Small

/-- Three records are filled and two rows inserted, then a merged range cannot be read: no part has changed. -/
theorem Workbook.package_of_refused_small : ∃ w',
    Small.refusedBook.substitute (.name "Data") Small.mergedData = (w', .error (.reference .range "?")) ∧
      Failure.Refuses (.reference .range "?") ∧ w'.package = Small.refusedBook.package ∧
      ∀ method, w'.generate method = Small.refusedBook.generate method := by
  have refused : (match (Small.refusedBook.substitute (.name "Data") Small.mergedData).2 with
      | .error f => decide (f = .reference .range "?")
      | .ok _ => false) = true := by decide +kernel
  cases hsub : Small.refusedBook.substitute (.name "Data") Small.mergedData with
  | mk w' answer =>
      rw [hsub] at refused
      cases answer with
      | ok stats => cases refused
      | error f =>
          obtain rfl : f = .reference .range "?" := of_decide_eq_true refused
          obtain ⟨package, container⟩ := package_of_refused (.reference .range "?") hsub
          exact ⟨w', rfl, .reference .range "?", package, container⟩

end Gridfill

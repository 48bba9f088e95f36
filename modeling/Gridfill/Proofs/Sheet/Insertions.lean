import Gridfill.Proofs.Sheet.Ranges

/-!
# Insertions one after the other

A pass puts rows behind one row after the other, and each time shifts what is anchored in the sheet and in the
workbook. What each shift does to a part of them makes a chain (`chain_of_run`). With rows in order, what is known
of the part after each shift, with all rows inserted so far, is known at the end of the pass
(`Chain.follow`, `follow_of_run`).
-/

namespace Gridfill

open Markup (Element Scope)

/-- What insertions one after the other lead to, each related to the one before. -/
inductive Chain {α : Type} (R : Growth → α → α → Prop) : List Growth → α → α → Prop
  | nil (x : α) : Chain R [] x x
  | cons {g : Growth} {gs : List Growth} {x y z : α} (first : R g x y) (rest : Chain R gs y z) : Chain R (g :: gs) x z

/-- With the rows that grow in order, what every insertion keeps of the insertions so far is known of all. -/
theorem Chain.follow {α : Type} {R : Growth → α → α → Prop} {P : List Growth → α → Prop}
    (step : ∀ (gs : List Growth) (g : Growth) (x y : α), (∀ b ∈ gs, b.number < g.number) → P gs x →
      R ⟨g.number + insertedTotal gs, g.count⟩ x y → P (gs ++ [g]) y) {later gs : List Growth} {x y : α}
    (increasing : (gs ++ later).Pairwise (·.number < ·.number)) (hx : P gs x)
    (h : Chain R (later.map fun g => ⟨moved (gs ++ later) g.number, g.count⟩) x y) : P (gs ++ later) y := by
  induction later generalizing gs x with
  | nil =>
      cases h
      rwa [List.append_nil]
  | cons g later ih =>
      have split : gs ++ g :: later = gs ++ [g] ++ later := by
        rw [List.append_assoc, List.singleton_append]
      rw [List.map_cons, moved_number_of_pairwise increasing] at h
      cases h with
      | cons first rest =>
          have above : ∀ b ∈ gs, b.number < g.number := fun b hb =>
            (List.pairwise_append.mp increasing).2.2 b hb g List.mem_cons_self
          rw [split] at increasing rest ⊢
          exact ih increasing (step gs g x _ above hx first) rest

namespace Expand

/-- The rows that the blocks of a pass begin with, as they are numbered by then, each with the number of rows
that are put behind it. -/
def Insertions (bs : List (List Element)) (gs : List Growth) : Prop :=
  List.Forall₂ (fun b g => ∃ out rest, b = out :: rest ∧ ownNumber out = .ok g.number ∧ g.count = rest.length) bs gs

section
variable {α : Type} {R : Growth → α → α → Prop} (f : Element → Element → α) {name : String}
  (shift : ∀ (number : Int) (count : Nat) (a b : Shift.Anchored), Shift.pushDown name number count a = .ok b →
    R ⟨number, count⟩ (f a.sheet a.workbook) (f b.sheet b.workbook))
include shift

/-- Going down the rows shifts a part of the sheet and the workbook for one row after the other. -/
theorem walkRows_chain {data : Bindings} {scope : Scope} {rows : List Element} {pass final : Pass}
    (h : walkRows name data scope rows pass = .ok final) :
    ∃ gs, Insertions (rowBlocks name data scope rows pass) gs ∧
      Chain R gs (f pass.anchored.sheet pass.anchored.workbook) (f final.anchored.sheet final.anchored.workbook) := by
  induction rows generalizing pass with
  | nil =>
      rw [← Except.ok.inj h]
      exact ⟨[], .nil, .nil _⟩
  | cons row rows ih =>
      obtain ⟨next, hnext, h⟩ := bind_eq_ok_iff.mp h
      obtain ⟨number, walk, out, step⟩ := stepRow_cases hnext
      obtain ⟨gs, insertions, rest⟩ := ih h
      have first := shift _ _ _ _ step.anchored_eq
      refine ⟨⟨number, walk.work.newRows.length⟩ :: gs, ?_, .cons first rest⟩
      rw [rowBlocks_cons hnext step]
      exact .cons ⟨out, _, rfl, step.out_number, (List.length_map _).symm⟩ insertions

end

section
variable {α : Type} {R : Growth → α → α → Prop} (f : Element → Element → α) {sheet : Sheet} {workbook : Element}
  {pool : Pool} {data : Bindings} {filled : Filled}
  (shift : ∀ (number : Int) (count : Nat) (a b : Shift.Anchored), Shift.pushDown sheet.name number count a = .ok b →
    R ⟨number, count⟩ (f a.sheet a.workbook) (f b.sheet b.workbook))
  (other : ∀ root root' document : Element,
    (∀ tag, tag ≠ Vocabulary.sheetData → root'.childrenWith tag = root.childrenWith tag) →
      f root' document = f root document)
  (hrun : run sheet workbook pool data = .ok filled)
include shift other hrun

/-- A pass shifts a part of the sheet and the workbook, apart from the rows, for one row after the other. -/
theorem chain_of_run : ∃ gs, Insertions (blocks sheet workbook pool data) gs ∧
    Chain R gs (f sheet.root workbook) (f filled.sheet.root filled.workbook) := by
  unfold blocks
  rcases run_cases hrun with ⟨hd, rfl⟩ | ⟨sheetData, pass, hd, hpass, rfl⟩
  · rw [hd]
    exact ⟨[], .nil, .nil _⟩
  · rw [hd]
    obtain ⟨gs, insertions, chain⟩ := walkRows_chain f shift hpass
    refine ⟨gs, insertions, ?_⟩
    have own : sheetData.tag = Vocabulary.sheetData := Element.tag_of_child? hd
    have same : f (passSheet sheet sheetData pass).root pass.anchored.workbook =
        f pass.anchored.sheet pass.anchored.workbook :=
      other _ _ _ fun tag ht => Element.childrenWith_changeChild_ne _ (fun _ _ => own) ht
    rw [same]
    exact chain

end

/-- With rows in order, the numbers at which the rows grow are those that the rows inserted above put them at. -/
theorem Insertions.eq_moved {all : List Growth} {numbers : List Int} {bs : List (List Element)} {gs : List Growth}
    (h : Insertions bs gs) (heads : HeadsMoved all numbers bs) :
    gs = (growths numbers bs).map fun g => ⟨moved all g.number, g.count⟩ := by
  induction h generalizing numbers with
  | nil =>
      cases heads
      rfl
  | cons first _ ih =>
      cases heads with
      | @cons m _ ms _ head heads =>
          obtain ⟨out, rest, rfl, hnumber, hcount⟩ := first
          obtain ⟨out', rest', e, hmoved⟩ := head
          obtain ⟨rfl, rfl⟩ := List.cons.inj e
          have number := Except.ok.inj (hnumber.symm.trans hmoved)
          unfold growths
          rw [List.zipWith_cons_cons, List.map_cons, ih heads, ← number, List.length_cons, Nat.add_sub_cancel, ← hcount]
          rfl

theorem growths_pairwise {numbers : List Int} {bs : List (List Element)} (h : numbers.Pairwise (· < ·)) :
    (growths numbers bs).Pairwise (·.number < ·.number) := by
  induction numbers generalizing bs with
  | nil => exact .nil
  | cons m numbers ih =>
      obtain ⟨first, rest⟩ := List.pairwise_cons.mp h
      cases bs with
      | nil => exact .nil
      | cons b bs =>
          apply List.pairwise_cons.mpr
          refine ⟨?_, ih rest⟩
          intro g hg
          exact first g.number (number_mem_of_growths hg)

section
variable {α : Type} {R : Growth → α → α → Prop} {P : List Growth → α → Prop} (f : Element → Element → α)
  {sheet : Sheet} {workbook : Element} {pool : Pool} {data : Bindings} {filled : Filled} {numbers : List Int}

/-- With rows in order, what every shift keeps of the rows inserted so far holds after a pass of all rows that
it inserted. -/
theorem follow_of_run (hp : pool.Sound) (hnumbers : sheet.rows.mapM ownNumber = .ok numbers)
    (hincreasing : numbers.Pairwise (· < ·))
    (shift : ∀ (number : Int) (count : Nat) (a b : Shift.Anchored),
      Shift.pushDown sheet.name number count a = .ok b →
        R ⟨number, count⟩ (f a.sheet a.workbook) (f b.sheet b.workbook))
    (other : ∀ root root' document : Element,
      (∀ tag, tag ≠ Vocabulary.sheetData → root'.childrenWith tag = root.childrenWith tag) →
        f root' document = f root document)
    (step : ∀ (gs : List Growth) (g : Growth) (x y : α), (∀ b ∈ gs, b.number < g.number) → P gs x →
      R ⟨g.number + insertedTotal gs, g.count⟩ x y → P (gs ++ [g]) y)
    (hrun : run sheet workbook pool data = .ok filled) (start : P [] (f sheet.root workbook)) :
    P (growths numbers (blocks sheet workbook pool data)) (f filled.sheet.root filled.workbook) := by
  obtain ⟨gs, insertions, chain⟩ := chain_of_run f shift other hrun
  rw [insertions.eq_moved (headsMoved_of_run hp hnumbers hincreasing hrun)] at chain
  have increasing : (([] : List Growth) ++ growths numbers (blocks sheet workbook pool data)).Pairwise
      (·.number < ·.number) := growths_pairwise hincreasing
  exact Chain.follow step increasing start chain

end

end Expand
end Gridfill

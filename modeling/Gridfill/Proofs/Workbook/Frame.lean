import Gridfill.Proofs.Package.PartName
import Gridfill.Proofs.Sheet.Names
import Gridfill.Proofs.Workbook.Run

/-!
# What filling a sheet leaves alone

Filling a sheet changes its rows, its merged ranges, its dimension, its tables and the names defined in the
workbook. The other children of its root and of the workbook's document stay, among them the lists of tables and
of sheets (`descendants_of_fillSheet`). Dropping the order of calculation leaves the relationships of other types
(`findRelationship_withoutCalcChain`), and the sheets that are reached through them (`sheets_withoutCalcChain`).
-/

namespace Gridfill

open Markup (Element)

/-- Pushing down leaves the children of the sheet and of the workbook's document that hold no ranges. -/
theorem childrenWith_pushDown {name : String} {number : Int} {count : Nat} {a b : Shift.Anchored}
    (h : Shift.pushDown name number count a = .ok b) {inSheet inBook : Markup.Tag}
    (hs : inSheet ≠ Vocabulary.mergeCells) (hb : inBook ≠ Vocabulary.definedNames) :
    b.sheet.childrenWith inSheet = a.sheet.childrenWith inSheet ∧
      b.workbook.childrenWith inBook = a.workbook.childrenWith inBook := by
  obtain ⟨-, -, -, sheet, -⟩ := pushDown_spec h
  refine ⟨sheet inSheet hs, ?_⟩
  unfold Shift.pushDown at h
  split at h
  · rw [← Except.ok.inj h]
  · obtain ⟨_, -, h⟩ := bind_eq_ok_iff.mp h
    obtain ⟨_, -, h⟩ := bind_eq_ok_iff.mp h
    obtain ⟨workbook, hworkbook, h⟩ := bind_eq_ok_iff.mp h
    rw [← Except.ok.inj h]
    exact childrenWith_changeChildren_ne (fun _ _ h => tag_of_changeChildren h) hworkbook hb

theorem Chain.eq {α : Type} {R : Growth → α → α → Prop} (same : ∀ g x y, R g x y → y = x) {gs : List Growth}
    {x y : α} (h : Chain R gs x y) : y = x := by
  induction h with
  | nil => rfl
  | cons first _ ih => exact ih.trans (same _ _ _ first)

/-- A pass over a sheet leaves the children of the sheet that hold neither rows nor merged ranges, and those of the
workbook's document that hold no names. -/
theorem Expand.childrenWith_run {sheet : Sheet} {workbook : Element} {pool : Pool} {data : Bindings} {filled : Filled}
    (h : run sheet workbook pool data = .ok filled) {inSheet inBook : Markup.Tag}
    (hs : inSheet ≠ Vocabulary.mergeCells) (hd : inSheet ≠ Vocabulary.sheetData)
    (hb : inBook ≠ Vocabulary.definedNames) :
    filled.sheet.root.childrenWith inSheet = sheet.root.childrenWith inSheet ∧
      filled.workbook.childrenWith inBook = workbook.childrenWith inBook := by
  obtain ⟨gs, -, chain⟩ := chain_of_run (R := fun _ x y => y = x)
    (fun root document => (root.childrenWith inSheet, document.childrenWith inBook))
    (fun number count a b hab => Prod.ext (childrenWith_pushDown hab hs hb).1 (childrenWith_pushDown hab hs hb).2)
    (fun root root' document same => by rw [same inSheet hd]) h
  exact Prod.mk.inj (chain.eq fun _ _ _ same => same)

namespace Workbook

/-- Filling a sheet leaves the tables that the sheet lists and the sheets that the workbook lists. -/
theorem descendants_of_fillSheet {w : Workbook} {sheet : Sheet} {data : Bindings} {o : Outcome}
    (h : w.fillSheet sheet data = .ok o) :
    o.sheet.root.descendants [Vocabulary.tableParts, Vocabulary.tablePart] =
        sheet.root.descendants [Vocabulary.tableParts, Vocabulary.tablePart] ∧
      o.workbook.descendants [Vocabulary.sheets, Vocabulary.sheet] =
        w.document.descendants [Vocabulary.sheets, Vocabulary.sheet] := by
  obtain ⟨filled, tables, added, root, hfilled, -, hroot, rfl⟩ := fillSheet_cases h
  obtain ⟨inSheet, inBook⟩ := @Expand.childrenWith_run _ _ _ _ _ hfilled Vocabulary.tableParts Vocabulary.sheets
    (by decide) (by decide) (by decide)
  have lists := (childrenWith_growDimension hroot (by decide)).trans inSheet
  exact ⟨congrArg (List.flatMap _) lists, congrArg (List.flatMap _) inBook⟩

/-! ### Relationships without the order of calculation -/

/-- The relationships to an order of calculation. -/
def chainLinks (links : Element) : List Element :=
  (links.childrenWith Vocabulary.relationshipItem).filter fun r => r.attribute? "Type" = some Vocabulary.calcChainType

theorem childrenWith_dropChildren (e : Element) (tag : Markup.Tag) (p : Element → Bool) :
    (dropChildren e tag p).childrenWith tag = (e.childrenWith tag).filter fun c => !p c := by
  unfold Element.childrenWith Element.children dropChildren
  simp only
  induction e.content with
  | nil => rfl
  | cons n ns ih =>
      cases n with
      | element c =>
          by_cases hc : c.tag = tag
          · cases hp : p c <;> simpa [Markup.Node.element?, hc, hp] using ih
          · simpa [Markup.Node.element?, hc] using ih
      | comment _ _ => exact ih
      | instruction _ _ _ => exact ih
      | entity _ _ => exact ih

theorem childrenWith_withoutCalcChain (links : Element) :
    (withoutCalcChain links).childrenWith Vocabulary.relationshipItem =
      (links.childrenWith Vocabulary.relationshipItem).filter fun r =>
        !decide (r.attribute? "Type" = some Vocabulary.calcChainType) :=
  childrenWith_dropChildren links _ _

/-- The relationships of other types are found as before. -/
theorem findRelationship_withoutCalcChain (links : Element) {type : String} (h : type ≠ Vocabulary.calcChainType) :
    findRelationship (withoutCalcChain links) type = findRelationship links type := by
  rw [findRelationship, childrenWith_withoutCalcChain, List.find?_filter, findRelationship]
  congr 1
  funext r
  by_cases hr : r.attribute? "Type" = some type <;> simp [hr, h]

/-- What a filter does not take away is found in what it leaves. -/
theorem find?_filter_of {α : Type} {p q : α → Bool} {as : List α} (h : ∀ a, as.find? q = some a → p a = true) :
    (as.filter p).find? q = as.find? q := by
  induction as with
  | nil => rfl
  | cons a as ih =>
      cases hq : q a with
      | true =>
          rw [List.find?_cons_of_pos hq] at h ⊢
          rw [List.filter_cons_of_pos (h a rfl), List.find?_cons_of_pos hq]
      | false =>
          rw [List.find?_cons_of_neg (by simp [hq])] at h ⊢
          cases hp : p a with
          | true => rw [List.filter_cons_of_pos hp, List.find?_cons_of_neg (by simp [hq]), ih h]
          | false => rw [List.filter_cons_of_neg (by simp [hp]), ih h]

/-- A sheet whose part is no order of calculation is reached as before. -/
theorem sheetInfo_withoutCalcChain {directory : String} {links entry : Element} {info : SheetInfo}
    (h : sheetInfo directory links entry = .ok info)
    (apart : ∀ r ∈ chainLinks links, PartName.resolve directory (r.attributeOr "Target" "") ≠ info.path) :
    sheetInfo directory (withoutCalcChain links) entry = .ok info := by
  have same : targetOf (withoutCalcChain links) (entry.get? Vocabulary.relationshipId) =
      targetOf links (entry.get? Vocabulary.relationshipId) := by
    rw [targetOf, childrenWith_withoutCalcChain, ← List.filter_reverse, find?_filter_of, targetOf]
    intro r hr
    rw [Bool.not_eq_true', decide_eq_false_iff_not]
    intro chain
    have mem : r ∈ chainLinks links :=
      List.mem_filter.mpr ⟨List.mem_reverse.mp (List.mem_of_find?_eq_some hr), decide_eq_true chain⟩
    have own : targetOf links (entry.get? Vocabulary.relationshipId) = r.attribute? "Target" := by
      rw [targetOf, hr]
    refine apart r mem ?_
    unfold sheetInfo at h
    simp only [own] at h
    split at h
    · cases h
    · obtain ⟨id, -, h⟩ := bind_eq_ok_iff.mp h
      rw [← Except.ok.inj h]
      rfl
  rw [← h]
  simp only [sheetInfo, same]

/-- The sheets whose parts are no orders of calculation are listed as before. -/
theorem sheets_withoutCalcChain {directory : String} {links : Element} {entries : List Element}
    {sheets : List SheetInfo} (h : entries.mapM (sheetInfo directory links) = .ok sheets)
    (apart : ∀ r ∈ chainLinks links, ∀ info ∈ sheets,
      PartName.resolve directory (r.attributeOr "Target" "") ≠ info.path) :
    entries.mapM (sheetInfo directory (withoutCalcChain links)) = .ok sheets := by
  rw [mapM_eq_ok_iff] at h ⊢
  induction h with
  | nil => exact .nil
  | cons first _ ih =>
      exact .cons (sheetInfo_withoutCalcChain first fun r hr => apart r hr _ List.mem_cons_self)
        (ih fun r hr info hi => apart r hr info (List.mem_cons_of_mem _ hi))

end Workbook
end Gridfill

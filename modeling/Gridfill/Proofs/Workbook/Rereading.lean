import Gridfill.Proofs.Markup.Rereading
import Gridfill.Proofs.Pool.Writing
import Gridfill.Workbook.Basic

/-!
# Workbooks whose documents are read again

What a workbook takes from its documents does not depend on empty texts: the relationships that are followed, the
sheets, the texts of the pool, the tables and the placeholders of a sheet.
-/

namespace Gridfill

open Markup (Element SameTree)

/-! ### Relationships -/

section
variable {links links' : Element}

theorem findRelationship_tidy (links : Element) (type : String) :
    findRelationship links.tidy type = (findRelationship links type).map Element.tidy := by
  rw [findRelationship, Element.childrenWith_tidy, List.find?_map, findRelationship]
  simp only [Function.comp_def, Element.attribute?_tidy]

@[simp] theorem targetOf_tidy (links : Element) (id : Option String) :
    targetOf links.tidy id = targetOf links id := by
  rw [targetOf, Element.childrenWith_tidy, ← List.map_reverse, List.find?_map, targetOf]
  simp only [Function.comp_def, Element.attribute?_tidy]
  split
  · next r hr =>
    obtain ⟨r', hr', rfl⟩ := Option.map_eq_some_iff.mp hr
    rw [hr', Element.attribute?_tidy]
  · next hr => rw [Option.map_eq_none_iff.mp hr]

/-- The target of the first relationship of a type. -/
theorem map_findRelationship (h : SameTree links links') (type : String) (f : Element → String)
    (hf : ∀ r : Element, f r.tidy = f r) :
    (findRelationship links type).map f = (findRelationship links' type).map f := by
  have tidied : ∀ l : Element, (findRelationship l.tidy type).map f = (findRelationship l type).map f := by
    intro l
    rw [findRelationship_tidy, Option.map_map]
    exact congrArg (fun g => Option.map g _) (funext hf)
  rw [← tidied links, h, tidied links']

end

/-! ### The pool -/

namespace Pool

@[simp] theorem entryText_tidy (e : Element) : entryText e.tidy = entryText e := by
  simp only [entryText, Element.childrenWith_tidy, Element.descendants_tidy, ← List.map_append, List.map_map,
    Function.comp_def, Element.text_tidy_getD]

theorem texts_ofRoot_eq {root root' : Element} (h : SameTree root root') :
    (ofRoot root).texts = (ofRoot root').texts := by
  have tidied : ∀ r : Element, (ofRoot r.tidy).texts = (ofRoot r).texts := by
    intro r
    rw [texts_ofRoot, Element.childrenWith_tidy, List.map_map, texts_ofRoot]
    simp only [Function.comp_def, entryText_tidy]
  rw [← tidied root, h, tidied root']

/-- What stands at a place depends on the texts alone. -/
theorem at?_eq_of_texts {p q : Pool} (h : p.texts = q.texts) (i : Int) : p.at? i = q.at? i := by
  have get : ∀ (r : Pool) (k : Nat), r.get? k = r.texts[k]? := by
    intro r k
    rw [get?, texts, List.getElem?_map]
  simp only [at?, get, h]

end Pool

/-! ### Sheets and tables -/

/-- The table without the empty texts of its document. -/
def Table.tidy (t : Table) : Table := ⟨t.path, t.root.tidy⟩

/-- The sheet without the empty texts of its documents. -/
def Sheet.tidy (s : Sheet) : Sheet := ⟨s.info, s.root.tidy, s.tables.map Table.tidy⟩

@[simp] theorem Table.info_tidy (t : Table) : t.tidy.info = t.info := by
  have columns : t.tidy.columns?.elim [] (·.childrenWith Vocabulary.tableColumn) =
      (t.columns?.elim [] (·.childrenWith Vocabulary.tableColumn)).map Element.tidy := by
    rw [columns?, tidy, Element.child?_tidy, columns?]
    cases t.root.child? Vocabulary.tableColumns with
    | none => rfl
    | some list => exact Element.childrenWith_tidy list _
  have column : ∀ c : Element, columnInfo c.tidy = columnInfo c := by
    intro c
    simp only [columnInfo, Element.attributeOr_tidy]
  have name : t.tidy.name = t.name := by
    simp only [Table.name, tidy, Element.attribute?_tidy]
  have ref : t.tidy.ref = t.ref := by
    simp only [Table.ref, tidy, Element.attributeOr_tidy]
  simp only [info, columns, List.mapM_map, Function.comp_def, column, name, ref]
  rfl

theorem Sheet.rows_tidy (s : Sheet) : s.tidy.rows = s.rows.map Element.tidy := by
  rw [rows, data?, tidy, Element.child?_tidy, rows, data?]
  cases s.root.child? Vocabulary.sheetData with
  | none => rfl
  | some data => exact Element.childrenWith_tidy data _

namespace Workbook

theorem tableInfos_tidy (s : Sheet) : tableInfos s.tidy = tableInfos s := by
  simp only [tableInfos, Sheet.tidy, List.mapM_map, Function.comp_def, Table.info_tidy]

theorem cellPlaceholders_tidy {p q : Pool} (h : p.texts = q.texts) (cell : Element) :
    cellPlaceholders p cell.tidy = cellPlaceholders q cell := by
  have value : Cell.valueText cell.tidy = (Cell.valueText cell).filter (· ≠ "") := by
    rw [Cell.valueText, Element.child?_tidy, Cell.valueText]
    cases cell.child? Vocabulary.cellValue with
    | none => rfl
    | some v => exact Element.text_tidy v
  rw [cellPlaceholders, value, cellPlaceholders]
  cases Cell.valueText cell with
  | none => rfl
  | some text =>
      by_cases he : text = ""
      · subst he
        rfl
      · simp only [Option.filter, he, ne_eq, not_false_eq_true, decide_true, if_true, Pool.at?_eq_of_texts h]

theorem gatherPlaceholders_tidy {p q : Pool} (h : p.texts = q.texts) (cells : List Element) :
    ∀ found, gatherPlaceholders p (cells.map Element.tidy) found = gatherPlaceholders q cells found := by
  induction cells with
  | nil => exact fun _ => rfl
  | cons cell cells ih =>
      intro found
      simp only [List.map_cons, gatherPlaceholders, cellPlaceholders_tidy h, Element.attributeOr_tidy, ih]

theorem sheetPlaceholders_tidy {p q : Pool} (h : p.texts = q.texts) (s : Sheet) :
    sheetPlaceholders p s.tidy = sheetPlaceholders q s := by
  have cells : (s.tidy.rows.flatMap (·.childrenWith Vocabulary.cell)) =
      (s.rows.flatMap (·.childrenWith Vocabulary.cell)).map Element.tidy := by
    rw [Sheet.rows_tidy, List.flatMap_map, List.map_flatMap]
    simp only [Element.childrenWith_tidy]
  rw [sheetPlaceholders, cells, List.filter_map, sheetPlaceholders]
  simp only [Function.comp_def, Element.attribute?_tidy]
  exact gatherPlaceholders_tidy h _ []

/-- Sheets that differ in empty texts only have the same tables. -/
theorem tableInfos_eq {s s' : Sheet} (h : s.tidy = s'.tidy) : tableInfos s = tableInfos s' := by
  rw [← tableInfos_tidy s, h, tableInfos_tidy]

/-- Sheets that differ in empty texts only show the same placeholders, the texts of the pools being the same. -/
theorem sheetPlaceholders_eq {p q : Pool} (hp : p.texts = q.texts) {s s' : Sheet} (h : s.tidy = s'.tidy) :
    sheetPlaceholders p s = sheetPlaceholders q s' := by
  rw [← sheetPlaceholders_tidy rfl s, h, sheetPlaceholders_tidy hp]

/-! ### The list of sheets -/

theorem sheetInfo_tidy (directory : String) (links entry : Element) :
    sheetInfo directory links.tidy entry.tidy = sheetInfo directory links entry := by
  simp only [sheetInfo, Element.get?_tidy, targetOf_tidy, Element.attribute?_tidy, Element.attributeOr_tidy]

theorem sheets_eq {document document' links links' : Element} (hd : SameTree document document')
    (hl : SameTree links links') (directory : String) :
    (document.descendants [Vocabulary.sheets, Vocabulary.sheet]).mapM (sheetInfo directory links) =
      (document'.descendants [Vocabulary.sheets, Vocabulary.sheet]).mapM (sheetInfo directory links') := by
  have tidied : ∀ d l : Element,
      (d.tidy.descendants [Vocabulary.sheets, Vocabulary.sheet]).mapM (sheetInfo directory l.tidy) =
        (d.descendants [Vocabulary.sheets, Vocabulary.sheet]).mapM (sheetInfo directory l) := by
    intro d l
    rw [Element.descendants_tidy, List.mapM_map]
    simp only [Function.comp_def, sheetInfo_tidy]
  rw [← tidied, hd, hl, tidied]

end Workbook
end Gridfill

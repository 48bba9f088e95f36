import Gridfill.Proofs.Sheet.Table
import Gridfill.Sheet.Header

/-!
# What filling the column names of a table comes to

A table without a list of columns stays. Otherwise its list is replaced, and when columns were added the
list is counted again and the range of the table set (`fillTable_cases`). A consistent table stays
consistent, as long as its columns stay within those that can be read (`consistent_of_fillTable`).
-/

namespace Gridfill.Header

open Markup (Element Node)

variable {data : Bindings}

/-- The table with its list of columns replaced. -/
def putColumns (t : Table) (list : Element) : Table :=
  { t with root := t.root.changeChild Vocabulary.tableColumns fun _ => list }

/-- The list with its columns replaced. -/
def listOf (t : Table) (list : Element) (columns : List Element) : Element :=
  list.replaceContent [t.root.frame] (columns.map Node.element)

/-- What filling the column names of a table with a list of columns comes to. -/
inductive Headed (data : Bindings) (t : Table) (list : Element) (columns : List Element) : Table → Prop where
  /-- No column was added. -/
  | same (length : columns.length - (list.childrenWith Vocabulary.tableColumn).length = 0) :
      Headed data t list columns (putColumns t (listOf t list columns))
  /-- Columns were added: they are counted, and the table grows to the right. -/
  | grown {range wide : CellRange} {count ref : String} {t' : Table} (range_eq : t.range = .ok range)
      (count_eq : writeInteger columns.length = .ok count)
      (wide_eq : widen range (columns.length - (list.childrenWith Vocabulary.tableColumn).length) = .ok wide)
      (ref_eq : wide.write = .ok ref)
      (set_eq : (putColumns t ((listOf t list columns).set "count" count)).setRef ref = .ok t') :
      Headed data t list columns t'

theorem fillTable_cases {t t' : Table} {n : Nat} (h : fillTable data t = .ok (t', n)) :
    (t.columns? = none ∧ t' = t) ∨
    ∃ list columns, t.columns? = some list ∧
      fillColumns data 0 (list.childrenWith Vocabulary.tableColumn) = .ok columns ∧
      Headed data t list columns t' := by
  unfold fillTable at h
  cases hc : t.columns? with
  | none =>
      rw [hc] at h
      exact Or.inl ⟨rfl, (Prod.mk.inj (Except.ok.inj h)).1.symm⟩
  | some list =>
      rw [hc] at h
      obtain ⟨range, hrange, h⟩ := bind_eq_ok_iff.mp h
      obtain ⟨columns, hcolumns, h⟩ := bind_eq_ok_iff.mp h
      refine Or.inr ⟨list, columns, rfl, hcolumns, ?_⟩
      simp only at h
      split at h
      · next length =>
        rw [← (Prod.mk.inj (Except.ok.inj h)).1]
        exact .same length
      · obtain ⟨count, hcount, h⟩ := bind_eq_ok_iff.mp h
        obtain ⟨wide, hwide, h⟩ := bind_eq_ok_iff.mp h
        obtain ⟨ref, href, h⟩ := bind_eq_ok_iff.mp h
        obtain ⟨u, hu, h⟩ := bind_eq_ok_iff.mp h
        rw [← (Prod.mk.inj (Except.ok.inj h)).1]
        exact .grown hrange hcount hwide href hu

theorem path_of_fillTable {t t' : Table} {n : Nat} (h : fillTable data t = .ok (t', n)) :
    t'.path = t.path := by
  rcases fillTable_cases h with ⟨-, rfl⟩ | ⟨list, columns, -, -, headed⟩
  · rfl
  · cases headed with
    | same length => rfl
    | grown _ _ _ _ set_eq =>
        rw [Table.path_of_setRef set_eq]
        rfl

/-- Filling the column names of tables goes through table by table. -/
theorem forall₂_of_fillTables : ∀ {ts ts' : List Table} {n : Nat}, fillTables data ts = .ok (ts', n) →
    List.Forall₂ (fun t t' => ∃ k, fillTable data t = .ok (t', k)) ts ts'
  | [], ts', n, h => by
      rw [← (Prod.mk.inj (Except.ok.inj h)).1]
      exact .nil
  | t :: ts, ts', n, h => by
      obtain ⟨⟨t', k⟩, ht, h⟩ := bind_eq_ok_iff.mp h
      obtain ⟨⟨rest, more⟩, hrest, h⟩ := bind_eq_ok_iff.mp h
      rw [← (Prod.mk.inj (Except.ok.inj h)).1]
      exact .cons ⟨k, ht⟩ (forall₂_of_fillTables hrest)

/-! ### The columns that columns become -/

@[simp] theorem tag_dropUnique (column : Element) : (dropUnique column).tag = column.tag := rfl

@[simp] theorem tag_setPlace (column : Element) (place : Nat) : (setPlace column place).tag = column.tag := rfl

theorem tag_of_setName {column column' : Element} {name : String} (h : setName column name = .ok column') :
    column'.tag = column.tag := by
  unfold setName at h
  split at h
  · rw [← Except.ok.inj h, Element.tag_set]
  · cases h

theorem tag_of_setNameTo {column column' : Element} {v : Value} (h : setNameTo column v = .ok column') :
    column'.tag = column.tag := by
  obtain ⟨name, -, h⟩ := bind_eq_ok_iff.mp h
  exact tag_of_setName h

theorem tags_of_furtherColumns : ∀ {vs : List Value} {column : Element} {place : Nat} {columns : List Element},
    furtherColumns column place vs = .ok columns → ∀ c ∈ columns, c.tag = column.tag
  | [], _, _, columns, h => by
      rw [← Except.ok.inj h]
      simp
  | v :: vs, column, place, columns, h => by
      obtain ⟨next, hnext, h⟩ := bind_eq_ok_iff.mp h
      obtain ⟨rest, hrest, h⟩ := bind_eq_ok_iff.mp h
      have tag : next.tag = column.tag := by
        rw [tag_of_setNameTo hnext, tag_setPlace, tag_dropUnique]
        exact Markup.tag_eq_of_meaning (Element.meaning_copy column)
      rw [← Except.ok.inj h]
      intro c hc
      rcases List.mem_cons.mp hc with rfl | hc
      · exact tag
      · exact (tags_of_furtherColumns hrest c hc).trans tag

theorem tag_of_fillName : ∀ {ps : List Placeholder} {name : String} {column column' : Element},
    fillName data ps name column = .ok column' → column'.tag = column.tag
  | [], _, _, _, h => by rw [← Except.ok.inj h]
  | p :: ps, name, column, column', h => by
      unfold fillName at h
      split at h
      · exact tag_of_fillName h
      · obtain ⟨new, -, h⟩ := bind_eq_ok_iff.mp h
        obtain ⟨next, hnext, h⟩ := bind_eq_ok_iff.mp h
        exact (tag_of_fillName h).trans (tag_of_setName hnext)

/-- The items that a column name is spread over: the parts of the sequence that its only placeholder asks for, which is
of the normal kind and spans the name. -/
def across? (data : Bindings) (name : String) : Option (List Value) :=
  match Placeholder.scan name with
  | [p] => if p.whole && p.isNormal then ((data.lookup p.name).bind Value.items?).map (data.parts p.key) else none
  | _ => none

theorem name_setPlace (column : Element) (place : Nat) :
    (setPlace column place).attributeOr "name" "" = column.attributeOr "name" "" := by
  unfold setPlace Element.attributeOr
  rw [Element.attribute?_set_ne column _ (by decide)]

/-- A column is spread over items, or the placeholders of its name are filled. -/
theorem fillColumn_cases (data : Bindings) (column : Element) (place : Nat) :
    (∃ items, across? data (column.attributeOr "name" "") = some items ∧
      fillColumn data column place = spreadColumn (setPlace column place) place items) ∨
    across? data (column.attributeOr "name" "") = none ∧
      fillColumn data column place = (fillName data (Placeholder.scan (column.attributeOr "name" ""))
        (column.attributeOr "name" "") (setPlace column place)).map fun c => [c] := by
  unfold fillColumn across?
  simp only [name_setPlace]
  generalize column.attributeOr "name" "" = name
  cases Placeholder.scan name with
  | nil => exact Or.inr ⟨rfl, rfl⟩
  | cons p ps =>
      cases ps with
      | cons q qs => exact Or.inr ⟨rfl, rfl⟩
      | nil =>
          cases whole : p.whole && p.isNormal with
          | false => simp [whole]
          | true =>
              cases items_eq : (data.lookup p.name).bind Value.items? with
              | none => simp [whole, items_eq]
              | some elements =>
                  exact Or.inl ⟨data.parts p.key elements, by simp [whole, items_eq], by simp [whole, items_eq]⟩

/-- A column becomes at least one column. -/
theorem spec_of_fillColumn {column : Element} {place : Nat} {columns : List Element}
    (h : fillColumn data column place = .ok columns) :
    1 ≤ columns.length ∧ ∀ c ∈ columns, c.tag = column.tag := by
  rcases fillColumn_cases data column place with ⟨items, -, spread⟩ | ⟨-, filled⟩
  · rw [spread] at h
    unfold spreadColumn at h
    cases items with
    | nil =>
        rw [← Except.ok.inj h]
        exact ⟨Nat.le_refl 1, by simp⟩
    | cons v vs =>
        obtain ⟨first, hfirst, h⟩ := bind_eq_ok_iff.mp h
        obtain ⟨rest, hrest, h⟩ := bind_eq_ok_iff.mp h
        have tag : first.tag = column.tag := (tag_of_setNameTo hfirst).trans (tag_setPlace column place)
        rw [← Except.ok.inj h]
        refine ⟨Nat.le_add_left 1 _, fun c hc => ?_⟩
        rcases List.mem_cons.mp hc with rfl | hc
        · exact tag
        · exact (tags_of_furtherColumns hrest c hc).trans tag
  · rw [filled] at h
    obtain ⟨c, hc, rfl⟩ := map_eq_ok_iff.mp h
    refine ⟨Nat.le_refl 1, fun d hd => ?_⟩
    rw [List.mem_singleton.mp hd]
    exact (tag_of_fillName hc).trans (tag_setPlace column place)

/-- Columns become at least as many columns. -/
theorem spec_of_fillColumns {tag : Markup.Tag} : ∀ {cs columns : List Element} {place : Nat},
    (∀ c ∈ cs, c.tag = tag) → fillColumns data place cs = .ok columns →
      cs.length ≤ columns.length ∧ ∀ c ∈ columns, c.tag = tag
  | [], columns, _, _, h => by
      rw [← Except.ok.inj h]
      simp
  | c :: cs, columns, place, tags, h => by
      obtain ⟨filled, hfilled, h⟩ := bind_eq_ok_iff.mp h
      obtain ⟨rest, hrest, h⟩ := bind_eq_ok_iff.mp h
      obtain ⟨len, own⟩ := spec_of_fillColumn hfilled
      obtain ⟨len', others⟩ := spec_of_fillColumns (fun d hd => tags d (List.mem_cons_of_mem c hd)) hrest
      rw [← Except.ok.inj h]
      refine ⟨by simp only [List.length_cons, List.length_append]; omega, fun d hd => ?_⟩
      rcases List.mem_append.mp hd with hd | hd
      · exact (own d hd).trans (tags c List.mem_cons_self)
      · exact others d hd

/-! ### Consistent tables -/

/-- The table with its list of columns replaced has the new list, and its range and filter stay. -/
theorem putColumns_spec {t : Table} {list : Element} (hlist : t.columns? = some list) (list' : Element)
    (tag : list'.tag = list.tag) :
    (putColumns t list').columns? = some list' ∧ (putColumns t list').filter? = t.filter? ∧
      (putColumns t list').ref = t.ref := by
  have keeps : ∀ c : Element, c.tag = Vocabulary.tableColumns → list'.tag = Vocabulary.tableColumns :=
    fun _ _ => tag.trans (Element.tag_of_child? hlist)
  exact ⟨Element.child?_changeChild keeps hlist, t.root.child?_changeChild_ne keeps (by decide), rfl⟩

/-- The list has the columns that it is given. -/
theorem length_listOf (t : Table) (list : Element) {columns : List Element}
    (tags : ∀ c ∈ columns, c.tag = Vocabulary.tableColumn) :
    ((listOf t list columns).childrenWith Vocabulary.tableColumn).length = columns.length := by
  have := congrArg List.length (Element.meaning_childrenWith_replaceContent [t.root.frame] list tags)
  rwa [List.length_map, List.length_map] at this

/-- The list has the names of the columns that it is given. -/
theorem names_listOf (t : Table) (list : Element) {columns : List Element}
    (tags : ∀ c ∈ columns, c.tag = Vocabulary.tableColumn) :
    ((listOf t list columns).childrenWith Vocabulary.tableColumn).map (·.attributeOr "name" "") =
      columns.map (·.attributeOr "name" "") := by
  have same := congrArg (List.map (·.attributeOr "name" ""))
    (Element.meaning_childrenWith_replaceContent [t.root.frame] list tags)
  unfold listOf
  simpa only [List.map_map, Function.comp_def, Element.attributeOr, Element.attribute?_meaning] using same

/-- The table lists the names of the columns that it is given. -/
theorem columnNames_of_headed {t t' : Table} {list : Element} {columns : List Element}
    (hlist : t.columns? = some list) (tags : ∀ c ∈ columns, c.tag = Vocabulary.tableColumn)
    (headed : Headed data t list columns t') : t'.columnNames = columns.map (·.attributeOr "name" "") := by
  cases headed with
  | same length =>
      obtain ⟨hcols, -, -⟩ := putColumns_spec hlist (listOf t list columns) rfl
      rw [Table.columnNames_of_columns? hcols, names_listOf t list tags]
  | @grown range wide count ref _ hrange hcount hwide href hset =>
      obtain ⟨hcols, -, -⟩ := putColumns_spec hlist ((listOf t list columns).set "count" count) rfl
      rw [← Table.columns?_of_setRef hset] at hcols
      rw [Table.columnNames_of_columns? hcols, Element.childrenWith_set, names_listOf t list tags]

/-- A consistent table is consistent after its column names were filled, if it and its filter stay within the
columns. -/
theorem consistent_of_fillTable {t t' : Table} {n : Nat} (h : fillTable data t = .ok (t', n))
    (ht : t.Consistent) (within : t'.WithinColumns) : t'.Consistent := by
  rcases fillTable_cases h with ⟨-, rfl⟩ | ⟨list, columns, hlist, hcolumns, headed⟩
  · exact ht
  · obtain ⟨len, tags⟩ := spec_of_fillColumns (fun c hc => Element.tag_of_mem_childrenWith hc) hcolumns
    have size := length_listOf t list tags
    cases headed with
    | same length =>
        obtain ⟨hcols, hfilter, href⟩ := putColumns_spec hlist (listOf t list columns) rfl
        refine ⟨?_, ?_, ?_⟩
        · rw [Table.range, href]
          exact ht.range
        · unfold Table.FilterReads
          rw [hfilter]
          exact ht.filter
        · intro l hl s hs
          rw [← Option.some.inj (hcols.symm.trans hl)] at hs ⊢
          rw [size, show columns.length = (list.childrenWith Vocabulary.tableColumn).length by omega]
          exact ht.columns list hlist s hs
    | @grown range wide count ref _ hrange hcount hwide href hset =>
        obtain ⟨hcols, hfilter, href'⟩ :=
          putColumns_spec hlist ((listOf t list columns).set "count" count) rfl
        obtain ⟨stop, hstop, hwide⟩ := bind_eq_ok_iff.mp hwide
        rw [← Except.ok.inj hwide] at href
        have hf : (putColumns t ((listOf t list columns).set "count" count)).FilterReads := by
          unfold Table.FilterReads
          rw [hfilter]
          exact ht.filter
        have hr : (putColumns t ((listOf t list columns).set "count" count)).range = .ok range := by
          rw [Table.range, href']
          exact hrange
        obtain ⟨reads, filter⟩ := Table.setRef_right hr hstop href hset within hf
        refine ⟨reads, filter, ?_⟩
        intro l hl s hs
        rw [Table.columns?_of_setRef hset, hcols] at hl
        rw [← Option.some.inj hl] at hs ⊢
        rw [Element.attribute?_set] at hs
        rw [← Option.some.inj hs, Element.childrenWith_set, size]
        exact parseInteger_of_write hcount

/-! ### Wider tables -/

/-- The range of the table reads, or it is written in columns that do not read. -/
def WrittenAs (t : Table) (r : CellRange) : Prop := t.range = .ok r ∨ (r.start.Wide ∧ r.stop.Wide) ∧ r.write = .ok t.ref

/-- Filling the column names of a table takes no cells from it: it may end further to the right, by the columns
that it lists more. -/
theorem writtenAs_of_fillTable {t t' : Table} {n : Nat} (h : fillTable data t = .ok (t', n)) {r : CellRange}
    (hr : t.range = .ok r) :
    ∃ r', WrittenAs t' r' ∧ r'.start = r.start ∧ r'.stop.row = r.stop.row ∧
      ∃ c added, r.stop.columnNumber = .ok c ∧ r'.stop.columnNumber = .ok (c + added) ∧
        t'.columnNames.length = t.columnNames.length + added := by
  have valid := CellRange.valid_of_parse hr
  obtain ⟨c, -, -, hc, -⟩ := valid.stop.columnNumber
  rcases fillTable_cases h with ⟨-, rfl⟩ | ⟨list, columns, hlist, hcolumns, headed⟩
  · exact ⟨r, Or.inl hr, rfl, rfl, c, 0, hc, hc, rfl⟩
  · obtain ⟨more, tags⟩ := spec_of_fillColumns (fun c hc => Element.tag_of_mem_childrenWith hc) hcolumns
    rw [Table.columnNames_of_columns? hlist, columnNames_of_headed hlist tags headed, List.length_map,
      List.length_map]
    cases headed with
    | same length =>
        obtain ⟨-, -, href⟩ := putColumns_spec hlist (listOf t list columns) rfl
        exact ⟨r, Or.inl (by rw [Table.range, href]; exact hr), rfl, rfl, c, 0, hc, hc, by omega⟩
    | @grown range wide count ref _ hrange hcount hwide href hset =>
        obtain rfl : range = r := Except.ok.inj (hrange.symm.trans hr)
        obtain ⟨stop, hstop, hwide⟩ := bind_eq_ok_iff.mp hwide
        obtain ⟨hc', wide', hrow, -⟩ := Table.right_eq valid.stop hc hstop
        rw [← Except.ok.inj hwide] at href
        refine ⟨⟨range.start, stop⟩, Or.inr ⟨⟨valid.start.wide, wide'⟩, ?_⟩, rfl, hrow, c, _, hc, hc', by omega⟩
        rw [Table.ref_of_setRef hset]
        exact href

end Gridfill.Header

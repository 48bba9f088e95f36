import Gridfill.Proofs.Sheet.Displays
import Gridfill.Proofs.Sheet.Header
import Gridfill.Proofs.Text.Pieces

/-!
# The names that the columns of a table get

A name is filled like the text of a cell: its placeholders are overwritten one after the other (`filledText`), and a
name that is nothing but a placeholder of a sequence becomes one name for each element (`newNames`). These are the
names that the table lists afterwards, unless a sequence without elements leaves a name as it is
(`columnNames_of_fillTable`).
-/

namespace Gridfill

open Markup (Element)
open Expand (laidOut)

namespace Header

variable {data : Bindings}

/-! ### Names -/

/-- The text with placeholders overwritten one after the other by the texts of their values. -/
def filledText (data : Bindings) : List Placeholder → String → String
  | [], text => text
  | p :: ps, text =>
    match data.find? p.name p.key with
    | none => filledText data ps text
    | some v => filledText data ps (String.ofList (Text.replaceFirst p.raw.toList v.wording.toList text.toList))

/-- The parts of the elements of the sequence that a text asks for when it is nothing but a placeholder of it. -/
def sequence? (data : Bindings) (text : String) : Option (List Value) :=
  match Placeholder.scan text with
  | [p] => p.layout? data
  | _ => none

/-- The names that a name becomes: one for each element of a sequence, and otherwise the name with its placeholders
overwritten. -/
def newNames (data : Bindings) (name : String) : List String :=
  match sequence? data name with
  | some items => (laidOut items).map Value.wording
  | none => [filledText data (Placeholder.scan name) name]

/-- The placeholders of a name are of the normal kind, and the values of one that is the whole name go into cells as
texts. -/
structure Worded (data : Bindings) (name : String) : Prop where
  normal : ∀ p ∈ Placeholder.scan name, p.isNormal = true
  words : ∀ p ∈ Placeholder.scan name, p.whole = true → ∀ values ∈ p.values? data, ∀ v ∈ values, v.InWords

instance (data : Bindings) (name : String) : Decidable (Worded data name) :=
  decidable_of_iff ((∀ p ∈ Placeholder.scan name, p.isNormal = true) ∧
      ∀ p ∈ Placeholder.scan name, p.whole = true → ∀ values ∈ p.values? data, ∀ v ∈ values, v.InWords)
    ⟨fun h => ⟨h.1, h.2⟩, fun h => ⟨h.normal, h.words⟩⟩

theorem isTable_of_isNormal {p : Placeholder} (h : p.isNormal = true) : p.isTable = false := by
  have kind : p.kind = "normal" := of_decide_eq_true h
  unfold Placeholder.isTable
  rw [kind]
  decide

theorem sequence?_of_scan (data : Bindings) {name : String} {p : Placeholder} (scan : Placeholder.scan name = [p]) :
    sequence? data name = p.layout? data := by
  unfold sequence?
  rw [scan]

theorem newNames_of_sequence? {name : String} {items : List Value} (h : sequence? data name = some items) :
    newNames data name = (laidOut items).map Value.wording := by
  unfold newNames
  rw [h]

theorem newNames_of_none {name : String} (h : sequence? data name = none) :
    newNames data name = [filledText data (Placeholder.scan name) name] := by
  unfold newNames
  rw [h]

/-! ### The names of columns -/

theorem name_of_setName {column column' : Element} {name : String} (h : setName column name = .ok column') :
    column'.attributeOr "name" "" = name := by
  unfold setName at h
  split at h
  · rw [← Except.ok.inj h]
    exact column.attributeOr_set "name" name ""
  · cases h

theorem name_of_setNameTo {column column' : Element} {v : Value} (h : setNameTo column v = .ok column') :
    column'.attributeOr "name" "" = v.wording := by
  obtain ⟨name, hname, h⟩ := bind_eq_ok_iff.mp h
  rw [name_of_setName h, Value.wording_of_toText hname]

theorem name_of_fillName {ps : List Placeholder} {name : String} {column column' : Element}
    (h : fillName data ps name column = .ok column') (own : column.attributeOr "name" "" = name) :
    column'.attributeOr "name" "" = filledText data ps name := by
  induction ps generalizing name column with
  | nil =>
      rw [← Except.ok.inj h]
      exact own
  | cons p ps ih =>
      unfold fillName at h
      unfold filledText
      cases found : data.find? p.name p.key with
      | none =>
          rw [found] at h
          exact ih h own
      | some v =>
          rw [found] at h
          obtain ⟨new, hnew, h⟩ := bind_eq_ok_iff.mp h
          obtain ⟨next, hnext, h⟩ := bind_eq_ok_iff.mp h
          obtain rfl := Value.wording_of_toText hnew
          exact ih h (name_of_setName hnext)

theorem names_of_furtherColumns {vs : List Value} {column : Element} {place : Nat} {columns : List Element}
    (h : furtherColumns column place vs = .ok columns) :
    columns.map (·.attributeOr "name" "") = vs.map Value.wording := by
  induction vs generalizing column place columns with
  | nil =>
      rw [← Except.ok.inj h]
      rfl
  | cons v vs ih =>
      obtain ⟨next, hnext, h⟩ := bind_eq_ok_iff.mp h
      obtain ⟨rest, hrest, h⟩ := bind_eq_ok_iff.mp h
      rw [← Except.ok.inj h, List.map_cons, List.map_cons, name_of_setNameTo hnext, ih hrest]

theorem names_of_spreadColumn {items : List Value} {column : Element} {place : Nat} {columns : List Element}
    (full : items ≠ []) (h : spreadColumn column place items = .ok columns) :
    columns.map (·.attributeOr "name" "") = (laidOut items).map Value.wording := by
  cases items with
  | nil => exact absurd rfl full
  | cons v vs =>
      obtain ⟨first, hfirst, h⟩ := bind_eq_ok_iff.mp h
      obtain ⟨rest, hrest, h⟩ := bind_eq_ok_iff.mp h
      rw [← Except.ok.inj h, List.map_cons, name_of_setNameTo hfirst, names_of_furtherColumns hrest]
      rfl

/-- What a column name is spread over is laid out in the place of its placeholder. -/
theorem layout?_of_across? {name : String} {items : List Value} (h : across? data name = some items) :
    ∃ p, Placeholder.scan name = [p] ∧ p.isNormal = true ∧ p.layout? data = some items := by
  unfold across? at h
  split at h
  · next p scan =>
    split at h
    · next both =>
      obtain ⟨whole, normal⟩ := Bool.and_eq_true_iff.mp both
      refine ⟨p, scan, normal, ?_⟩
      rw [Placeholder.layout?, whole, normal, Bool.or_true, Bool.true_and, if_pos rfl, h]
    · cases h
  · cases h

/-- A column becomes columns with the names that its name becomes, unless it asks for a sequence without elements. -/
theorem names_of_fillColumn {column : Element} {place : Nat} {columns : List Element}
    (h : fillColumn data column place = .ok columns)
    (normal : ∀ p ∈ Placeholder.scan (column.attributeOr "name" ""), p.isNormal = true)
    (full : sequence? data (column.attributeOr "name" "") ≠ some []) :
    columns.map (·.attributeOr "name" "") = newNames data (column.attributeOr "name" "") := by
  rcases fillColumn_cases data column place with ⟨items, across, spread⟩ | ⟨other, filled⟩
  · obtain ⟨p, scan, -, layout⟩ := layout?_of_across? across
    have sequence := (sequence?_of_scan data scan).trans layout
    rw [newNames_of_sequence? sequence]
    rw [spread] at h
    apply names_of_spreadColumn _ h
    rintro rfl
    exact full sequence
  · rw [filled] at h
    obtain ⟨c, hc, rfl⟩ := map_eq_ok_iff.mp h
    -- placeholders of the normal kind are laid out in cells as they are spread over columns
    have sequence : sequence? data (column.attributeOr "name" "") = none := by
      unfold sequence?
      unfold across? at other
      split
      · next p scan =>
        have kind := normal p (by rw [scan]; exact List.mem_singleton_self p)
        simp only [scan, kind, Bool.and_true] at other
        rw [Placeholder.layout?, kind, Bool.or_true, Bool.and_true, other]
      · rfl
    rw [List.map_singleton, name_of_fillName hc (name_setPlace column place), newNames_of_none sequence]

theorem names_of_fillColumns {cs columns : List Element} {place : Nat}
    (h : fillColumns data place cs = .ok columns)
    (normal : ∀ name ∈ cs.map (·.attributeOr "name" ""), ∀ p ∈ Placeholder.scan name, p.isNormal = true)
    (full : ∀ name ∈ cs.map (·.attributeOr "name" ""), sequence? data name ≠ some []) :
    columns.map (·.attributeOr "name" "") = (cs.map (·.attributeOr "name" "")).flatMap (newNames data) := by
  induction cs generalizing place columns with
  | nil =>
      rw [← Except.ok.inj h]
      rfl
  | cons c cs ih =>
      obtain ⟨filled, hfilled, h⟩ := bind_eq_ok_iff.mp h
      obtain ⟨rest, hrest, h⟩ := bind_eq_ok_iff.mp h
      rw [List.map_cons, List.forall_mem_cons] at normal full
      have first := names_of_fillColumn hfilled normal.1 full.1
      have others := ih hrest normal.2 full.2
      rw [← Except.ok.inj h, List.map_append, first, others, List.map_cons, List.flatMap_cons]

/-- The table lists the names that its names become. -/
theorem columnNames_of_fillTable {t t' : Table} {n : Nat} (h : fillTable data t = .ok (t', n))
    (normal : ∀ name ∈ t.columnNames, ∀ p ∈ Placeholder.scan name, p.isNormal = true)
    (full : ∀ name ∈ t.columnNames, sequence? data name ≠ some []) :
    t'.columnNames = t.columnNames.flatMap (newNames data) := by
  rcases fillTable_cases h with ⟨none, rfl⟩ | ⟨list, columns, hlist, hcolumns, headed⟩
  · unfold Table.columnNames
    rw [none]
    rfl
  · obtain ⟨-, tags⟩ := spec_of_fillColumns (fun c hc => Element.tag_of_mem_childrenWith hc) hcolumns
    rw [Table.columnNames_of_columns? hlist] at normal full ⊢
    rw [columnNames_of_headed hlist tags headed]
    exact names_of_fillColumns hcolumns normal full

end Header
end Gridfill

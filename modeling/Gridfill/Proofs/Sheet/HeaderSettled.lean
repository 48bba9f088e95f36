import Gridfill.Proofs.Sheet.Completes
import Gridfill.Proofs.Sheet.Still

/-!
# Column names that values complete

When the values complete the names of the columns of a table, a pass leaves no name that another one would fill: each is
bare, or asks for a sequence without elements, or for one that no column is spread over (`stays_of_fillTable`). The
columns stand in the list by their places, and nothing else does (`inPlace_of_fillTable`).
-/

namespace Gridfill

open Markup (Element Node)
open Placeholder (Bare)
open Expand (laidOut)

/-- The value of a placeholder in a text that the values complete is bare, unless elements are put side by side in the
place of the placeholder. -/
theorem Completes.bare_of_find? {data : Bindings} {text : String} (h : Completes data text) {p : Placeholder}
    (hp : p ∈ Placeholder.scan text) (below : ∀ items, p.layout? data = some items → p.isTable = true) {v : Value}
    (found : data.find? p.name p.key = some v) : Bare v.wording := by
  cases layout : p.layout? data with
  | none =>
      obtain ⟨u, hu, bare⟩ := h.find? hp layout
      rwa [Option.some.inj (found.symm.trans hu)]
  | some items =>
      refine h.bare p hp v ?_
      simp only [Placeholder.rendered, layout, below items layout, if_true, found]
      exact List.mem_append_right _ (List.mem_singleton_self v)

namespace Header

variable {data : Bindings}

/-! ### Names -/

theorem stays_of_bare {name : String} (h : Bare name) : Stays data name := by
  have none : across? data name = none := by
    unfold across?
    rw [h.scan_eq_nil]
  unfold Stays
  rw [none, h.scan_eq_nil]
  exact fun _ hp => by cases hp

/-- A name whose placeholders are overwritten stays from then on. -/
theorem stays_of_filledText {name filled : String} (completes : Completes data name) (none : across? data name = none)
    (h : filled = filledText data (Placeholder.scan name) name) : Stays data filled := by
  -- what is laid out is laid out downwards, as the name would be spread over the elements otherwise
  have below : ∀ p ∈ Placeholder.scan name, ∀ items, p.layout? data = some items → p.isTable = true := by
    intro p hp items layout
    obtain ⟨whole, kind, v, elements, hv, hitems, -⟩ := Placeholder.exists_of_layout? layout
    have scan := Placeholder.scan_of_whole completes.inside hp whole
    rw [Bool.or_eq_true] at kind
    refine kind.resolve_right fun normal => ?_
    simp [across?, scan, whole, normal, hv, hitems] at none
  by_cases all : ∀ p ∈ Placeholder.scan name, (data.find? p.name p.key).isSome = true
  · have bare : Bare filled := by
      rw [h]
      refine completes.filledText fun p hp => ?_
      obtain ⟨v, hv⟩ := Option.isSome_iff_exists.mp (all p hp)
      exact ⟨v, hv, completes.bare_of_find? hp (below p hp) hv⟩
    exact stays_of_bare bare
  · -- a placeholder without a value is laid out in cells, so it is the whole name
    simp only [not_forall, Bool.not_eq_true, Option.isSome_eq_false_iff, Option.isNone_iff_eq_none] at all
    obtain ⟨p, hp, unbound⟩ := all
    have resolves := completes.resolves p hp
    rw [Placeholder.resolves, unbound, Option.isSome_none, Bool.or_false] at resolves
    obtain ⟨items, layout⟩ := Option.isSome_iff_exists.mp resolves
    have scan := Placeholder.scan_of_whole completes.inside hp (Placeholder.exists_of_layout? layout).1
    have same : filled = name := by
      rw [h, scan]
      simp only [filledText, unbound]
    rw [same]
    unfold Stays
    rw [none, scan]
    intro q hq
    rwa [List.mem_singleton.mp hq]

/-- The columns that a column becomes have names that stay. -/
theorem stays_of_fillColumn {column : Element} {place : Nat} {columns : List Element}
    (h : fillColumn data column place = .ok columns) (completes : Completes data (column.attributeOr "name" "")) :
    ∀ c ∈ columns, Stays data (c.attributeOr "name" "") := by
  intro c hc
  rcases fillColumn_cases data column place with ⟨items, across, spread⟩ | ⟨none, filled⟩
  · rw [spread] at h
    by_cases empty : items = []
    · rw [empty, spreadColumn] at h
      rw [← Except.ok.inj h] at hc
      rw [List.mem_singleton.mp hc, name_setPlace]
      unfold Stays
      rw [across]
      exact empty
    · obtain ⟨p, scan, normal, layout⟩ := layout?_of_across? across
      have rendered := completes.bare p (by rw [scan]; exact List.mem_singleton_self p)
      simp only [Placeholder.rendered, layout, isTable_of_isNormal normal, Bool.false_eq_true, if_false] at rendered
      have name := List.mem_map_of_mem (f := fun c : Element => c.attributeOr "name" "") hc
      rw [names_of_spreadColumn empty h] at name
      obtain ⟨v, hv, shown⟩ := List.mem_map.mp name
      rw [← shown]
      refine stays_of_bare (rendered v ?_)
      unfold laidOut at hv
      rwa [if_neg (by simpa using empty)] at hv
  · rw [filled] at h
    obtain ⟨d, hd, rfl⟩ := map_eq_ok_iff.mp h
    rw [List.mem_singleton.mp hc]
    exact stays_of_filledText completes none (name_of_fillName hd (name_setPlace column place))

theorem stays_of_fillColumns : ∀ {cs columns : List Element} {place : Nat}, fillColumns data place cs = .ok columns →
    (∀ c ∈ cs, Completes data (c.attributeOr "name" "")) → ∀ c ∈ columns, Stays data (c.attributeOr "name" "")
  | [], _, _, h, _ => by
      rw [← Except.ok.inj h]
      simp
  | c :: cs, columns, place, h, completes => by
      obtain ⟨filled, hfilled, h⟩ := bind_eq_ok_iff.mp h
      obtain ⟨rest, hrest, h⟩ := bind_eq_ok_iff.mp h
      rw [← Except.ok.inj h]
      intro d hd
      rcases List.mem_append.mp hd with hd | hd
      · exact stays_of_fillColumn hfilled (completes c List.mem_cons_self) d hd
      · exact stays_of_fillColumns hrest (fun e he => completes e (List.mem_cons_of_mem c he)) d hd

/-- Filling the names of a table leaves names that stay. -/
theorem stays_of_fillTable {t t' : Table} {n : Nat} (h : fillTable data t = .ok (t', n))
    (completes : ∀ name ∈ t.columnNames, Completes data name) : ∀ name ∈ t'.columnNames, Stays data name := by
  rcases fillTable_cases h with ⟨none, rfl⟩ | ⟨list, columns, hlist, hcolumns, headed⟩
  · intro name hname
    unfold Table.columnNames at hname
    rw [none] at hname
    cases hname
  · obtain ⟨-, tags⟩ := spec_of_fillColumns (fun c hc => Element.tag_of_mem_childrenWith hc) hcolumns
    rw [Table.columnNames_of_columns? hlist] at completes
    rw [columnNames_of_headed hlist tags headed]
    intro name hname
    obtain ⟨c, hc, rfl⟩ := List.mem_map.mp hname
    exact stays_of_fillColumns hcolumns (fun d hd => completes _ (List.mem_map_of_mem hd)) c hc

/-! ### Places -/

theorem writes_setName {column column' : Element} {name label value : String} (h : setName column name = .ok column')
    (written : column.Writes label value) (own : label ≠ "name") : column'.Writes label value := by
  unfold setName at h
  split at h
  · rw [← Except.ok.inj h]
    exact written.set_ne own name
  · cases h

theorem writes_setNameTo {column column' : Element} {v : Value} {label value : String}
    (h : setNameTo column v = .ok column') (written : column.Writes label value) (own : label ≠ "name") :
    column'.Writes label value := by
  obtain ⟨name, -, h⟩ := bind_eq_ok_iff.mp h
  exact writes_setName h written own

theorem writes_fillName {label value : String} (own : label ≠ "name") : ∀ {ps : List Placeholder} {name : String}
    {column column' : Element}, fillName data ps name column = .ok column' → column.Writes label value →
      column'.Writes label value
  | [], _, _, _, h, written => by rwa [← Except.ok.inj h]
  | p :: ps, name, column, column', h, written => by
      unfold fillName at h
      split at h
      · exact writes_fillName own h written
      · obtain ⟨new, -, h⟩ := bind_eq_ok_iff.mp h
        obtain ⟨next, hnext, h⟩ := bind_eq_ok_iff.mp h
        exact writes_fillName own h (writes_setName hnext written own)

/-- The columns are written with the places from one on. -/
def Placed (place : Nat) (columns : List Element) : Prop :=
  ∀ (i : Nat) (column : Element), columns[i]? = some column → column.Writes "id" (toString (place + i))

theorem placed_cons {place : Nat} {c : Element} {cs : List Element} (h : c.Writes "id" (toString place))
    (rest : Placed (place + 1) cs) : Placed place (c :: cs) := by
  intro i column hi
  cases i with
  | zero => rwa [← Option.some.inj hi]
  | succ i =>
      have := rest i column hi
      rwa [Nat.add_right_comm] at this

theorem placed_append {place : Nat} {cs ds : List Element} (h : Placed place cs)
    (rest : Placed (place + cs.length) ds) : Placed place (cs ++ ds) := by
  intro i column hi
  rcases Nat.lt_or_ge i cs.length with lt | ge
  · rw [List.getElem?_append_left lt] at hi
    exact h i column hi
  · rw [List.getElem?_append_right ge] at hi
    have := rest _ column hi
    rwa [Nat.add_assoc, Nat.add_sub_cancel' ge] at this

theorem placed_nil (place : Nat) : Placed place [] := fun _ _ hi => by cases hi

theorem placed_singleton {place : Nat} {c : Element} (h : c.Writes "id" (toString place)) : Placed place [c] :=
  placed_cons h (placed_nil _)

theorem placed_furtherColumns : ∀ {vs : List Value} {column : Element} {place : Nat} {columns : List Element},
    furtherColumns column place vs = .ok columns → Placed (place + 1) columns
  | [], _, place, columns, h => by
      rw [← Except.ok.inj h]
      exact placed_nil _
  | v :: vs, column, place, columns, h => by
      obtain ⟨next, hnext, h⟩ := bind_eq_ok_iff.mp h
      obtain ⟨rest, hrest, h⟩ := bind_eq_ok_iff.mp h
      rw [← Except.ok.inj h]
      exact placed_cons (writes_setNameTo hnext (Element.writes_set _ _ _) (by decide)) (placed_furtherColumns hrest)

theorem placed_fillColumn {column : Element} {place : Nat} {columns : List Element}
    (h : fillColumn data column place = .ok columns) : Placed place columns := by
  have own : (setPlace column place).Writes "id" (toString place) := Element.writes_set _ _ _
  rcases fillColumn_cases data column place with ⟨items, -, spread⟩ | ⟨-, filled⟩
  · rw [spread] at h
    cases items with
    | nil =>
        rw [← Except.ok.inj h]
        exact placed_singleton own
    | cons v vs =>
        obtain ⟨first, hfirst, h⟩ := bind_eq_ok_iff.mp h
        obtain ⟨rest, hrest, h⟩ := bind_eq_ok_iff.mp h
        rw [← Except.ok.inj h]
        exact placed_cons (writes_setNameTo hfirst own (by decide)) (placed_furtherColumns hrest)
  · rw [filled] at h
    obtain ⟨c, hc, rfl⟩ := map_eq_ok_iff.mp h
    exact placed_singleton (writes_fillName (by decide) hc own)

theorem placed_fillColumns : ∀ {cs columns : List Element} {place : Nat}, fillColumns data place cs = .ok columns →
    Placed (place + 1) columns
  | [], _, _, h => by
      rw [← Except.ok.inj h]
      exact placed_nil _
  | c :: cs, columns, place, h => by
      obtain ⟨filled, hfilled, h⟩ := bind_eq_ok_iff.mp h
      obtain ⟨rest, hrest, h⟩ := bind_eq_ok_iff.mp h
      rw [← Except.ok.inj h]
      refine placed_append (placed_fillColumn hfilled) ?_
      rw [Nat.add_right_comm]
      exact placed_fillColumns hrest

/-- The list of columns that a table is given holds them by their places, and nothing else. -/
theorem listOf_spec (t : Table) (list : Element) {columns : List Element}
    (tags : ∀ c ∈ columns, c.tag = Vocabulary.tableColumn) (placed : Placed 1 columns) :
    (listOf t list columns).HoldsOnly Vocabulary.tableColumn ∧
      Placed 1 ((listOf t list columns).childrenWith Vocabulary.tableColumn) := by
  refine ⟨Element.holdsOnly_replaceContent _ _ tags, fun i column hi => ?_⟩
  have means := congrArg (·[i]?) (Element.meaning_childrenWith_replaceContent [t.root.frame] list tags)
  have hi : ((list.replaceContent [t.root.frame] (columns.map Node.element)).childrenWith
    Vocabulary.tableColumn)[i]? = some column := hi
  simp only [List.getElem?_map, hi, Option.map_some] at means
  obtain ⟨c, hc, same⟩ := Option.map_eq_some_iff.mp means.symm
  exact Element.writes_of_meaning same (placed i c hc)

/-- The range of a table whose names were filled reads as long as it is within the columns. -/
theorem range_of_fillTable {t t' : Table} {n : Nat} (h : fillTable data t = .ok (t', n)) {list : Element}
    (hlist : t'.columns? = some list) (within : WithinColumns t'.ref) : ∃ range, t'.range = .ok range := by
  have before {l : Element} (hl : t.columns? = some l) : ∃ range, t.range = .ok range := by
    unfold fillTable at h
    rw [hl] at h
    obtain ⟨range, hrange, -⟩ := bind_eq_ok_iff.mp h
    exact ⟨range, hrange⟩
  rcases fillTable_cases h with ⟨none, rfl⟩ | ⟨own, columns, hown, -, headed⟩
  · rw [none] at hlist
    cases hlist
  · cases headed with
    | same length =>
        obtain ⟨-, -, href⟩ := putColumns_spec hown (listOf t own columns) rfl
        obtain ⟨range, hrange⟩ := before hown
        exact ⟨range, by rw [Table.range, href]; exact hrange⟩
    | @grown range wide count ref _ hrange hcount hwide href hset =>
        obtain ⟨stop, hstop, hwide⟩ := bind_eq_ok_iff.mp hwide
        have valid := CellRange.valid_of_parse hrange
        obtain ⟨c, -, -, hc, -⟩ := valid.stop.columnNumber
        obtain ⟨-, wide', -, sheet⟩ := Table.right_eq valid.stop hc hstop
        rw [← Except.ok.inj hwide] at href
        obtain ⟨-, -, rfl⟩ := CellRange.write_eq_ok_iff.mp href
        have own := Table.ref_of_setRef hset
        rw [own] at within
        obtain ⟨-, reads⟩ := CellRange.parse_of_withinColumns (r := ⟨range.start, stop⟩) valid.start.wide wide'
          (sheet.trans valid.stop_sheet) within
        exact ⟨_, by rw [Table.range, own]; exact reads⟩

/-- A table whose names were filled has its columns in place. -/
theorem inPlace_of_fillTable {t t' : Table} {n : Nat} (h : fillTable data t = .ok (t', n))
    (within : WithinColumns t'.ref) : ∀ list, t'.columns? = some list → t'.InPlace list := by
  intro list hlist
  have range := range_of_fillTable h hlist within
  rcases fillTable_cases h with ⟨none, rfl⟩ | ⟨own, columns, hown, hcolumns, headed⟩
  · rw [none] at hlist
    cases hlist
  · obtain ⟨-, tags⟩ := spec_of_fillColumns (fun c hc => Element.tag_of_mem_childrenWith hc) hcolumns
    obtain ⟨only, placed⟩ := listOf_spec t own tags (placed_fillColumns hcolumns)
    have places {l : Element} (hl : l.childrenWith Vocabulary.tableColumn =
        (listOf t own columns).childrenWith Vocabulary.tableColumn) (i : Nat) (column : Element)
        (hi : (l.childrenWith Vocabulary.tableColumn)[i]? = some column) : column.Writes "id" (toString (i + 1)) := by
      rw [hl] at hi
      rw [Nat.add_comm]
      exact placed i column hi
    cases headed with
    | same length =>
        obtain ⟨hcols, -, -⟩ := putColumns_spec hown (listOf t own columns) rfl
        obtain rfl := Option.some.inj (hcols.symm.trans hlist)
        exact ⟨range, Element.content_of_holdsOnly only, places rfl⟩
    | @grown _ wide count ref _ hrange hcount hwide href hset =>
        obtain ⟨hcols, -, -⟩ := putColumns_spec hown ((listOf t own columns).set "count" count) rfl
        rw [← Table.columns?_of_setRef hset] at hcols
        obtain rfl := Option.some.inj (hcols.symm.trans hlist)
        have only : ((listOf t own columns).set "count" count).HoldsOnly Vocabulary.tableColumn := only
        exact ⟨range, Element.content_of_holdsOnly only, places rfl⟩

end Header
end Gridfill

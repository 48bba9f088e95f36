import Gridfill.Proofs.Markup.Editing
import Gridfill.Proofs.Outcome
import Gridfill.Proofs.Reference.Range
import Gridfill.Proofs.Sheet.Growth
import Gridfill.Sheet.Shift

/-!
# How a table follows the rows

A table whose range is moved or grown downwards starts where it is told to start, keeps its list of
columns, and has a filter that still reads (`setRef_down`). `Follows` says this of any number of such
changes, the start moving by a function of its row.
-/

namespace Gridfill

open Markup (Element)

namespace Table

/-! ### Setting the range -/

@[simp] theorem ref_putRef (t : Table) (ref : String) : (t.putRef ref).ref = ref :=
  Element.attributeOr_set t.root "ref" ref ""

/-- What setting the range of a table comes to: its filter follows if it has one. -/
theorem setRef_cases {t t' : Table} {ref : String} (h : t.setRef ref = .ok t') :
    (t.filter? = none ∧ t' = t.putRef ref) ∨
    ∃ filter moved, t.filter? = some filter ∧ filterRef t.ref ref filter = .ok moved ∧
      t' = ⟨t.path, (t.putRef ref).root.changeChild Vocabulary.autoFilter (·.set "ref" moved)⟩ := by
  unfold setRef at h
  cases hf : t.filter? with
  | none =>
      rw [hf] at h
      exact Or.inl ⟨rfl, (Except.ok.inj h).symm⟩
  | some filter =>
      rw [hf] at h
      obtain ⟨moved, hm, h⟩ := bind_eq_ok_iff.mp h
      exact Or.inr ⟨filter, moved, rfl, hm, (Except.ok.inj h).symm⟩

section
variable {t t' : Table} {ref : String} (h : t.setRef ref = .ok t')
include h

theorem ref_of_setRef : t'.ref = ref := by
  rcases setRef_cases h with ⟨-, rfl⟩ | ⟨filter, moved, -, -, rfl⟩
  · exact t.ref_putRef ref
  · exact t.ref_putRef ref

theorem path_of_setRef : t'.path = t.path := by
  rcases setRef_cases h with ⟨-, rfl⟩ | ⟨filter, moved, -, -, rfl⟩
  · rfl
  · rfl

theorem columns?_of_setRef : t'.columns? = t.columns? := by
  rcases setRef_cases h with ⟨-, rfl⟩ | ⟨filter, moved, -, -, rfl⟩
  · rfl
  · exact (t.putRef ref).root.child?_changeChild_ne (fun _ hc => hc) (by decide)

end

/-! ### The names of the columns -/

/-- The names of the columns that the table lists. -/
def columnNames (t : Table) : List String :=
  t.columns?.elim [] fun list => (list.childrenWith Vocabulary.tableColumn).map (·.attributeOr "name" "")

theorem columnNames_of_columns? {t : Table} {list : Element} (h : t.columns? = some list) :
    t.columnNames = (list.childrenWith Vocabulary.tableColumn).map (·.attributeOr "name" "") := by
  rw [columnNames, h, Option.elim_some]

/-! ### Corners -/

/-- A range is not read from a text without characters. -/
theorem ne_empty_of_parse {s : String} {r : CellRange} (h : CellRange.parse s = .ok r) : s ≠ "" := by
  rintro rfl
  cases h

/-- A corner of the filter moves by as many rows as the corner of the table, and stays in its column when
that corner does. -/
theorem moveCorner_down {old new corner : CellRef} (hold : old.Valid) (hnew : new.column = old.column)
    (hcorner : corner.Valid) :
    moveCorner old new corner = .ok (corner.down (new.row - old.row)) := by
  obtain ⟨n, -, -, hn, -⟩ := hold.columnNumber
  have hn' : new.columnNumber = .ok n := by rw [CellRef.columnNumber, hnew, ← CellRef.columnNumber, hn]
  obtain ⟨k, hk1, hk2, -, hc⟩ := hcorner.columnNumber
  have hcol : (corner.down (new.row - old.row)).columnNumber = .ok k := by
    rw [CellRef.columnNumber, CellRef.down, hc, Reference.columnNumber_columnLetters hk1]
  rw [moveCorner, hn', hn]
  show (corner.down (new.row - old.row)).right ((n : Int) - n) = _
  rw [Int.sub_self, CellRef.right, hcol]
  show (Reference.columnName ((k : Int) + 0) >>= fun column => _) = _
  rw [Int.add_zero, Reference.columnName_ofNat hk1, ← hc]
  rfl

/-- The filter of the table, if it has one, has a range that reads. -/
def FilterReads (t : Table) : Prop :=
  ∀ f, t.filter? = some f → ∃ r, CellRange.parse (f.attributeOr "ref" "") = .ok r

/-- The filter of a table whose range was set: its corners moved like those of the table, and were written. -/
theorem exists_filter_of_setRef {t t' : Table} {r : CellRange} {f : Element} {ref : String} (hr : t.range = .ok r)
    (hf : t.filter? = some f) (own : f.attributeOr "ref" "" ≠ "") (h : t.setRef ref = .ok t') :
    ∃ f' after fr start stop, t'.filter? = some f' ∧ CellRange.parse ref = .ok after ∧
      CellRange.parse (f.attributeOr "ref" "") = .ok fr ∧
      moveCorner r.start after.start fr.start = .ok start ∧ moveCorner r.stop after.stop fr.stop = .ok stop ∧
      CellRange.write ⟨start, stop⟩ = .ok (f'.attributeOr "ref" "") := by
  rcases setRef_cases h with ⟨hn, -⟩ | ⟨filter, moved, hs, hm, rfl⟩
  · rw [hf] at hn
    cases hn
  · obtain rfl : f = filter := Option.some.inj (hf.symm.trans hs)
    rw [filterRef, if_neg (by simp [ne_empty_of_parse hr, own])] at hm
    obtain ⟨before, hbefore, hm⟩ := bind_eq_ok_iff.mp hm
    obtain ⟨after, hafter, hm⟩ := bind_eq_ok_iff.mp hm
    obtain ⟨fr, hfr, hm⟩ := bind_eq_ok_iff.mp hm
    obtain ⟨target, htarget, hwritten⟩ := bind_eq_ok_iff.mp hm
    obtain rfl : r = before := Except.ok.inj (hr.symm.trans hbefore)
    obtain ⟨start, hstart, htarget⟩ := bind_eq_ok_iff.mp htarget
    obtain ⟨stop, hstop, hmade⟩ := bind_eq_ok_iff.mp htarget
    refine ⟨f.set "ref" moved, after, fr, start, stop, ?_, hafter, hfr, hstart, hstop, ?_⟩
    · exact Element.child?_changeChild (f := (·.set "ref" moved)) (fun _ hc => hc) hs
    · rw [Element.attributeOr_set, Except.ok.inj hmade]
      exact hwritten

/-- The filter that a table has after its range was set is one that the table had before. -/
theorem filter_of_setRef {t t' : Table} {r after : CellRange} {ref : String} (hr : t.range = .ok r)
    (hafter : CellRange.parse ref = .ok after) (h : t.setRef ref = .ok t') (hf : t.FilterReads) {f : Element}
    (hf' : t'.filter? = some f) :
    ∃ fr start stop, CellRange.Valid fr ∧ moveCorner r.start after.start fr.start = .ok start ∧
      moveCorner r.stop after.stop fr.stop = .ok stop ∧
      CellRange.write ⟨start, stop⟩ = .ok (f.attributeOr "ref" "") := by
  cases hs : t.filter? with
  | none =>
      rcases setRef_cases h with ⟨-, rfl⟩ | ⟨filter, -, hs', -⟩
      · have : (t.putRef ref).filter? = t.filter? := rfl
        rw [this, hs] at hf'
        cases hf'
      · rw [hs] at hs'
        cases hs'
  | some filter =>
      obtain ⟨own, hown⟩ := hf filter hs
      obtain ⟨f', after', fr, start, stop, hnew, hafter', hfr, hstart, hstop, hwritten⟩ :=
        exists_filter_of_setRef hr hs (ne_empty_of_parse hown) h
      obtain rfl : f' = f := Option.some.inj (hnew.symm.trans hf')
      obtain rfl : after' = after := Except.ok.inj (hafter'.symm.trans hafter)
      exact ⟨fr, start, stop, CellRange.valid_of_parse hfr, hstart, hstop, hwritten⟩

/-- A table whose corners are moved down reads with them, and its filter still reads. -/
theorem setRef_down {t t' : Table} {r : CellRange} (hr : t.range = .ok r) {a b : Int} (ha : 0 ≤ a)
    (hb : 0 ≤ b) {ref : String} (hw : CellRange.write ⟨r.start.down a, r.stop.down b⟩ = .ok ref)
    (h : t.setRef ref = .ok t') :
    t'.range = .ok (CellRange.normal ⟨r.start.down a, r.stop.down b⟩) ∧
      (t.FilterReads → t'.FilterReads) := by
  have valid := CellRange.valid_of_parse hr
  have hparse := CellRange.parse_of_write ⟨valid.start, valid.stop⟩ valid.stop_sheet
    (by have := valid.start.row_pos; omega) (by have := valid.stop.row_pos; omega) hw
  refine ⟨by rw [range, ref_of_setRef h, hparse], ?_⟩
  intro hf f hf'
  obtain ⟨fr, start, stop, fvalid, hstart, hstop, hwritten⟩ := filter_of_setRef hr hparse h hf hf'
  rw [moveCorner_down valid.start (by rfl) fvalid.start] at hstart
  rw [moveCorner_down valid.stop (by rfl) fvalid.stop] at hstop
  have rows (x k : Int) : x + k - x = k := by omega
  rw [← Except.ok.inj hstart, ← Except.ok.inj hstop] at hwritten
  simp only [CellRange.normal, CellRef.down, rows] at hwritten
  exact ⟨CellRange.normal ⟨fr.start.down a, fr.stop.down b⟩,
    CellRange.parse_of_write ⟨fvalid.start, fvalid.stop⟩ fvalid.stop_sheet
      (by have := fvalid.start.row_pos; omega) (by have := fvalid.stop.row_pos; omega) hwritten⟩

/-! ### Growing to the right -/

/-- The range of the table and that of its filter stay within the columns that can be read. -/
structure WithinColumns (t : Table) : Prop where
  ref : Gridfill.WithinColumns t.ref
  filter : ∀ f, t.filter? = some f → Gridfill.WithinColumns (f.attributeOr "ref" "")

/-- A valid reference that is moved to the right is in the column that is as many further. -/
theorem right_eq {r r' : CellRef} {n k : Nat} (hr : r.Valid) (hn : r.columnNumber = .ok n)
    (h : r.right k = .ok r') :
    r'.columnNumber = .ok (n + k) ∧ r'.Wide ∧ r'.row = r.row ∧ r'.sheet = r.sheet := by
  obtain ⟨m, h1, -, hm, -⟩ := hr.columnNumber
  obtain rfl : m = n := Except.ok.inj (hm.symm.trans hn)
  obtain ⟨m', hm', h⟩ := bind_eq_ok_iff.mp h
  obtain rfl : m = m' := Except.ok.inj (hm.symm.trans hm')
  obtain ⟨column, hcolumn, h⟩ := bind_eq_ok_iff.mp h
  rw [← Int.natCast_add, Reference.columnName_ofNat (by omega)] at hcolumn
  rw [← Except.ok.inj h, ← Except.ok.inj hcolumn]
  exact ⟨Reference.columnNumber_columnLetters (by omega), ⟨⟨m + k, by omega, rfl⟩, hr.row_pos, hr.row_lt⟩,
    rfl, rfl⟩

/-- A corner of the filter moves to the right by as many columns as the corner of the table. -/
theorem moveCorner_right {old new corner moved : CellRef} {n k : Nat} (hold : old.columnNumber = .ok n)
    (hnew : new.columnNumber = .ok (n + k)) (hrow : new.row = old.row) (hcorner : corner.Valid)
    (h : moveCorner old new corner = .ok moved) : moved.Wide ∧ moved.sheet = corner.sheet := by
  obtain ⟨c, -, -, hc, -⟩ := hcorner.columnNumber
  rw [moveCorner, hnew, hold, hrow] at h
  have same : (corner.down (old.row - old.row)).right (((n + k : Nat) : Int) - n) = corner.right k := by
    rw [Int.sub_self, CellRef.down_zero]
    congr 1
    omega
  obtain ⟨-, wide, -, sheet⟩ := right_eq hcorner hc (same.symm.trans h)
  exact ⟨wide, sheet⟩

/-- A table that grew to the right and stays within the columns reads, and so does its filter. -/
theorem setRef_right {t t' : Table} {r : CellRange} (hr : t.range = .ok r) {k : Nat} {stop : CellRef}
    (hstop : r.stop.right k = .ok stop) {ref : String} (hw : CellRange.write ⟨r.start, stop⟩ = .ok ref)
    (h : t.setRef ref = .ok t') (within : t'.WithinColumns) (hf : t.FilterReads) :
    (∃ r', t'.range = .ok r') ∧ t'.FilterReads := by
  have valid := CellRange.valid_of_parse hr
  obtain ⟨n, -, -, hn, -⟩ := valid.stop.columnNumber
  obtain ⟨hn', wide, hrow, hsheet⟩ := right_eq valid.stop hn hstop
  obtain ⟨-, -, rfl⟩ := CellRange.write_eq_ok_iff.mp hw
  have hwithin := within.ref
  rw [ref_of_setRef h] at hwithin
  obtain ⟨valid', hparse⟩ := CellRange.parse_of_withinColumns (r := ⟨r.start, stop⟩) valid.start.wide wide
    (hsheet.trans valid.stop_sheet) hwithin
  refine ⟨⟨_, by rw [range, ref_of_setRef h, hparse]⟩, ?_⟩
  intro f hf'
  have hwithin' := within.filter f hf'
  obtain ⟨fr, start, last, fvalid, hstart, hlast, hwritten⟩ := filter_of_setRef hr hparse h hf hf'
  rw [moveCorner_down valid.start (by rfl) fvalid.start] at hstart
  obtain ⟨wide', hsheet'⟩ := moveCorner_right hn hn' hrow fvalid.stop hlast
  have stays : fr.start.down (r.start.row - r.start.row) = fr.start := by
    rw [Int.sub_self, CellRef.down_zero]
  obtain rfl : fr.start = start := stays.symm.trans (Except.ok.inj hstart)
  obtain ⟨-, -, e⟩ := CellRange.write_eq_ok_iff.mp hwritten
  rw [e] at hwithin' ⊢
  obtain ⟨-, hread⟩ := CellRange.parse_of_withinColumns (r := ⟨fr.start, last⟩) fvalid.start.wide wide'
    (hsheet'.trans fvalid.stop_sheet) hwithin'
  exact ⟨_, hread⟩

/-! ### Following the rows -/

/-- The table starts where `moved` puts the row of its start, in its column, with its list of columns, and
it and its filter still read. It ends in its column and has at least as many rows. -/
structure Follows (moved : Int → Int) (t t' : Table) : Prop where
  path : t'.path = t.path
  start : ∀ r, t.range = .ok r → ∃ r', t'.range = .ok r' ∧ r'.start.row = moved r.start.row ∧
    r'.start.column = r.start.column
  stop : ∀ r r', t.range = .ok r → t'.range = .ok r' → r'.stop.column = r.stop.column ∧
    r.stop.row + (r'.start.row - r.start.row) ≤ r'.stop.row
  columns : t'.columns? = t.columns?
  filter : (∃ r, t.range = .ok r) → t.FilterReads → t'.FilterReads

/-- A table is of the same range as itself. -/
theorem Follows.of_eq {moved : Int → Int} (t : Table)
    (hmoved : ∀ r, t.range = .ok r → moved r.start.row = r.start.row) : Follows moved t t where
  path := rfl
  start r hr := ⟨r, hr, (hmoved r hr).symm, rfl⟩
  stop r r' hr hr' := by
    obtain rfl : r = r' := Except.ok.inj (hr.symm.trans hr')
    exact ⟨rfl, by omega⟩
  columns := rfl
  filter _ h := h

theorem Follows.refl (t : Table) : Follows id t t := .of_eq t fun _ _ => rfl

theorem Follows.trans {f g : Int → Int} {a b c : Table} (h : Follows f a b) (h' : Follows g b c) :
    Follows (g ∘ f) a c where
  path := h'.path.trans h.path
  start r hr := by
    obtain ⟨r', hr', hrow, hcol⟩ := h.start r hr
    obtain ⟨r'', hr'', hrow', hcol'⟩ := h'.start r' hr'
    exact ⟨r'', hr'', by rw [hrow', hrow, Function.comp], hcol'.trans hcol⟩
  stop r r'' hr hr'' := by
    obtain ⟨r', hr', -⟩ := h.start r hr
    obtain ⟨hcol, hrow⟩ := h.stop r r' hr hr'
    obtain ⟨hcol', hrow'⟩ := h'.stop r' r'' hr' hr''
    exact ⟨hcol'.trans hcol, by omega⟩
  columns := h'.columns.trans h.columns
  filter := by
    rintro ⟨r, hr⟩ hf
    obtain ⟨r', hr', -⟩ := h.start r hr
    exact h'.filter ⟨r', hr'⟩ (h.filter ⟨r, hr⟩ hf)

/-- The list of columns of the table has as many columns as it says. -/
def ColumnsAgree (t : Table) : Prop :=
  ∀ list, t.columns? = some list → ∀ s, list.attribute? "count" = some s →
    parseInteger s = .ok ((list.childrenWith Vocabulary.tableColumn).length : Int)

/-- The range of a table and that of its filter read, and its columns are as many as it says. -/
structure Consistent (t : Table) : Prop where
  range : ∃ r, t.range = .ok r
  filter : t.FilterReads
  columns : t.ColumnsAgree

theorem Follows.consistent {f : Int → Int} {t t' : Table} (h : Follows f t t') (ht : t.Consistent) :
    t'.Consistent where
  range := by
    obtain ⟨r, hr⟩ := ht.range
    obtain ⟨r', hr', -⟩ := h.start r hr
    exact ⟨r', hr'⟩
  filter := h.filter ht.range ht.filter
  columns := by
    unfold ColumnsAgree
    rw [h.columns]
    exact ht.columns

theorem forall₂_follows_refl : ∀ ts : List Table, List.Forall₂ (Follows id) ts ts
  | [] => .nil
  | t :: ts => .cons (.refl t) (forall₂_follows_refl ts)

theorem forall₂_follows_trans {f g : Int → Int} {as bs cs : List Table} (h : List.Forall₂ (Follows f) as bs)
    (h' : List.Forall₂ (Follows g) bs cs) : List.Forall₂ (Follows (g ∘ f)) as cs :=
  forall₂_comp (fun (a b c : Table) (ha : Follows f a b) (hb : Follows g b c) => ha.trans hb) h h'

theorem follows_of_setRef {t t' : Table} {r : CellRange} (hr : t.range = .ok r) {a b : Int} (ha : 0 ≤ a)
    (hb : a ≤ b) {ref : String} (hw : CellRange.write ⟨r.start.down a, r.stop.down b⟩ = .ok ref)
    (h : t.setRef ref = .ok t') {moved : Int → Int} (hmoved : moved r.start.row = r.start.row + a) :
    Follows moved t t' := by
  obtain ⟨hrange, hfilter⟩ := setRef_down hr ha (Int.le_trans ha hb) hw h
  refine ⟨path_of_setRef h, ?_, ?_, columns?_of_setRef h, fun _ => hfilter⟩
  · intro r' hr'
    obtain rfl : r = r' := Except.ok.inj (hr.symm.trans hr')
    exact ⟨_, hrange, hmoved.symm, rfl⟩
  · intro r' r'' hr' hr''
    obtain rfl : r = r' := Except.ok.inj (hr.symm.trans hr')
    obtain rfl := Except.ok.inj (hrange.symm.trans hr'')
    refine ⟨rfl, ?_⟩
    show r.stop.row + (r.start.row + a - r.start.row) ≤ r.stop.row + b
    omega

/-! ### Growing and shifting -/

/-- What growing a table comes to: nothing when it covers the cell, and one more row otherwise. -/
theorem growTable_cases {cell : String} {t t' : Table} (h : Shift.growTable cell t = .ok t') :
    ∃ r c inside, t.range = .ok r ∧ CellRef.parse cell = .ok c ∧ r.holds c = .ok inside ∧
      (inside = true ∧ t' = t ∨
        inside = false ∧ ∃ ref, CellRange.write ⟨r.start, r.stop.down 1⟩ = .ok ref ∧ t.setRef ref = .ok t') := by
  obtain ⟨grown, hg, h⟩ := bind_eq_ok_iff.mp h
  obtain ⟨r, hr, hg⟩ := bind_eq_ok_iff.mp hg
  obtain ⟨c, hc, hg⟩ := bind_eq_ok_iff.mp hg
  obtain ⟨inside, hinside, hg⟩ := bind_eq_ok_iff.mp hg
  refine ⟨r, c, inside, hr, hc, hinside, ?_⟩
  cases inside with
  | true =>
      rw [← Except.ok.inj hg] at h
      exact Or.inl ⟨rfl, (Except.ok.inj h).symm⟩
  | false =>
      obtain ⟨ref, hw, hg⟩ := bind_eq_ok_iff.mp hg
      rw [← Except.ok.inj hg] at h
      exact Or.inr ⟨rfl, ref, hw, h⟩

theorem growTable_follows {cell : String} {t t' : Table} (h : Shift.growTable cell t = .ok t') :
    Follows id t t' := by
  obtain ⟨r, -, -, hr, -, -, ⟨-, rfl⟩ | ⟨-, ref, hw, hset⟩⟩ := growTable_cases h
  · exact .refl t'
  · rw [← CellRef.down_zero r.start] at hw
    exact follows_of_setRef hr (by decide) (by decide) hw hset (Int.add_zero _).symm

/-- The tables among which some grow start where they started. -/
theorem growTables_follows {cell : String} : ∀ {chosen : List Bool} {tables tables' : List Table},
    chosen.length = tables.length → Shift.growTables chosen cell tables = .ok tables' →
      List.Forall₂ (Follows id) tables tables'
  | [], [], tables', _, h => by
      rw [← Except.ok.inj h]
      exact .nil
  | c :: cs, t :: ts, tables', hlen, h => by
      rw [Shift.growTables, List.zip_cons_cons, mapM_eq_ok_iff, List.forall₂_cons_left_iff] at h
      obtain ⟨t', ts', ht, hts, rfl⟩ := h
      have rest := growTables_follows (Nat.succ.inj hlen) (mapM_eq_ok_iff.mpr hts)
      refine .cons ?_ rest
      cases c with
      | true => exact growTable_follows ht
      | false =>
          rw [← Except.ok.inj ht]
          exact .refl t

theorem shiftTable_follows {number count : Int} (hcount : 0 ≤ count) {t t' : Table}
    (h : Shift.shiftTable number count t = .ok t') : Follows (below number count) t t' := by
  obtain ⟨r, hr, h⟩ := bind_eq_ok_iff.mp h
  split at h
  · next hlt =>
    obtain ⟨ref, hw, h⟩ := bind_eq_ok_iff.mp h
    exact follows_of_setRef hr hcount (Int.le_refl count) hw h (if_pos hlt)
  · next hlt =>
    rw [← Except.ok.inj h]
    refine .of_eq t fun r' hr' => ?_
    obtain rfl : r = r' := Except.ok.inj (hr.symm.trans hr')
    exact if_neg hlt

end Table
end Gridfill

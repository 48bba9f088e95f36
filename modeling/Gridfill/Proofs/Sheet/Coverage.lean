import Gridfill.Proofs.Sheet.NewRows

/-!
# How tables grow with records

A table that covers a cell with records reaches as far down as the records do when they have been laid out below
it, and a table that does not cover it stays (`stretch`). This is so as long as no cell was inserted into the new
rows, so that each record is put straight below its cell (`stretch_of_fillCell`).
-/

namespace Gridfill

open CellRef (numbered)

/-! ### The cells of an extent -/

/-- The extent holds the cell in a column and a row. -/
def Extent.Holds (e : Extent) (c : Nat) (m : Int) : Prop :=
  (e.top ≤ m ∧ m ≤ e.bottom) ∧
    Reference.lettersNumber e.left.toList ≤ c ∧ c ≤ Reference.lettersNumber e.right.toList

instance (e : Extent) (c : Nat) (m : Int) : Decidable (e.Holds c m) :=
  inferInstanceAs (Decidable (_ ∧ _))

/-- A range holds the cells of its extent. -/
theorem CellRange.holds_of_columnNumber {r : CellRange} (hstart : r.start.Wide) (hstop : r.stop.Wide) {x : CellRef}
    {c : Nat} (column : x.columnNumber = .ok c) : r.holds x = .ok (decide (r.extent.Holds c x.row)) := by
  unfold CellRange.holds CellRef.within Extent.Holds
  rw [column, hstart.columnNumber, hstop.columnNumber]
  show (if r.start.row ≤ x.row ∧ x.row ≤ r.stop.row then
      if Reference.lettersNumber r.start.column.toList ≤ c then
        .ok (decide (c ≤ Reference.lettersNumber r.stop.column.toList))
      else .ok false
    else .ok false : Except Failure Bool) = _
  by_cases rows : r.start.row ≤ x.row ∧ x.row ≤ r.stop.row
  · by_cases left : Reference.lettersNumber r.start.column.toList ≤ c
    · simp [CellRange.extent, rows, left]
    · simp [CellRange.extent, left]
  · simp [CellRange.extent, rows]

theorem CellRange.holds_eq {r : CellRange} (hstart : r.start.Wide) (hstop : r.stop.Wide) {c : Nat} (hc : 1 ≤ c)
    (m : Int) : r.holds (numbered c m) = .ok (decide (r.extent.Holds c m)) :=
  holds_of_columnNumber hstart hstop (Reference.columnNumber_columnLetters hc)

namespace Extent

/-- The extent with one more row, unless it holds the cell. -/
def grow (e : Extent) (c : Nat) (m : Int) : Extent :=
  if e.Holds c m then e else { e with bottom := e.bottom + 1 }

/-- The extent reaching `k` rows below a cell that it holds. -/
def stretch (e : Extent) (c : Nat) (x : Int) (k : Nat) : Extent :=
  if e.Holds c x then { e with bottom := max e.bottom (x + k) } else e

theorem stretch_zero (e : Extent) (c : Nat) (x : Int) : e.stretch c x 0 = e := by
  unfold stretch
  split
  · next h =>
    obtain ⟨⟨-, bottom⟩, -⟩ := h
    have : max e.bottom (x + ((0 : Nat) : Int)) = e.bottom := by omega
    rw [this]
  · rfl

/-- One more record below the cell. -/
theorem grow_stretch {e : Extent} {c : Nat} {x : Int} (h : e.Holds c x) (k : Nat) :
    (e.stretch c x k).grow c (x + k + 1) = e.stretch c x (k + 1) := by
  obtain ⟨⟨top, bottom⟩, columns⟩ := id h
  unfold stretch grow
  rw [if_pos h, if_pos h]
  by_cases reaches : x + k + 1 ≤ e.bottom
  · have held : ({ e with bottom := max e.bottom (x + k) } : Extent).Holds c (x + k + 1) :=
      ⟨⟨by show e.top ≤ _; omega, by show _ ≤ max e.bottom (x + k); omega⟩, columns⟩
    have same : max e.bottom (x + k) = max e.bottom (x + ((k + 1 : Nat) : Int)) := by omega
    rw [if_pos held, same]
  · have outside : ¬ ({ e with bottom := max e.bottom (x + k) } : Extent).Holds c (x + k + 1) := by
      rintro ⟨⟨-, low⟩, -⟩
      have low : x + k + 1 ≤ max e.bottom (x + k) := low
      omega
    have next : max e.bottom (x + k) + 1 = max e.bottom (x + ((k + 1 : Nat) : Int)) := by omega
    rw [if_neg outside, ← next]

/-- The second extent is the first, or reaches further down. -/
structure Lengthens (e e' : Extent) : Prop where
  top : e'.top = e.top
  left : e'.left = e.left
  right : e'.right = e.right
  bottom : e.bottom ≤ e'.bottom

theorem Lengthens.trans {a b c : Extent} (h : a.Lengthens b) (h' : b.Lengthens c) : a.Lengthens c :=
  ⟨h'.top.trans h.top, h'.left.trans h.left, h'.right.trans h.right, Int.le_trans h.bottom h'.bottom⟩

/-- An extent that was stretched below a cell holds the cells down to there. -/
theorem Lengthens.holds {e e' : Extent} {c : Nat} {x : Int} {k i : Nat} (h : (e.stretch c x k).Lengthens e')
    (held : e.Holds c x) (hi : i ≤ k) : e'.Holds c (x + i) := by
  obtain ⟨top, left, right, bottom⟩ := h
  obtain ⟨⟨htop, hbottom⟩, hcolumns⟩ := id held
  rw [stretch, if_pos held] at top left right bottom
  have bottom : max e.bottom (x + k) ≤ e'.bottom := bottom
  refine ⟨⟨?_, by omega⟩, ?_⟩
  · rw [top]
    show e.top ≤ x + i
    omega
  · rw [left, right]
    exact hcolumns

end Extent

/-! ### The extent of a table -/

namespace Table

/-- The range of the table reads and has the extent. -/
def Spans (t : Table) (e : Extent) : Prop := ∃ r, t.range = .ok r ∧ r.extent = e

theorem spans_growTable {c : Nat} {m : Int} (hc : 1 ≤ c) {t t' : Table} {e : Extent} (hs : t.Spans e)
    (h : Shift.growTable (numbered c m).text t = .ok t') : t'.Spans (e.grow c m) := by
  obtain ⟨r, hr, rfl⟩ := hs
  have valid := CellRange.valid_of_parse hr
  obtain ⟨r', cell, inside, hr', hcell, hinside, h⟩ := growTable_cases h
  obtain rfl : r = r' := Except.ok.inj (hr.symm.trans hr')
  obtain ⟨-, rfl⟩ := CellRef.valid_of_parse_numbered hc hcell
  rw [CellRange.holds_eq valid.start.wide valid.stop.wide hc] at hinside
  unfold Extent.grow
  rcases h with ⟨rfl, rfl⟩ | ⟨rfl, ref, hw, hset⟩
  · rw [if_pos (of_decide_eq_true (Except.ok.inj hinside))]
    exact ⟨r, hr, rfl⟩
  · rw [← CellRef.down_zero r.start] at hw
    obtain ⟨hrange, -⟩ := setRef_down hr (Int.le_refl 0) Int.one_nonneg hw hset
    rw [if_neg (of_decide_eq_false (Except.ok.inj hinside))]
    refine ⟨_, hrange, ?_⟩
    show (⟨r.start.row + 0, r.stop.row + 1, r.start.column, r.stop.column⟩ : Extent) = _
    rw [Int.add_zero]
    rfl

/-- The range of the table holds the cell in a column and a row. -/
def Covers (t : Table) (c : Nat) (m : Int) : Prop := ∃ r, t.range = .ok r ∧ r.holds (numbered c m) = .ok true

instance (t : Table) (c : Nat) (m : Int) : Decidable (t.Covers c m) :=
  match hr : t.range with
  | .error _ => isFalse (by
      rintro ⟨r, h, -⟩
      rw [hr] at h
      cases h)
  | .ok r => decidable_of_iff ((r.holds (numbered c m)).toOption = some true) (by
      rw [toOption_eq_some_iff]
      constructor
      · intro held
        exact ⟨r, hr, held⟩
      · rintro ⟨r', h, held⟩
        rw [Except.ok.inj (hr.symm.trans h)]
        exact held)

theorem covers_iff {t : Table} {c : Nat} (hc : 1 ≤ c) {m : Int} : t.Covers c m ↔ ∃ e, t.Spans e ∧ e.Holds c m := by
  constructor
  · rintro ⟨r, hr, held⟩
    have valid := CellRange.valid_of_parse hr
    rw [CellRange.holds_eq valid.start.wide valid.stop.wide hc] at held
    exact ⟨r.extent, ⟨r, hr, rfl⟩, of_decide_eq_true (Except.ok.inj held)⟩
  · rintro ⟨_, ⟨r, hr, rfl⟩, held⟩
    have valid := CellRange.valid_of_parse hr
    refine ⟨r, hr, ?_⟩
    rw [CellRange.holds_eq valid.start.wide valid.stop.wide hc, decide_eq_true held]

/-- A table whose start stays reaches at least as far down. -/
theorem Follows.lengthens {moved : Int → Int} {t t' : Table} (h : Follows moved t t') {e : Extent} (hs : t.Spans e)
    (stays : moved e.top = e.top) : ∃ e', t'.Spans e' ∧ e.Lengthens e' := by
  obtain ⟨r, hr, rfl⟩ := hs
  obtain ⟨r', hr', top, left⟩ := h.start r hr
  obtain ⟨right, bottom⟩ := h.stop r r' hr hr'
  have stays : moved r.start.row = r.start.row := stays
  refine ⟨r'.extent, ⟨r', hr', rfl⟩, top.trans stays, left, right, ?_⟩
  show r.stop.row ≤ r'.stop.row
  omega

/-- Of the tables in a list each chosen one grows. -/
theorem exists_of_growTables {chosen : List Bool} {ref : String} {ts ts' : List Table}
    (h : Shift.growTables chosen ref ts = .ok ts') {i : Nat} {t : Table} {b : Bool} (ht : ts[i]? = some t)
    (hb : chosen[i]? = some b) :
    ∃ t', ts'[i]? = some t' ∧ (if b then Shift.growTable ref t else .ok t) = .ok t' := by
  have both : (ts.zip chosen)[i]? = some (t, b) := List.getElem?_zip_eq_some.mpr ⟨ht, hb⟩
  exact exists_of_getElem? (mapM_eq_ok_iff.mp h) both

/-- The tables that cover a cell are those whose extent holds it. -/
theorem exists_of_covering {c : Nat} {x : Int} (hc : 1 ≤ c) {ts : List Table} {chosen : List Bool}
    (h : Shift.covering ts (numbered c x).text = .ok chosen) {i : Nat} {t : Table} (ht : ts[i]? = some t) :
    ∃ e, t.Spans e ∧ chosen[i]? = some (decide (e.Holds c x)) := by
  obtain ⟨b, hb, hcovers⟩ := exists_of_getElem? (mapM_eq_ok_iff.mp h) ht
  obtain ⟨r, hr, hcovers⟩ := bind_eq_ok_iff.mp hcovers
  obtain ⟨cell, hcell, hholds⟩ := bind_eq_ok_iff.mp hcovers
  obtain ⟨-, rfl⟩ := CellRef.valid_of_parse_numbered hc hcell
  have valid := CellRange.valid_of_parse hr
  rw [CellRange.holds_eq valid.start.wide valid.stop.wide hc] at hholds
  exact ⟨r.extent, ⟨r, hr, rfl⟩, by rw [hb, ← Except.ok.inj hholds]⟩

theorem Spans.eq {t : Table} {e e' : Extent} (h : t.Spans e) (h' : t.Spans e') : e = e' := by
  obtain ⟨r, hr, rfl⟩ := h
  obtain ⟨r', hr', rfl⟩ := h'
  rw [Except.ok.inj (hr.symm.trans hr')]

/-- The table reaches `k` rows below a cell if it covers the cell, and stays otherwise. -/
def Stretched (c : Nat) (x : Int) (k : Nat) (t t' : Table) : Prop := ∀ e, t.Spans e → t'.Spans (e.stretch c x k)

theorem Stretched.refl (c : Nat) (x : Int) (t : Table) : Stretched c x 0 t t := by
  intro e he
  rw [Extent.stretch_zero]
  exact he

/-- A table that reaches `k` rows below a cell that it covers covers the cells down to there, also when it has been
moved along and its start has stayed. -/
theorem Stretched.covers {moved : Int → Int} {c k : Nat} {x : Int} {t t' t'' : Table} (hc : 1 ≤ c)
    (h : Stretched c x k t t') (follows : Follows moved t' t'')
    (stays : ∀ e : Extent, e.Holds c x → moved e.top = e.top) (covers : t.Covers c x) {i : Nat} (hi : i ≤ k) :
    t''.Covers c (x + i) := by
  obtain ⟨e, hspans, held⟩ := (covers_iff hc).mp covers
  have top : (e.stretch c x k).top = e.top := by
    rw [Extent.stretch, if_pos held]
  obtain ⟨e', hspans', lengthens⟩ := follows.lengthens (h e hspans) (by rw [top, stays e held])
  exact (covers_iff hc).mpr ⟨e', hspans', lengthens.holds held hi⟩

theorem forall₂_stretched_refl (c : Nat) (x : Int) : ∀ ts : List Table, List.Forall₂ (Stretched c x 0) ts ts
  | [] => .nil
  | t :: ts => .cons (.refl c x t) (forall₂_stretched_refl c x ts)

end Table

namespace Expand

section
variable {site : Site} {ds : List Down} (unshifted : ∀ i, recordShift (i + 1) ds = 0)
include unshifted

/-- While records are placed, a table that covers their cell reaches down to the last of them. -/
theorem Placing.stretches {cell : Markup.Element} {chosen : List Bool} {i : Nat} {e : Extent} :
    ∀ {items : List Value} {d : Down} {place : Nat} {work work' : Work} {t : Table},
      Placing site cell ds d place work → chosen.length = work.tables.length →
      placeRecords site cell (String.ofList (Reference.columnLetters d.column)) chosen place items work = .ok work' →
      chosen[i]? = some (decide (e.Holds d.column site.number)) → work.tables[i]? = some t →
      t.Spans (e.stretch d.column site.number place) →
      ∃ t', work'.tables[i]? = some t' ∧ t'.Spans (e.stretch d.column site.number (place + items.length))
  | [], d, place, work, work', t, _, _, h, _, ht, hs => by
      rw [← Except.ok.inj h]
      exact ⟨t, ht, hs⟩
  | item :: items, d, place, work, work', t, placing, hlen, h, hb, ht, hs => by
      obtain ⟨next, hnext, h⟩ := bind_eq_ok_iff.mp h
      obtain ⟨placing', hlen'⟩ := placing.next hlen hnext
      obtain ⟨-, htables⟩ := placing.placed hnext
      rw [unshifted, Nat.add_zero] at htables
      obtain ⟨t', ht', grown⟩ := Table.exists_of_growTables htables ht hb
      have hs' : t'.Spans (e.stretch d.column site.number (place + 1)) := by
        by_cases held : e.Holds d.column site.number
        · rw [decide_eq_true held, if_pos rfl] at grown
          rw [← Extent.grow_stretch held]
          exact Table.spans_growTable placing.pos hs grown
        · rw [decide_eq_false held] at grown
          rw [Extent.stretch, if_neg held] at hs ⊢
          rw [← Except.ok.inj grown]
          exact hs
      have more : place + (item :: items).length = place + 1 + items.length := by
        rw [List.length_cons]
        omega
      rw [more]
      exact placing'.stretches hlen' h hb ht' hs'

/-- Laying records out downwards takes the tables that cover the cell along. -/
theorem stretch_of_spreadDown {cell : Markup.Element} {column : Nat} {work : Work}
    (ready : Ready False site cell column work) {items : List Value} {r : Outcome}
    (recorded : RowsRecorded site work.pool ds work.newRows) (h : spreadDown site cell items work = .ok r) :
    List.Forall₂ (Table.Stretched column site.number (items.length - 1)) work.tables r.work.tables := by
  cases items with
  | nil =>
      rw [← Except.ok.inj h]
      exact Table.forall₂_stretched_refl _ _ _
  | cons item items =>
      obtain ⟨chosen, below, start, hchosen, htables, placing, hwork, later, -⟩ :=
        exists_placing ready (.refl cell) recorded h
      rw [← htables] at hchosen ⊢
      refine forall₂_of_getElem? later.tables.length_eq fun i t ht => ?_
      obtain ⟨e, hspans, hb⟩ := Table.exists_of_covering ready.pos hchosen ht
      have hs : t.Spans (e.stretch column site.number (0 : Nat)) := by
        rw [Extent.stretch_zero]
        exact hspans
      obtain ⟨t', ht', hs'⟩ := placing.stretches unshifted (mapM_eq_ok_iff.mp hchosen).length_eq.symm hwork hb ht hs
      refine ⟨t', ht', fun e' he' => ?_⟩
      rw [he'.eq hspans]
      rw [Nat.zero_add] at hs'
      exact hs'

/-- Filling a cell takes the tables that cover it along as far as it has further records. -/
theorem stretch_of_fillCell {cell : Markup.Element} {column : Nat} {work : Work} {r : Outcome}
    (ready : Ready False site cell column work) (recorded : RowsRecorded site work.pool ds work.newRows)
    (h : fillCell site cell work = .ok r) :
    List.Forall₂ (Table.Stretched column site.number
      ((downOf? site.data (Cell.shownText work.pool cell)).elim 0 fun items => items.length - 1))
      work.tables r.work.tables := by
  cases hd : downOf? site.data (Cell.shownText work.pool cell) with
  | none =>
      rw [(kept_of_filling (filling_of_fillCell h) hd).2]
      exact Table.forall₂_stretched_refl _ _ _
  | some items =>
      obtain ⟨s, p, shown, scan, table, layout⟩ := downOf?_eq_some hd
      rw [fillCell_of_layout? shown scan layout, if_pos table] at h
      obtain ⟨r', hr', rfl⟩ := map_eq_ok_iff.mp h
      exact stretch_of_spreadDown (r := r') unshifted ready recorded hr'

end

/-! ### Over a whole pass -/

/-- The tables of a sheet when a pass reaches the cell `j` of the row `k`. -/
def tablesAt (sheet : Sheet) (workbook : Markup.Element) (pool : Pool) (data : Bindings) (k j : Nat) :
    Except Failure (List Table) :=
  match sheet.data?, sheet.rows[k]? with
  | some sheetData, some row => do
    let scope := rowScope sheet sheetData
    let before ← walkRows sheet.name data scope (sheet.rows.take k) (passStart sheet workbook pool)
    let number ← currentNumber row before
    let walk ← walkCells (siteOf data scope row number) ((cellsOf row).take j) (walkStart before)
    return walk.work.tables
  | _, _ => .ok sheet.tables

section
variable {sheet : Sheet} {workbook : Markup.Element} {pool : Pool} {data : Bindings} {filled : Filled} {k : Nat}
  {row : Markup.Element} {scope : Markup.Scope} {before : Pass} {number : Int} {walk : Walk} {out : Markup.Element}
  {next final : Pass}
  (reached : RowReached sheet workbook pool data filled k row scope before number walk out next final)
include reached

theorem RowReached.tablesAt_eq (hrow : sheet.rows[k]? = some row) {j : Nat} {cell : Markup.Element} {mid : Walk}
    {c : Nat} {r : Outcome}
    (at_ : CellReached (siteOf data scope row number) (cellsOf row) 0 j cell (walkStart before) mid walk c r) :
    tablesAt sheet workbook pool data k j = .ok mid.work.tables := by
  obtain ⟨sheetData, hd, rfl⟩ := reached.scope_eq
  simp only [tablesAt, hd, hrow]
  exact bind_eq_ok_iff.mpr ⟨before, reached.start, bind_eq_ok_iff.mpr ⟨number, reached.step.number_eq,
    bind_eq_ok_iff.mpr ⟨mid, at_.start, rfl⟩⟩⟩

/-- A table that covers a cell with records when the pass reaches it covers the cells of its records at the end of
the pass, if no value of the row's records is a sequence and no later row is put above the row. -/
theorem RowReached.covers (hrow : sheet.rows[k]? = some row)
    (settled : ∀ cell ∈ cellsOf row, Settled data pool cell)
    (scalar : ∀ cell ∈ cellsOf row, ScalarRecords data (Cell.shownText pool cell))
    (below : ∀ e ∈ (rowBlocks sheet.name data scope (sheet.rows.drop (k + 1)) next).flatten,
      ∀ n, ownNumber e = .ok n → number ≤ n) {j : Nat} {cell : Markup.Element} (hj : (cellsOf row)[j]? = some cell)
    {items : List Value} (hd : downOf? data (Cell.shownText pool cell) = some items) {columns : List Nat} {c : Nat}
    (hcolumns : effectiveColumns 0 (cellsOf row) = .ok columns) (hc : columns[j]? = some c) :
    ∃ ts, tablesAt sheet workbook pool data k j = .ok ts ∧
      List.Forall₂ (fun t t' : Table =>
        t.Covers (c + insertedBy ((widths data pool (cellsOf row)).take j)) number →
          ∀ i < items.length, t'.Covers (c + insertedBy ((widths data pool (cellsOf row)).take j)) (number + i))
        ts filled.sheet.tables := by
  obtain ⟨mid, c', r, at_⟩ := reached.cellReached hj
  obtain ⟨columns', hcolumns', hc'⟩ := at_.column
  obtain rfl : columns = columns' := Except.ok.inj (hcolumns.symm.trans hcolumns')
  obtain rfl : c = c' := Option.some.inj (hc.symm.trans hc')
  have mem : ∀ d ∈ (cellsOf row).take j, d ∈ cellsOf row := fun d hd => List.mem_of_mem_take hd
  -- the cells before it have put no cells into the new rows
  obtain ⟨front, -, -, -, inserted, -, recorded, -⟩ := walkCells_recorded reached.walkReady
    (fun d hd => Markup.Element.tag_of_mem_childrenWith (mem d hd)) (fun d hd => settled d (mem d hd))
    reached.earlier (recorded_start _ _) at_.start
  have unshifted (i : Nat) : recordShift (i + 1) (downs data pool 0 front ((cellsOf row).take j)) = 0 :=
    (recordSpots_of_scalar (scalar_of_mem_downs fun d hd => scalar d (mem d hd))).2
  have column : c + mid.inserted = c + insertedBy ((widths data pool (cellsOf row)).take j) := by
    rw [inserted, widths, widths, List.map_take]
    exact congrArg (c + ·) (Nat.zero_add _)
  have pos := at_.ready.pos
  have stretched := stretch_of_fillCell unshifted at_.ready recorded at_.fill
  have known : downOf? (siteOf data scope row number).data (Cell.shownText mid.work.pool cell) = some items :=
    (settled cell (List.mem_of_getElem? hj) _ (reached.earlier.trans at_.earlier.pool)).1.trans hd
  rw [Cell.shownText_set_ref, known, column] at stretched
  rw [column] at pos
  have stretched : List.Forall₂ (Table.Stretched (c + insertedBy ((widths data pool (cellsOf row)).take j)) number
      (items.length - 1)) mid.work.tables r.work.tables := stretched
  -- what becomes of the tables after the cell
  obtain ⟨-, -, -, -, shifts⟩ := pushDown_spec reached.step.anchored_eq
  have tags : ∀ e ∈ sheet.rows.drop (k + 1), e.tag = Vocabulary.worksheetRow := fun e he =>
    tag_of_mem_rows (List.mem_of_mem_drop he)
  have ready := reached.step.ready reached.ready reached.tag
  obtain ⟨f, follows, stays⟩ := walkRows_tables ready tags reached.rest
  have later := Table.forall₂_follows_trans (Table.forall₂_follows_trans at_.later.tables shifts) follows
  refine ⟨_, reached.tablesAt_eq hrow at_, ?_⟩
  rw [reached.tables]
  refine forall₂_comp (fun t t' t'' hst hft covers i hi => ?_) stretched later
  refine hst.covers pos hft (fun e held => ?_) covers (by omega)
  obtain ⟨⟨top, -⟩, -⟩ := held
  have here : Gridfill.below number walk.work.newRows.length e.top = e.top := if_neg (Int.not_lt.mpr top)
  show f (Gridfill.below number walk.work.newRows.length e.top) = e.top
  rw [here]
  exact stays e.top fun d hd n hn => Int.le_trans top (below d hd n hn)

end

end Expand
end Gridfill

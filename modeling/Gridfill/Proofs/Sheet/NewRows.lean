import Gridfill.Proofs.Sheet.Downwards
import Gridfill.Proofs.Sheet.Values

/-!
# What the new rows of a row hold

The new rows of a row belong to all its cells together. `RowsRecorded` says what they hold when some cells with
records have been filled: there are as many as the longest list of records needs, and each has the attributes of
the row and a cell for every value of its record, in the order of the cells. Placing one record keeps this
(`Placing.next`), so the whole walk along a row does (`walkCells_recorded`).
-/

namespace Gridfill

open Markup (Element)
open CellRef (numbered)

namespace Expand

/-! ### New rows -/

/-- The new row at the place `i` has the attributes of the row, apart from its number and the extent of a row that
cells were inserted into, and its cells take the spots of the record `i + 1` of the cells. -/
structure RowRecorded (site : Site) (pool : Pool) (ds : List Down) (i : Nat) (r : NewRow) : Prop where
  shift : r.shift = recordShift (i + 1) ds
  attributes : ∀ tag : Markup.Tag, tag ≠ ⟨none, "r"⟩ → (recordShift (i + 1) ds = 0 ∨ tag ≠ ⟨none, "spans"⟩) →
    r.row.get? tag = site.row.get? tag
  cells : List.Forall₂ (Spot.TakenBy pool (site.number + i + 1)) (recordSpots (i + 1) 0 ds) (cellsOf r.row)

/-- There are as many new rows as the records need, and each holds its records. -/
structure RowsRecorded (site : Site) (pool : Pool) (ds : List Down) (rows : List NewRow) : Prop where
  length : rows.length = newRowCount ds
  row : ∀ (i : Nat) (r : NewRow), rows[i]? = some r → RowRecorded site pool ds i r

section
variable {site : Site} {pool pool' : Pool} {ds : List Down} {d : Down}

/-- Before the first cell there are no new rows. -/
theorem recorded_start (site : Site) (pool : Pool) : RowsRecorded site pool [] [] :=
  ⟨rfl, fun i r hr => by cases hr⟩

theorem RowRecorded.steps {holds : Nat → Prop} {i : Nat} {r : NewRow}
    (hs : Pool.Steps holds (Fills site.data) pool pool') (hp : pool.Sound) (h : RowRecorded site pool ds i r) :
    RowRecorded site pool' ds i r :=
  { h with cells := h.cells.imp fun _ _ taken => taken.steps hs hp }

theorem RowsRecorded.steps {holds : Nat → Prop} {rows : List NewRow}
    (hs : Pool.Steps holds (Fills site.data) pool pool') (hp : pool.Sound) (h : RowsRecorded site pool ds rows) :
    RowsRecorded site pool' ds rows :=
  ⟨h.length, fun i r hr => (h.row i r hr).steps hs hp⟩

/-- The new rows hold no more when a cell has no further records. -/
theorem RowsRecorded.concat {rows : List NewRow} (hd : d.items.length ≤ 1) (h : RowsRecorded site pool ds rows) :
    RowsRecorded site pool (ds ++ [d]) rows where
  length := by rw [h.length, newRowCount_append, newRowCount_singleton, Nat.sub_eq_zero_of_le hd, Nat.max_zero]
  row i r hr := by
    obtain ⟨shift, attributes, cells⟩ := h.row i r hr
    obtain ⟨spots, inserted⟩ := recordSpots_concat ds (Down.values_eq_nil (d := d) (i := i + 1) (by omega))
    exact ⟨shift.trans inserted.symm, by rw [inserted]; exact attributes, by rw [spots]; exact cells⟩

/-- When no cells were inserted into the new rows there are, none are for any record. -/
theorem RowsRecorded.unshifted {rows : List NewRow} (h : RowsRecorded site pool ds rows)
    (flat : ∀ r ∈ rows, r.shift = 0) (i : Nat) : recordShift (i + 1) ds = 0 := by
  rcases Nat.lt_or_ge i rows.length with hi | hi
  · have here : rows[i]? = some rows[i] := List.getElem?_eq_getElem hi
    rw [← (h.row i _ here).shift]
    exact flat _ (List.getElem_mem hi)
  · rw [h.length] at hi
    exact (recordSpots_eq_nil 0 (Nat.lt_succ_of_le hi)).2

/-- A new row starts without cells, with the attributes of the row. -/
theorem recorded_freshRow {count : Nat} {r : NewRow} (h : freshRow site count = .ok r)
    (hcount : newRowCount ds ≤ count) : RowRecorded site pool ds count r := by
  obtain ⟨number, -, h⟩ := bind_eq_ok_iff.mp h
  obtain ⟨spots, inserted⟩ := recordSpots_eq_nil 0 (Nat.lt_succ_of_le hcount)
  rw [← Except.ok.inj h]
  refine ⟨inserted.symm, fun tag hr _ => ?_, ?_⟩
  · exact (Element.get?_set_ne _ number hr).trans (Element.get?_copyBare site.scope site.row tag)
  · rw [spots]
    exact .nil

/-- The list of new rows that is long enough for a record: it has its row, and the rows hold what they held. -/
theorem recorded_ensureRow {rows rows' : List NewRow} {place : Nat} (h : ensureRow site rows place = .ok rows')
    (hplace : place ≤ rows.length) (recorded : RowsRecorded site pool ds rows) :
    rows'.length = max rows.length (place + 1) ∧
      ∀ (i : Nat) (r : NewRow), rows'[i]? = some r → RowRecorded site pool ds i r := by
  constructor
  · unfold ensureRow at h
    split at h
    · rw [← Except.ok.inj h]
      omega
    · obtain ⟨fresh, -, h⟩ := bind_eq_ok_iff.mp h
      rw [← Except.ok.inj h, List.length_append, List.length_singleton]
      omega
  · intro i r hr
    rcases getElem?_of_ensureRow h hr with old | ⟨rfl, -, fresh⟩
    · exact recorded.row i r old
    · exact recorded_freshRow fresh (Nat.le_of_eq recorded.length.symm)

/-! ### One record -/

/-- The cells that a value puts in take its spots. -/
theorem puts_taken {cell origin : Element} {c : Nat} {m : Int} (hc : 1 ≤ c)
    (hr : cell.attribute? "r" = some (numbered c m).text) (style : SameStyle cell origin) {item : Value}
    {cells : List Element} (hp : pool.Sound) (h : Puts cell item pool cells pool') :
    List.Forall₂ (Spot.TakenBy pool' m) (spotsFrom origin c (sideBySide item)) cells := by
  obtain ⟨-, laid, -⟩ := puts_spec (fun _ => True) (fun _ _ => True) hc hr hp h
  exact taken_of_stand laid.stand (fun e he => (laid.style e he).trans style) (puts_lasts hc hr hp h)

/-- The row of a record after its cells were put in. -/
theorem RowRecorded.addCells {target grown : NewRow} {cells : List Element} {item : Value} {place : Nat}
    (hd : d.items.length = place + 1) (htag : d.cell.tag = Vocabulary.cell)
    (recorded : RowRecorded site pool (ds ++ [d]) place target)
    (taken : List.Forall₂ (Spot.TakenBy pool (site.number + place + 1))
      (spotsFrom d.cell (d.column + target.shift) (sideBySide item)) cells)
    (h : Expand.addCells target cells (cells.length - 1) = .ok grown) :
    RowRecorded site pool (ds ++ [d.extend [item]]) place grown := by
  obtain ⟨shift, attributes, own⟩ := recorded
  obtain ⟨spots, inserted⟩ := recordSpots_concat ds (Down.values_eq_nil (d := d) (Nat.le_of_eq hd))
  rw [inserted] at shift attributes
  rw [spots] at own
  have values : (d.extend [item]).values (place + 1) = sideBySide item := by
    rw [← hd, Down.values_extend_length]
  have length : (sideBySide item).length = cells.length := by
    have := taken.length_eq
    rwa [length_spotsFrom] at this
  have total : recordShift (place + 1) (ds ++ [d.extend [item]]) =
      recordShift (place + 1) ds + (cells.length - 1) := by
    rw [recordShift_append]
    show _ + (((d.extend [item]).values (place + 1)).length - 1 + 0) = _
    rw [values, length]
    rfl
  have tags : ∀ e ∈ cells, e.tag = Vocabulary.cell := by
    intro e he
    obtain ⟨spot, hspot, hst⟩ := exists_of_mem_right taken he
    rw [hst.style.tag, cell_of_mem_spotsFrom hspot, htag]
  have means := cells_of_addCells tags h
  obtain ⟨row, hrow, h⟩ := bind_eq_ok_iff.mp h
  rw [← Except.ok.inj h] at means ⊢
  refine ⟨?_, fun tag hr hs => ?_, ?_⟩
  · show target.shift + (cells.length - 1) = _
    rw [shift, total]
  · rw [total] at hs
    have unchanged := get?_of_widenRow hrow (hs.imp_left fun e => by omega)
    rw [unchanged, Element.get?_foldl_append]
    exact attributes tag hr (hs.imp_left fun e => by omega)
  · refine forall₂_of_meaning (fun _ _ _ hm h => h.of_meaning hm) means ?_
    rw [recordSpots_append, recordSpots, values, recordSpots, List.append_nil]
    refine List.rel_append own ?_
    rw [Nat.zero_add, ← shift]
    exact taken

/-- What is known while the records of the cell `d`, whose first is in its place, go into the new rows: those up to
`place` are there, behind the records of the cells `ds`. -/
structure Placing (site : Site) (cell : Element) (ds : List Down) (d : Down) (place : Nat) (work : Work) : Prop where
  style : SameStyle cell d.cell
  tag : d.cell.tag = Vocabulary.cell
  pos : 1 ≤ d.column
  count : d.items.length = place + 1
  row : site.row.tag = Vocabulary.worksheetRow
  sound : work.pool.Sound
  fit : FitRows False site.number (reached d.column place) work.pool.size work.newRows
  recorded : RowsRecorded site work.pool (ds ++ [d]) work.newRows

/-- Placing a record: the new rows hold it as well, and the chosen tables grow by the cell in which it starts. -/
theorem Placing.placed {cell : Element} {chosen : List Bool} {place : Nat} {item : Value} {work work' : Work}
    (placing : Placing site cell ds d place work)
    (h : placeRecord site cell (String.ofList (Reference.columnLetters d.column)) chosen place item
      work = .ok work') :
    RowsRecorded site work'.pool (ds ++ [d.extend [item]]) work'.newRows ∧
      Shift.growTables chosen (numbered (d.column + recordShift (place + 1) ds) (site.number + place + 1)).text
        work.tables = .ok work'.tables := by
  obtain ⟨style, htag, hc, hd, hrow, hp, fit, recorded⟩ := placing
  have enough : place ≤ work.newRows.length := by
    rw [recorded.length]
    have := length_le_of_mem (List.mem_append_right ds (List.mem_singleton_self d))
    omega
  obtain ⟨rows, hrows, hplaced⟩ := placeRecord_cases h
  obtain ⟨length, held⟩ := recorded_ensureRow hrows enough recorded
  rcases hplaced with ⟨hnone, -⟩ | ⟨target, cells, ref, inserted, pool, grown, tables, widest, htarget, hcells, hgrown,
    htables, -, rfl⟩
  · have := List.getElem?_eq_none_iff.mp hnone
    omega
  · have number := (fitRows_ensureRow hrow fit hrows place target htarget).parse
    obtain ⟨rfl, rfl, puts⟩ := recordCells_cases hc number hcells
    have copyRef := cell.copy.attribute?_set "r" (numbered (d.column + target.shift) (site.number + place + 1)).text
    obtain ⟨-, -, steps⟩ := puts_spec (fun _ => True) (Fills site.data) (by omega) copyRef hp puts
    have taken := puts_taken (by omega) copyRef ((sameStyle_copyAt cell _).trans style) hp puts
    obtain ⟨-, before⟩ := recordSpots_concat ds (Down.values_eq_nil (d := d) (Nat.le_of_eq hd))
    rw [(held place target htarget).shift, before] at htables
    refine ⟨⟨?_, ?_⟩, htables⟩
    · show (rows.set place grown).length = _
      rw [List.length_set, length, recorded.length, newRowCount_append, newRowCount_append, newRowCount_singleton,
        newRowCount_singleton, Down.extend, List.length_append, List.length_singleton]
      omega
    · intro i r hr
      rcases eq_or_of_getElem?_set hr with ⟨rfl, rfl⟩ | ⟨hi, hr⟩
      · exact ((held i target htarget).steps steps hp).addCells hd htag taken hgrown
      · obtain ⟨shift, attributes, own⟩ := (held i r hr).steps steps hp
        obtain ⟨spots, inserted⟩ := recordSpots_extend_ne ds item
          (show i + 1 ≠ d.items.length by omega)
        exact ⟨shift.trans inserted.symm, by rw [inserted]; exact attributes, by rw [spots]; exact own⟩

/-- The next record can be placed after a record. -/
theorem Placing.next {cell : Element} {chosen : List Bool} {place : Nat} {item : Value} {work work' : Work}
    (placing : Placing site cell ds d place work) (hlen : chosen.length = work.tables.length)
    (h : placeRecord site cell (String.ofList (Reference.columnLetters d.column)) chosen place item
      work = .ok work') :
    Placing site cell ds (d.extend [item]) (place + 1) work' ∧ chosen.length = work'.tables.length := by
  obtain ⟨recorded, -⟩ := placing.placed h
  obtain ⟨style, htag, hc, hd, hrow, hp, fit, -⟩ := placing
  obtain ⟨follows, fit'⟩ := placeRecord_spec (fun _ => True) (Fills site.data) hrow (style.tag.trans htag) hc hp hlen
    fit h
  refine ⟨⟨style, htag, hc, ?_, hrow, follows.pool.sound hp, fit', recorded⟩, hlen.trans follows.tables.length_eq⟩
  rw [Down.extend, List.length_append, List.length_singleton, hd]

theorem Down.extend_cons (d : Down) (item : Value) (items : List Value) :
    (d.extend [item]).extend items = d.extend (item :: items) := by
  simp only [Down.extend, List.append_assoc, List.singleton_append]

/-- Placing all further records of a cell. -/
theorem Placing.recorded_all {cell : Element} {chosen : List Bool} : ∀ {items : List Value} {d : Down}
    {place : Nat} {work work' : Work}, Placing site cell ds d place work → chosen.length = work.tables.length →
    placeRecords site cell (String.ofList (Reference.columnLetters d.column)) chosen place items work =
      .ok work' →
    RowsRecorded site work'.pool (ds ++ [d.extend items]) work'.newRows
  | [], d, place, work, work', placing, _, h => by
      rw [← Except.ok.inj h, Down.extend, List.append_nil]
      exact placing.recorded
  | item :: items, d, place, work, work', placing, hlen, h => by
      obtain ⟨next, hnext, h⟩ := bind_eq_ok_iff.mp h
      obtain ⟨placing', hlen'⟩ := placing.next hlen hnext
      rw [← Down.extend_cons]
      exact placing'.recorded_all hlen' h

/-! ### One cell -/

/-- Laying records out downwards: the first record is put in the place of the cell, the tables that cover the cell are
chosen, and the further records are placed. -/
theorem exists_placing {cell origin : Element} {column : Nat} {work : Work}
    (ready : Ready False site cell column work) (style : SameStyle cell origin) {item : Value}
    {items : List Value} {r : Outcome} (recorded : RowsRecorded site work.pool ds work.newRows)
    (h : spreadDown site cell (item :: items) work = .ok r) :
    ∃ chosen below start, Shift.covering work.tables (numbered column site.number).text = .ok chosen ∧
      start.tables = work.tables ∧ Placing site below ds ⟨origin, column, [item]⟩ 0 start ∧
      placeRecords site below (String.ofList (Reference.columnLetters column)) chosen 0 items start =
        .ok r.work ∧
      Work.Follows (fun _ => True) (Fills site.data) start r.work ∧
      List.Forall₂ (Spot.TakenBy start.pool site.number)
        (spotsFrom origin column (sideBySide item)) r.cells := by
  obtain ⟨chosen, below, cells, pool, work', hchosen, hbelow, puts, hwork, rfl⟩ :=
    spreadDown_cases ready.pos ready.ref h
  have tag : below.tag = Vocabulary.cell := hbelow.tag.trans ready.tag
  obtain ⟨-, -, steps⟩ := puts_spec (fun _ => True) (Fills site.data) ready.pos ready.ref ready.sound puts
  have sound := steps.sound ready.sound
  have fit : FitRows False site.number (reached column 0) pool.size work.newRows :=
    ready.rows.mono (fun no => no.elim) steps.size_le
  obtain ⟨follows, -⟩ := placeRecords_spec (fun _ => True) (Fills site.data) ready.row tag ready.pos hwork sound
    (mapM_eq_ok_iff.mp hchosen).length_eq.symm fit
  have start : RowsRecorded site pool (ds ++ [⟨origin, column, [item]⟩]) work.newRows :=
    (recorded.steps steps ready.sound).concat (Nat.le_refl 1)
  exact ⟨chosen, below, { work with pool := pool }, hchosen, rfl,
    ⟨hbelow.trans style, style.tag.symm.trans ready.tag, ready.pos, rfl, ready.row, sound, fit, start⟩, hwork,
    follows, puts_taken ready.pos ready.ref style ready.sound puts⟩

/-- The cells in the place of a cell with records show the first of them, and the new rows hold the others. -/
theorem spreadDown_recorded {cell origin : Element} {column : Nat} {work : Work}
    (ready : Ready False site cell column work) (style : SameStyle cell origin) {items : List Value} {r : Outcome}
    (recorded : RowsRecorded site work.pool ds work.newRows) (h : spreadDown site cell items work = .ok r) :
    RowsRecorded site r.work.pool (ds ++ [⟨origin, column, items⟩]) r.work.newRows ∧
      List.Forall₂ (Spot.TakenBy r.work.pool site.number) (Down.headSpots ⟨origin, column, items⟩) r.cells := by
  cases items with
  | nil =>
      rw [← Except.ok.inj h]
      refine ⟨recorded.concat (Nat.zero_le 1), .cons ⟨?_, ?_, ?_⟩ .nil⟩
      · exact (Cell.clear_style cell).trans style
      · exact (Cell.clear_ref cell).trans ready.ref
      · exact fun _ _ => ⟨cell.attribute?_unset "t", rfl⟩
  | cons item items =>
      obtain ⟨chosen, below, start, hchosen, htables, placing, hwork, later, taken⟩ :=
        exists_placing ready style recorded h
      have hlen : chosen.length = start.tables.length := by
        rw [htables]
        exact (mapM_eq_ok_iff.mp hchosen).length_eq.symm
      exact ⟨placing.recorded_all hlen hwork, taken.imp fun _ _ h => h.steps later.pool placing.sound⟩

/-- A cell without records below leaves the new rows and the tables. -/
theorem kept_of_filling {cell : Element} {work : Work} {r : Outcome} (h : Filling site cell work r)
    (hn : downOf? site.data (Cell.shownText work.pool cell) = none) :
    r.work.newRows = work.newRows ∧ r.work.tables = work.tables := by
  cases h with
  | keep same _ =>
      obtain ⟨_, _, rfl⟩ := same
      exact ⟨rfl, rfl⟩
  | down shown scan layout table _ =>
      rw [shown, downOf?_of_scan scan layout, if_pos table] at hn
      cases hn
  | right => exact ⟨rfl, rfl⟩
  | whole => exact ⟨rfl, rfl⟩
  | parts _ _ _ _ same =>
      obtain ⟨_, _, rfl⟩ := same
      exact ⟨rfl, rfl⟩

/-- What filling a cell adds to the new rows, and the cells on its row that show the first record. -/
theorem fillCell_recorded {cell origin : Element} {column : Nat} {work : Work} {r : Outcome}
    (ready : Ready False site cell column work) (style : SameStyle cell origin)
    (recorded : RowsRecorded site work.pool ds work.newRows) (h : fillCell site cell work = .ok r) :
    let more := ((downOf? site.data (Cell.shownText work.pool cell)).map fun items =>
      (⟨origin, column, items⟩ : Down)).toList
    RowsRecorded site r.work.pool (ds ++ more) r.work.newRows ∧
      ∃ heads, heads.Sublist r.cells ∧
        List.Forall₂ (Spot.TakenBy r.work.pool site.number) (more.flatMap Down.headSpots) heads := by
  cases hd : downOf? site.data (Cell.shownText work.pool cell) with
  | none =>
      obtain ⟨done, -⟩ := done_of_fillCell ready h
      refine ⟨?_, [], List.nil_sublist _, .nil⟩
      show RowsRecorded site r.work.pool (ds ++ []) r.work.newRows
      rw [List.append_nil, (kept_of_filling (filling_of_fillCell h) hd).1]
      exact recorded.steps done.follows.pool ready.sound
  | some items =>
      obtain ⟨s, p, shown, scan, table, layout⟩ := downOf?_eq_some hd
      rw [fillCell_of_layout? shown scan layout, if_pos table] at h
      obtain ⟨r', hr', rfl⟩ := map_eq_ok_iff.mp h
      obtain ⟨rows, taken⟩ := spreadDown_recorded ready style recorded hr'
      refine ⟨rows, r'.cells, List.Sublist.refl _, ?_⟩
      show List.Forall₂ _ (Down.headSpots _ ++ []) _
      rw [List.append_nil]
      exact taken

end

/-! ### The walk along a row -/

/-- Whether records of the cell go below it, and how many cells take its place, is known before a pass goes on. -/
def Settled (data : Bindings) (pool : Pool) (cell : Element) : Prop :=
  ∀ p, Pool.Steps (fun _ => True) (Fills data) pool p →
    downOf? data (Cell.shownText p cell) = downOf? data (Cell.shownText pool cell) ∧
      cellWidth data (Cell.shownText p cell) = cellWidth data (Cell.shownText pool cell)

/-- A text that the pass puts in the place of a placeholder is no placeholder with records itself. -/
theorem settled_of_plain {data : Bindings} (plain : data.Plain) {pool : Pool} (hp : pool.Sound) {cell : Element}
    (hk : ∀ k, Cell.place? cell = some k → k < pool.size) : Settled data pool cell := by
  intro p steps
  refine ⟨?_, (width_of_steps plain hp steps hk).1⟩
  cases shown : Cell.shownText pool cell with
  | none =>
      rw [Cell.shownText_eq] at shown ⊢
      cases hplace : Cell.place? cell with
      | none => rfl
      | some k =>
          obtain ⟨t, ht⟩ := Pool.exists_get? (hk k hplace)
          rw [hplace, Option.bind_some, ht] at shown
          cases shown
  | some text =>
      rcases shownText_of_steps plain hp steps shown with same | ⟨s, fills, becomes⟩
      · rw [same]
      · have none : downOf? data (some s) = none := by
          simp only [downOf?, Option.map_some, scan_of_fills plain fills]
        obtain ⟨q, scan, -, layout, -⟩ := fills
        rw [becomes, none]
        simp only [downOf?, Option.map_some, scan, layout, ite_self]

/-- A placeholder with records is not replaced in the pool. -/
theorem settled_of_downOf? {data : Bindings} {pool : Pool} (hp : pool.Sound) {cell : Element}
    {items : List Value} (h : downOf? data (Cell.shownText pool cell) = some items) : Settled data pool cell := by
  intro p steps
  obtain ⟨s, q, shown, scan, -, layout⟩ := downOf?_eq_some h
  suffices same : Cell.shownText p cell = Cell.shownText pool cell by rw [same]; exact ⟨rfl, rfl⟩
  rw [shown]
  rw [Cell.shownText_eq] at shown ⊢
  obtain ⟨k, hplace, hget⟩ := Option.bind_eq_some_iff.mp shown
  rw [hplace, Option.bind_some]
  obtain ⟨t, ht, rfl | ⟨-, chain⟩⟩ := steps.drift hp hget
  · exact ht
  · obtain ⟨next, ⟨r, hscan, -, none, -⟩, -⟩ := Relation.TransGen.head'_iff.mp chain
    obtain rfl : q = r := by simpa using scan.symm.trans hscan
    rw [layout] at none
    cases none

/-- The walk along cells: the new rows hold the records of those that have some, and among the cells put in are those
that show the first records. -/
theorem walkCells_recorded {site : Site} {p₀ : Pool} : ∀ {cells : List Element} {last : Nat} {walk walk' : Walk}
    {ds : List Down}, WalkReady False site last walk → (∀ cell ∈ cells, cell.tag = Vocabulary.cell) →
    (∀ cell ∈ cells, Settled site.data p₀ cell) →
    Pool.Steps (fun _ => True) (Fills site.data) p₀ walk.work.pool →
    RowsRecorded site walk.work.pool ds walk.work.newRows → walkCells site cells walk = .ok walk' →
    ∃ columns added, effectiveColumns last cells = .ok columns ∧ walk'.cells = walk.cells ++ added ∧
      walk'.inserted = walk.inserted + insertedBy (widths site.data p₀ cells) ∧
      added.length = (widths site.data p₀ cells).sum ∧
      RowsRecorded site walk'.work.pool (ds ++ downs site.data p₀ walk.inserted columns cells) walk'.work.newRows ∧
      ∃ heads, heads.Sublist added ∧ List.Forall₂ (Spot.TakenBy walk'.work.pool site.number)
        ((downs site.data p₀ walk.inserted columns cells).flatMap Down.headSpots) heads
  | [], last, walk, walk', ds, _, _, _, _, recorded, h => by
      rw [← Except.ok.inj h]
      refine ⟨[], [], rfl, (List.append_nil _).symm, rfl, rfl, ?_, [], .slnil, .nil⟩
      show RowsRecorded site walk.work.pool (ds ++ []) walk.work.newRows
      rw [List.append_nil]
      exact recorded
  | cell :: cells, last, walk, walk', ds, ready, tags, settled, steps, recorded, h => by
      obtain ⟨next, hnext, h⟩ := bind_eq_ok_iff.mp h
      obtain ⟨c, r, ⟨hc, start, hfill, done, width, next⟩, rfl⟩ :=
        exists_cellStep ready (tags cell List.mem_cons_self) (fun _ _ => trivial) False.elim hnext
      obtain ⟨first, heads, sub, taken⟩ := fillCell_recorded start (.set_ref cell _) recorded hfill
      obtain ⟨sameDown, sameWidth⟩ := settled cell List.mem_cons_self _ steps
      rw [Cell.shownText_set_ref, sameDown] at first taken
      rw [sameWidth] at width
      have inserted : r.inserted = cellWidth site.data (Cell.shownText p₀ cell) - 1 := by omega
      have rest := fun d hd => tags d (List.mem_cons_of_mem cell hd)
      obtain ⟨-, later, -⟩ := walkCells_goes (fun _ => True) next rest (fun _ _ _ _ => trivial) h
      obtain ⟨columns, added, hcolumns, hcells, total, length, rows, heads', sub', taken'⟩ :=
        walkCells_recorded next rest (fun d hd => settled d (List.mem_cons_of_mem cell hd))
          (steps.trans done.follows.pool) first h
      have all : downs site.data p₀ walk.inserted (c :: columns) (cell :: cells) =
          ((downOf? site.data (Cell.shownText p₀ cell)).map fun items =>
            (⟨cell, c + walk.inserted, items⟩ : Down)).toList ++
          downs site.data p₀ (walk.inserted + r.inserted) columns cells := by
        rw [inserted, downs]
        cases downOf? site.data (Cell.shownText p₀ cell) <;> rfl
      refine ⟨c :: columns, r.cells ++ added, effectiveColumns_cons hc hcolumns,
        hcells.trans (List.append_assoc _ _ _), ?_, ?_, ?_, heads ++ heads', sub.append sub', ?_⟩
      · rw [total, Walk.filled_inserted, inserted, widths, widths,
          List.map_cons, insertedBy, insertedBy, List.map_cons, List.sum_cons]
        exact Nat.add_assoc _ _ _
      · rw [List.length_append, done.lies.length, width, length, widths, widths, List.map_cons, List.sum_cons]
      · rw [all, ← List.append_assoc]
        exact rows
      · rw [all, List.flatMap_append]
        exact List.rel_append (taken.imp fun _ _ h => h.steps later.pool next.sound) taken'

/-! ### In the filled sheet -/

/-- A row of the filled sheet is the new row of the record `i` of cells with records: it carries its number and
the attributes of the row, apart from the extent of a row that cells were inserted into, and its cells take the
spots of the record. -/
structure HoldsRecord (pool : Pool) (row : Element) (number : Int) (ds : List Down) (i : Nat) (e : Element) : Prop where
  tag : e.tag = row.tag
  ref : e.attribute? "r" = some (toString (number + i))
  attributes : ∀ tag : Markup.Tag, tag ≠ ⟨none, "r"⟩ → (recordShift i ds = 0 ∨ tag ≠ ⟨none, "spans"⟩) →
    e.get? tag = row.get? tag
  cells : List.Forall₂ (Spot.TakenBy pool (number + i)) (recordSpots i 0 ds) (cellsOf e)

section
variable {sheet : Sheet} {workbook : Element} {pool : Pool} {data : Bindings} {filled : Filled} {k : Nat}
  {row : Element} {scope : Markup.Scope} {before : Pass} {number : Int} {walk : Walk} {out : Element}
  {next final : Pass}
  (reached : RowReached sheet workbook pool data filled k row scope before number walk out next final)
include reached

/-- What the row and its new rows hold at the end of the pass. -/
theorem RowReached.recorded (settled : ∀ cell ∈ cellsOf row, Settled data pool cell) :
    ∃ columns, effectiveColumns 0 (cellsOf row) = .ok columns ∧
      walk.cells.length = (widths data pool (cellsOf row)).sum ∧
      let ds := downs data pool 0 columns (cellsOf row)
      RowsRecorded (siteOf data scope row number) filled.pool ds walk.work.newRows ∧
        ∃ heads, heads.Sublist walk.cells ∧
          List.Forall₂ (Spot.TakenBy filled.pool number) (ds.flatMap Down.headSpots) heads := by
  obtain ⟨columns, added, hcolumns, hcells, -, length, rows, heads, sub, taken⟩ := walkCells_recorded reached.walkReady
    (fun _ hc => Element.tag_of_mem_childrenWith hc) settled reached.earlier (recorded_start _ _)
    reached.step.walk_eq
  have hcells : walk.cells = added := hcells.trans (List.nil_append added)
  rw [← hcells] at sub length
  rw [← reached.step.pool] at rows taken
  exact ⟨columns, hcolumns, length, rows.steps reached.later reached.sound, heads, sub,
    taken.imp fun _ _ h => h.steps reached.later reached.sound⟩

/-- A new row in the filled sheet. -/
theorem RowReached.newRow_at {ds : List Down}
    (rows : RowsRecorded (siteOf data scope row number) filled.pool ds walk.work.newRows) {i : Nat} (hi : 1 ≤ i)
    (hle : i ≤ newRowCount ds) :
    ∃ e, filled.sheet.rows[rowPlace sheet workbook pool data k + i]? = some e ∧
      HoldsRecord filled.pool row number ds i e := by
  obtain ⟨i, rfl⟩ := Nat.exists_eq_add_of_le' hi
  have hlt : i < walk.work.newRows.length := by
    rw [rows.length]
    exact hle
  have here : walk.work.newRows[i]? = some walk.work.newRows[i] := List.getElem?_eq_getElem hlt
  obtain ⟨-, attributes, cells⟩ := rows.row i _ here
  obtain ⟨-, -, limit, fit⟩ := reached.step.walked_any reached.tag reached.ready.sound
  have fit := fit i _ here
  obtain ⟨s, hs, ref⟩ := fit.ref
  have moved : number + ((i + 1 : Nat) : Int) = number + i + 1 := by omega
  have block : (out :: walk.work.newRows.map (·.row))[i + 1]? = some walk.work.newRows[i].row := by
    rw [List.getElem?_cons_succ, List.getElem?_map, here, Option.map_some]
  obtain ⟨e, he, hm⟩ := reached.row_at block
  refine ⟨e, he, ?_, ?_, fun tag hr ht => ?_, ?_⟩
  · exact (Markup.tag_eq_of_meaning hm).trans (fit.tag.trans reached.tag.symm)
  · rw [moved, ← (writeInteger_eq_ok_iff.mp hs).2]
    exact (Markup.attribute?_eq_of_meaning hm "r").trans ref
  · rw [Markup.get?_eq_of_meaning hm tag, attributes tag hr ht]
    exact row.get?_set_ne _ hr
  · rw [moved]
    exact forall₂_of_meaning (fun _ _ _ hm h => h.of_meaning hm)
      (Markup.childrenWith_eq_of_meaning hm Vocabulary.cell) cells

/-- The cells of the filled row that show the first records. -/
theorem RowReached.heads_at {e : Element} (hm : e.meaning = out.meaning) {heads : List Element}
    (sub : heads.Sublist walk.cells) {spots : List Spot}
    (taken : List.Forall₂ (Spot.TakenBy filled.pool number) spots heads) :
    ∃ heads', heads'.Sublist (cellsOf e) ∧ List.Forall₂ (Spot.TakenBy filled.pool number) spots heads' := by
  have sub' := sub.map Element.meaning
  rw [← reached.cells hm] at sub'
  obtain ⟨heads', sub', same⟩ := List.sublist_map_iff.mp sub'
  exact ⟨heads', sub', forall₂_of_meaning (fun _ _ _ hm h => h.of_meaning hm) same.symm taken⟩

end

end Expand
end Gridfill

import Gridfill.Proofs.Sheet.Reached

/-!
# The spans of rows

A row says by its span which columns its cells stand in. The span of a row grows by the cells that are inserted into
the row, and it goes on covering its cells. A new row starts with the span that the row has before it grows, and its
cells reach from the span's first column on up to a column of the row, moved by the cells inserted into the new row
(`Spanned`). So the span of a new row covers its cells exactly when that column of the row lies in the span from before
the pass (`spans_of_rows`).
-/

namespace Gridfill

open Markup (Element Scope)
open CellRef (numbered)

/-- The columns from a first to a last one. -/
structure RowSpan where
  first : Int
  last : Int
deriving DecidableEq, Repr

namespace RowSpan

/-- The span with more columns at its end. -/
def grow (s : RowSpan) (columns : Nat) : RowSpan := ⟨s.first, s.last + columns⟩

/-- The span holds the columns. -/
def Covers (s : RowSpan) (columns : List Nat) : Prop := ∀ c ∈ columns, s.first ≤ c ∧ (c : Int) ≤ s.last

instance (s : RowSpan) (columns : List Nat) : Decidable (s.Covers columns) :=
  inferInstanceAs (Decidable (∀ c ∈ columns, _))

/-- The span that a text gives as a single range. -/
def read (text : String) : Option RowSpan :=
  match Text.words text.toList with
  | [range] =>
    match Text.cutAtFirst ':' range with
    | (first, some last) => do
      let first ← (parseInteger (String.ofList first)).toOption
      let last ← (parseInteger (String.ofList last)).toOption
      return ⟨first, last⟩
    | _ => none
  | _ => none

theorem grow_zero (s : RowSpan) : s.grow 0 = s := by
  show RowSpan.mk s.first (s.last + 0) = s
  rw [Int.add_zero]

/-- What reading a span comes to. -/
theorem read_eq_some_iff {text : String} {s : RowSpan} :
    read text = some s ↔ ∃ first last, Text.words text.toList = [first ++ ':' :: last] ∧ ':' ∉ first ∧
      parseInteger (String.ofList first) = .ok s.first ∧ parseInteger (String.ofList last) = .ok s.last := by
  constructor
  · intro h
    unfold read at h
    split at h
    · next range words =>
      split at h
      · next first last cut =>
        obtain ⟨none, rfl⟩ := Text.cutAtFirst_eq_some_iff.mp cut
        obtain ⟨a, ha, h⟩ := Option.bind_eq_some_iff.mp h
        obtain ⟨b, hb, h⟩ := Option.bind_eq_some_iff.mp h
        rw [← Option.some.inj h]
        exact ⟨first, last, words, none, toOption_eq_some_iff.mp ha, toOption_eq_some_iff.mp hb⟩
      · cases h
    · cases h
  · rintro ⟨first, last, words, none, ha, hb⟩
    unfold read
    rw [words]
    simp only [Text.cutAtFirst_append last none, ha, hb]
    rfl

end RowSpan

namespace Expand

/-- The span of a row that has a single one. -/
def spanOf? (row : Element) : Option RowSpan := (row.attribute? "spans").bind RowSpan.read

/-- A range that is widened has its last column moved. -/
theorem widenSpan_range {first last : List Char} {b n : Int} {wide : Option (List Char)} (bare : ':' ∉ first)
    (hb : parseInteger (String.ofList last) = .ok b) (h : widenSpan (first ++ ':' :: last) n = .ok wide) :
    ∃ digits, writeInteger (b + n) = .ok digits ∧ wide = some (first ++ ':' :: digits.toList) := by
  cases last with
  | nil => cases hb
  | cons c cs =>
      unfold widenSpan at h
      rw [Text.cutAtFirst_append _ bare] at h
      obtain ⟨b', hb', h⟩ := bind_eq_ok_iff.mp h
      obtain rfl : b = b' := Except.ok.inj (hb.symm.trans hb')
      obtain ⟨digits, hdigits, h⟩ := bind_eq_ok_iff.mp h
      exact ⟨digits, hdigits, (Except.ok.inj h).symm⟩

/-- A row that is widened has its span grown. -/
theorem spanOf?_of_widenRow {row row' : Element} {n : Nat} {s : RowSpan} (h : widenRow row n = .ok row')
    (span : spanOf? row = some s) : spanOf? row' = some (s.grow n) := by
  obtain ⟨text, own, read⟩ := Option.bind_eq_some_iff.mp span
  obtain ⟨first, last, words, bare, ha, hb⟩ := RowSpan.read_eq_some_iff.mp read
  unfold widenRow at h
  rw [own] at h
  simp only at h
  split at h
  · next still =>
    rcases still with rfl | still
    · cases words
    · obtain rfl : n = 0 := Int.ofNat_inj.mp still
      rw [← Except.ok.inj h, s.grow_zero]
      exact span
  · simp only [words, List.getLast?_singleton] at h
    obtain ⟨wide, hwide, h⟩ := bind_eq_ok_iff.mp h
    obtain ⟨digits, hdigits, rfl⟩ := widenSpan_range bare hb hwide
    obtain ⟨-, written⟩ := writeInteger_eq_ok_iff.mp hdigits
    have blankless : ∀ d ∈ first ++ ':' :: digits.toList, Text.isBlank d = false := by
      intro d hd
      rcases List.mem_append.mp hd with hd | hd
      · refine (Text.not_isBlank_of_mem_words (words ▸ List.mem_singleton_self _)).2 d ?_
        exact List.mem_append_left _ hd
      · rcases List.mem_cons.mp hd with rfl | hd
        · decide
        · exact (CellRef.not_isBlank_toString (written ▸ hd)).1
    rw [← Except.ok.inj h, spanOf?, Element.attribute?_set, Option.bind_some]
    refine RowSpan.read_eq_some_iff.mpr ⟨first, digits.toList, ?_, bare, ha, ?_⟩
    · rw [String.toList_ofList]
      exact Text.words_of_not_isBlank (List.append_ne_nil_of_right_ne_nil first (List.cons_ne_nil _ _)) blankless
    · rw [String.ofList_toList]
      exact parseInteger_of_write hdigits

/-! ### New rows -/

/-- The span of a new row has grown by the cells inserted into it. Its cells reach from the first column of the span
on up to one of the columns `own`, moved by the cells inserted. -/
structure Spanned (s : RowSpan) (own : List Nat) (number : Int) (r : NewRow) : Prop where
  span : spanOf? r.row = some (s.grow r.shift)
  cells : ∃ m ∈ own, ∃ columns, StandAt number columns (cellsOf r.row) ∧ m + r.shift ∈ columns ∧
    ∀ c ∈ columns, s.first ≤ c ∧ c ≤ m + r.shift

/-- The new rows of the row `number` are spanned, the one at the place `i` up to one of the columns `own i`. -/
def RowsSpanned (s : RowSpan) (own : Nat → List Nat) (number : Int) (rows : List NewRow) : Prop :=
  ∀ (i : Nat) (r : NewRow), rows[i]? = some r → Spanned s (own i) (number + i + 1) r

theorem Spanned.mono {s : RowSpan} {own own' : List Nat} {number : Int} {r : NewRow} (h : Spanned s own number r)
    (more : own ⊆ own') : Spanned s own' number r := by
  obtain ⟨m, hm, cells⟩ := h.cells
  exact ⟨h.span, m, more hm, cells⟩

theorem RowsSpanned.mono {s : RowSpan} {own own' : Nat → List Nat} {number : Int} {rows : List NewRow}
    (h : RowsSpanned s own number rows) (more : ∀ i, own i ⊆ own' i) : RowsSpanned s own' number rows :=
  fun i r hr => (h i r hr).mono (more i)

/-- The columns of a row that its new rows may reach up to while the records of the cell in column `c` are placed: the
rows up to `place` have got theirs. -/
def upTo (own : List Nat) (c place i : Nat) : List Nat := if i < place then c :: own else own

/-- The cells of a record that stand behind all cells of a new row. -/
theorem spanned_addCells {s : RowSpan} {own columns : List Nat} {number : Int} {c size inserted : Nat} {cell : Element}
    {cells : List Element} {target grown : NewRow} (span : spanOf? target.row = some (s.grow target.shift))
    (stand : StandAt number columns (cellsOf target.row))
    (between : ∀ x ∈ columns, s.first ≤ x ∧ x < c + target.shift) (first : s.first ≤ c)
    (tags : ∀ e ∈ cells, e.tag = Vocabulary.cell) (laid : Laid number (c + target.shift) cell size cells)
    (length : cells.length = inserted + 1) (h : addCells target cells inserted = .ok grown) :
    Spanned s (c :: own) number grown := by
  have behind := StandAt.of_meaning (cells_of_addCells tags h) (stand.append laid.stand)
  obtain ⟨row, hrow, h⟩ := bind_eq_ok_iff.mp h
  obtain rfl := Except.ok.inj h
  have grown : (s.grow target.shift).grow inserted = s.grow (target.shift + inserted) := by
    simp only [RowSpan.grow, Int.natCast_add, Int.add_assoc]
  have kept : spanOf? (cells.foldl (fun row cell => row.append [] cell) target.row) = spanOf? target.row :=
    congrArg (Option.bind · RowSpan.read) (Element.get?_foldl_append [] _ cells target.row)
  refine ⟨grown ▸ spanOf?_of_widenRow hrow (kept.trans span), c, List.mem_cons_self, _, behind, ?_, fun x hx => ?_⟩
  · refine List.mem_append_right _ (List.mem_range'_1.mpr ?_)
    show c + target.shift ≤ c + (target.shift + inserted) ∧ c + (target.shift + inserted) < _
    omega
  · show s.first ≤ x ∧ x ≤ c + (target.shift + inserted)
    rcases List.mem_append.mp hx with hx | hx
    · have := between x hx
      omega
    · have := List.mem_range'_1.mp hx
      omega

section
variable {site : Site} {s : RowSpan} {own : List Nat}

/-- The new row that a record goes into: its cells stand in front of the column of the record. -/
theorem spanned_ensureRow (span : spanOf? site.row = some s) {c place : Nat} (front : ∀ m ∈ own, m < c)
    {rows rows' : List NewRow} (spanned : RowsSpanned s (upTo own c place) site.number rows)
    (h : ensureRow site rows place = .ok rows') {target : NewRow} (ht : rows'[place]? = some target) :
    spanOf? target.row = some (s.grow target.shift) ∧ ∃ columns,
      StandAt (site.number + place + 1) columns (cellsOf target.row) ∧
        ∀ x ∈ columns, s.first ≤ x ∧ x < c + target.shift := by
  rcases getElem?_of_ensureRow h ht with old | ⟨-, -, fresh⟩
  · have row := spanned place target old
    rw [upTo, if_neg (Nat.lt_irrefl _)] at row
    obtain ⟨m, hm, columns, stand, -, bounds⟩ := row.cells
    refine ⟨row.span, columns, stand, fun x hx => ⟨(bounds x hx).1, ?_⟩⟩
    have := (bounds x hx).2
    have := front m hm
    omega
  · obtain ⟨number, -, fresh⟩ := bind_eq_ok_iff.mp fresh
    obtain rfl := Except.ok.inj fresh
    refine ⟨?_, [], rfl, fun x hx => absurd hx List.not_mem_nil⟩
    rw [s.grow_zero, ← span]
    show ((Element.set _ "r" number).attribute? "spans").bind RowSpan.read = _
    rw [Element.attribute?_set_ne _ number (by decide)]
    exact congrArg (Option.bind · RowSpan.read) (Element.get?_copyBare site.scope site.row _)

/-- Placing a record keeps the new rows spanned, its own row up to the column of the record. -/
theorem spanned_placeRecord (hrow : site.row.tag = Vocabulary.worksheetRow) (span : spanOf? site.row = some s)
    {cell : Element} (htag : cell.tag = Vocabulary.cell) {c : Nat} (hc : 1 ≤ c) (first : s.first ≤ c)
    (front : ∀ m ∈ own, m < c) {chosen : List Bool} {place : Nat} {item : Value} {work work' : Work}
    (hp : work.pool.Sound) (fit : FitRows False site.number (reached c place) work.pool.size work.newRows)
    (spanned : RowsSpanned s (upTo own c place) site.number work.newRows)
    (h : placeRecord site cell (String.ofList (Reference.columnLetters c)) chosen place item work = .ok work') :
    RowsSpanned s (upTo own c (place + 1)) site.number work'.newRows := by
  have more (i : Nat) : upTo own c place i ⊆ upTo own c (place + 1) i := by
    unfold upTo
    by_cases before : i < place
    · rw [if_pos before, if_pos (Nat.lt_succ_of_lt before)]
      exact List.Subset.refl _
    · rw [if_neg before]
      split
      · exact List.subset_cons_self c own
      · exact List.Subset.refl _
  obtain ⟨rows, hrows, ⟨-, rfl⟩ | ⟨target, cells, ref, inserted, pool, grown, tables, widest, htarget, hcells, hgrown,
    -, -, rfl⟩⟩ := placeRecord_cases h
  · exact spanned.mono more
  have number := (fitRows_ensureRow hrow fit hrows place target htarget).parse
  obtain ⟨length, laid, -, -⟩ := recordCells_spec (fun _ => True) (Fills site.data) hc number hp hcells
  have tags : ∀ e ∈ cells, e.tag = Vocabulary.cell := fun e he => (laid.style e he).tag.trans htag
  obtain ⟨own_span, columns, stand, between⟩ := spanned_ensureRow span front spanned hrows htarget
  intro i r hr
  rcases eq_or_of_getElem?_set hr with ⟨rfl, rfl⟩ | ⟨here, hr⟩
  · rw [upTo, if_pos (Nat.lt_succ_self i)]
    exact spanned_addCells own_span stand between first tags laid length hgrown
  · rcases getElem?_of_ensureRow hrows hr with old | ⟨last, needed, -⟩
    · exact (spanned i r old).mono (more i)
    · -- the next row was put there for the record
      rcases getElem?_of_ensureRow hrows htarget with old | ⟨place_eq, -⟩
      · have := (List.getElem?_eq_some_iff.mp old).1
        omega
      · exact absurd (last.trans place_eq.symm) here

/-- Placing the further records of a cell, the first of them into the new row at `place`. -/
theorem spanned_placeRecords (hrow : site.row.tag = Vocabulary.worksheetRow) (span : spanOf? site.row = some s)
    {cell : Element} (htag : cell.tag = Vocabulary.cell) {c : Nat} (hc : 1 ≤ c) (first : s.first ≤ c)
    (front : ∀ m ∈ own, m < c) {chosen : List Bool} :
    ∀ {items : List Value} {place : Nat} {work work' : Work},
      placeRecords site cell (String.ofList (Reference.columnLetters c)) chosen place items work = .ok work' →
      work.pool.Sound → chosen.length = work.tables.length →
      FitRows False site.number (reached c place) work.pool.size work.newRows →
      RowsSpanned s (upTo own c place) site.number work.newRows →
      RowsSpanned s (fun _ => c :: own) site.number work'.newRows
  | [], place, work, work', h, _, _, _, spanned => by
      rw [← Except.ok.inj h]
      refine spanned.mono fun i => ?_
      unfold upTo
      split
      · exact List.Subset.refl _
      · exact List.subset_cons_self c own
  | item :: items, place, work, work', h, hp, hlen, fit, spanned => by
      obtain ⟨next, hnext, h⟩ := bind_eq_ok_iff.mp h
      obtain ⟨follows, fit'⟩ :=
        placeRecord_spec (fun _ => True) (Fills site.data) hrow htag hc hp hlen fit hnext
      have hlen' : chosen.length = next.tables.length := hlen.trans follows.tables.length_eq
      exact spanned_placeRecords hrow span htag hc first front h (follows.pool.sound hp) hlen' fit'
        (spanned_placeRecord hrow span htag hc first front hp fit spanned hnext)

/-- Filling a cell behind the columns `own` keeps the new rows spanned. -/
theorem spanned_fillCell (span : spanOf? site.row = some s) {cell : Element} {column : Nat} {work : Work} {r : Outcome}
    (ready : Ready False site cell column work) (first : s.first ≤ column) (front : ∀ m ∈ own, m < column)
    (spanned : RowsSpanned s (fun _ => own) site.number work.newRows) (h : fillCell site cell work = .ok r) :
    RowsSpanned s (fun _ => column :: own) site.number r.work.newRows := by
  have more := spanned.mono fun _ => List.subset_cons_self column own
  have kept {work' : Work} (same : work.Counted work') :
      RowsSpanned s (fun _ => column :: own) site.number work'.newRows := by
    obtain ⟨_, _, rfl⟩ := same
    exact more
  cases filling_of_fillCell h with
  | keep same => exact kept same
  | right => exact more
  | whole => exact more
  | parts _ _ _ _ same =>
      obtain ⟨_, _, rfl⟩ := same
      exact more
  | @down _ _ items r _ _ _ _ spread =>
      cases items with
      | nil =>
          rw [← Except.ok.inj spread]
          exact more
      | cons item items =>
          obtain ⟨chosen, below, cells, pool, work', hchosen, style, puts, placed, rfl⟩ :=
            spreadDown_cases ready.pos ready.ref spread
          obtain ⟨-, -, steps⟩ := puts_spec (fun _ => True) (Fills site.data) ready.pos ready.ref ready.sound puts
          have fit : FitRows False site.number (reached column 0) pool.size work.newRows :=
            ready.rows.mono (fun no => no.elim) steps.size_le
          have start : RowsSpanned s (upTo own column 0) site.number work.newRows :=
            spanned.mono fun i => List.Subset.refl own
          have placed := spanned_placeRecords ready.row span (style.tag.trans ready.tag) ready.pos first front placed
            (steps.sound ready.sound) (mapM_eq_ok_iff.mp hchosen).length_eq.symm fit start
          exact placed

/-! ### The cells of a row -/

/-- What is known of spans when a step along a row starts: the cells stand in the columns `own`, which the span covers
that has grown by the cells inserted, up to the last column, and the new rows are spanned. -/
structure WalkSpanned (s : RowSpan) (site : Site) (own : List Nat) (last : Nat) (walk : Walk) : Prop where
  stand : StandAt site.number own walk.cells
  covers : (s.grow walk.inserted).Covers own
  front : ∀ m ∈ own, m ≤ last + walk.inserted
  rows : RowsSpanned s (fun _ => own) site.number walk.work.newRows

/-- Going along cells that the span covers and that stand in increasing columns. -/
theorem walkCells_spanned (span : spanOf? site.row = some s) :
    ∀ {cells : List Element} {columns : List Nat} {last : Nat} {own : List Nat} {walk walk' : Walk},
    WalkReady False site last walk → (∀ cell ∈ cells, cell.tag = Vocabulary.cell) →
    effectiveColumns last cells = .ok columns → (last :: columns).Pairwise (· < ·) → s.Covers columns →
    WalkSpanned s site own last walk → walkCells site cells walk = .ok walk' →
      ∃ own' last', WalkSpanned s site own' last' walk'
  | [], _, last, own, walk, walk', _, _, _, _, _, spanned, h => by
      rw [← Except.ok.inj h]
      exact ⟨own, last, spanned⟩
  | cell :: cells, columns, last, own, walk, walk', ready, tags, hcolumns, increasing, covers, spanned, h => by
      obtain ⟨next, hnext, h⟩ := bind_eq_ok_iff.mp h
      obtain ⟨c, r, step, rfl⟩ :=
        exists_cellStep ready (tags cell List.mem_cons_self) (fun _ _ => trivial) False.elim hnext
      obtain ⟨c', cs, hc, hcs, rfl⟩ := exists_of_effectiveColumns_cons hcolumns
      obtain rfl : c = c' := Except.ok.inj (step.column.symm.trans hc)
      obtain ⟨hfirst, hlast⟩ := covers c List.mem_cons_self
      obtain ⟨later, increasing⟩ := List.pairwise_cons.mp increasing
      have behind := later c List.mem_cons_self
      have length := step.done.lies.length
      have front : ∀ m ∈ own, m < c + walk.inserted := fun m hm => by
        have := spanned.front m hm
        omega
      have rows := spanned_fillCell span step.start (by omega) front spanned.rows step.fill
      have taken {m : Nat} (hm : m ∈ List.range' (c + walk.inserted) r.cells.length) :
          c + walk.inserted ≤ m ∧ m ≤ c + (walk.inserted + r.inserted) := by
        have := List.mem_range'_1.mp hm
        omega
      refine walkCells_spanned span step.next (fun d hd => tags d (List.mem_cons_of_mem cell hd)) hcs increasing
        (fun d hd => covers d (List.mem_cons_of_mem c hd)) ⟨spanned.stand.append step.done.lies.stand, ?_, ?_, ?_⟩ h
      · intro m hm
        show s.first ≤ m ∧ (m : Int) ≤ s.last + (walk.inserted + r.inserted : Nat)
        rcases List.mem_append.mp hm with hm | hm
        · have : s.first ≤ m ∧ (m : Int) ≤ s.last + (walk.inserted : Nat) := spanned.covers m hm
          omega
        · have := taken hm
          omega
      · intro m hm
        show m ≤ c + (walk.inserted + r.inserted)
        rcases List.mem_append.mp hm with hm | hm
        · have := front m hm
          omega
        · exact (taken hm).2
      · refine rows.mono fun i => List.cons_subset.mpr ⟨?_, List.subset_append_left _ _⟩
        exact List.mem_append_right _ (List.mem_range'_1.mpr (by omega))

end

/-! ### The rows of a sheet -/

theorem spanOf?_of_meaning {e e' : Element} (h : e.meaning = e'.meaning) : spanOf? e = spanOf? e' :=
  congrArg (Option.bind · RowSpan.read) (Markup.attribute?_eq_of_meaning h "spans")

/-- A span covers cells that reach up to a column moved by the cells it has grown by if and only if it held that
column before. -/
theorem covers_grow_iff {s : RowSpan} {m shift : Nat} {columns : List Nat} (last : m + shift ∈ columns)
    (bounds : ∀ c ∈ columns, s.first ≤ c ∧ c ≤ m + shift) : (s.grow shift).Covers columns ↔ (m : Int) ≤ s.last := by
  constructor
  · intro covers
    have : ((m + shift : Nat) : Int) ≤ s.last + shift := (covers _ last).2
    omega
  · intro held c hc
    show s.first ≤ c ∧ (c : Int) ≤ s.last + shift
    have := bounds c hc
    omega

/-- A row whose span covers its cells, which stand in increasing columns, has after the pass a span that has grown by
the cells inserted and covers its cells. Each of its new rows has the span from before the pass, grown by the cells
inserted into the new row, and cells up to the column `m` of a cell of the row, moved by the cells inserted: its span
covers its cells if and only if `m` lies in the span from before the pass. -/
theorem spans_of_rows {sheet : Sheet} {workbook : Element} {pool : Pool} {data : Bindings} {filled : Filled}
    (hpool : pool.Built) (hrun : run sheet workbook pool data = .ok filled) {k : Nat} {row : Element}
    (hrow : sheet.rows[k]? = some row) {s : RowSpan} (span : spanOf? row = some s) {columns : List Nat}
    (hcolumns : effectiveColumns 0 (cellsOf row) = .ok columns) (increasing : columns.Pairwise (· < ·))
    (covers : s.Covers columns) :
    let place := rowPlace sheet workbook pool data
    ∃ number inserted own out, filled.sheet.rows[place k]? = some out ∧ ownNumber out = .ok number ∧
      StandAt number own (cellsOf out) ∧ spanOf? out = some (s.grow inserted) ∧ (s.grow inserted).Covers own ∧
      ∀ i, 1 ≤ i → place k + i < place (k + 1) → ∃ shift m reached e, filled.sheet.rows[place k + i]? = some e ∧
        StandAt (number + i) reached (cellsOf e) ∧ spanOf? e = some (s.grow shift) ∧ m ∈ own ∧ m + shift ∈ reached ∧
        ((s.grow shift).Covers reached ↔ (m : Int) ≤ s.last) := by
  have sound := Pool.sound_of_built hpool
  obtain ⟨scope, before, number, walk, out, next, final, reached⟩ := exists_rowReached sound hrun hrow
  have site_span : spanOf? (siteOf data scope row number).row = some s := by
    rw [← span]
    exact congrArg (Option.bind · RowSpan.read) (Element.attribute?_set_ne _ _ (by decide))
  have start : WalkSpanned s (siteOf data scope row number) [] 0 (walkStart before) :=
    ⟨rfl, fun _ hm => absurd hm List.not_mem_nil, fun _ hm => absurd hm List.not_mem_nil, fun _ _ hr => by cases hr⟩
  obtain ⟨own, last, spanned⟩ := walkCells_spanned site_span reached.walkReady
    (fun _ hc => Element.tag_of_mem_childrenWith hc) hcolumns
    (List.pairwise_cons.mpr ⟨pos_of_effectiveColumns hcolumns, increasing⟩) covers start reached.step.walk_eq
  obtain ⟨out', hout, hm⟩ := reached.row_at (i := 0) rfl
  have out_span : spanOf? out = some (s.grow walk.inserted) := by
    refine spanOf?_of_widenRow reached.step.out_eq ?_
    rw [← site_span]
    exact congrArg (Option.bind · RowSpan.read) (Element.attribute?_replaceContent _ _ _ _)
  refine ⟨number, walk.inserted, own, out', hout, ?_, ?_, ?_, spanned.covers, fun i hi hlt => ?_⟩
  · rw [ownNumber, Element.attributeOr, Markup.attribute?_eq_of_meaning hm]
    exact reached.step.out_number
  · exact spanned.stand.of_meaning (reached.cells hm)
  · rw [spanOf?_of_meaning hm, out_span]
  · obtain ⟨j, rfl⟩ := Nat.exists_eq_add_of_le' hi
    rw [reached.place_succ] at hlt
    have hj : j < walk.work.newRows.length := by omega
    have new : (out :: walk.work.newRows.map (·.row))[j + 1]? = some walk.work.newRows[j].row := by
      rw [List.getElem?_cons_succ, List.getElem?_map, List.getElem?_eq_getElem hj]
      rfl
    obtain ⟨e, he, hme⟩ := reached.row_at new
    have fits := spanned.rows j _ (List.getElem?_eq_getElem hj)
    obtain ⟨m, hown, cols, stand, top, bounds⟩ := fits.cells
    refine ⟨walk.work.newRows[j].shift, m, cols, e, he, ?_, ?_, hown, top, covers_grow_iff top bounds⟩
    · have cells : (cellsOf e).map Element.meaning = (cellsOf walk.work.newRows[j].row).map Element.meaning :=
        Markup.childrenWith_eq_of_meaning hme Vocabulary.cell
      rw [Int.natCast_add, ← Int.add_assoc]
      exact stand.of_meaning cells
    · rw [spanOf?_of_meaning hme]
      exact fits.span

/-- A row with a sequence and, to the right of it, records. -/
def spannedRow : Element :=
  plainElement "row" [("r", "1"), ("spans", "1:2")]
    [plainCell [("r", "A1"), ("t", "s")] "0", plainCell [("r", "B1"), ("t", "s")] "1"]

def spannedSheet : Sheet where
  info := ⟨1, "Data", "sheet1.xml", none⟩
  root := plainElement "worksheet" [] [plainElement "sheetData" [] [spannedRow]]
  tables := []

/-- The sequence moves the records out of the span that their new row starts with. -/
theorem spans_of_rows_two : ∃ filled out e, run spannedSheet smallWorkbook smallPool smallData = .ok filled ∧
    filled.sheet.rows[0]? = some out ∧ spanOf? out = some ⟨1, 4⟩ ∧
    filled.sheet.rows[1]? = some e ∧ spanOf? e = some ⟨1, 2⟩ ∧ StandAt 2 [4] (cellsOf e) ∧
    ¬ RowSpan.Covers ⟨1, 2⟩ [4] := by
  have goes : (run spannedSheet smallWorkbook smallPool smallData).toBool = true := by decide +kernel
  obtain ⟨filled, hrun⟩ := exists_of_isOk goes
  have hpool : smallPool.Built := .ofTexts _
  have hrow : spannedSheet.rows[0]? = some spannedRow := by rfl
  have hcolumns : effectiveColumns 0 (cellsOf spannedRow) = .ok [1, 2] :=
    toOption_eq_some_iff.mp (by decide +kernel)
  have span : spanOf? spannedRow = some ⟨1, 2⟩ := by decide +kernel
  obtain ⟨number, inserted, own, out, hout, hnumber, -, wide, -, new⟩ :=
    spans_of_rows hpool hrun hrow span hcolumns (by decide) (by decide)
  have here : rowPlace spannedSheet smallWorkbook smallPool smallData 0 = 0 := rfl
  have next : rowPlace spannedSheet smallWorkbook smallPool smallData 1 = 3 := by decide +kernel
  rw [here] at hout
  rw [here, next] at new
  obtain ⟨shift, m, reached, e, he, stand, grown, -, top, covers⟩ := new 1 (Nat.le_refl 1) (by decide)
  have first : ((run spannedSheet smallWorkbook smallPool smallData).toOption.bind (·.sheet.rows[0]?)).map
      (fun r => ((ownNumber r).toOption, spanOf? r)) = some (some 1, some ⟨1, 4⟩) := by decide +kernel
  have second : ((run spannedSheet smallWorkbook smallPool smallData).toOption.bind (·.sheet.rows[1]?)).map
      (fun r => (spanOf? r, (cellsOf r).map (·.attribute? "r"))) = some (some ⟨1, 2⟩, [some "D2"]) := by
    decide +kernel
  simp only [hrun, Except.toOption, Option.bind_some, hout, he, Option.map_some, Option.some.injEq,
    Prod.mk.injEq] at first second
  obtain rfl : number = 1 := Except.ok.inj (hnumber.symm.trans (toOption_eq_some_iff.mp first.1))
  have below : StandAt (1 + 1) [4] (cellsOf e) := second.2.trans (by decide +kernel)
  obtain rfl := stand.unique below
  have unmoved : shift = 0 := by
    have same := congrArg RowSpan.last (Option.some.inj (grown.symm.trans second.1))
    simp only [RowSpan.grow] at same
    omega
  subst unmoved
  obtain rfl : m = 4 := List.mem_singleton.mp top
  refine ⟨filled, out, e, hrun, hout, first.2, he, second.1, below, fun covered => ?_⟩
  exact absurd (covers.mp covered) (by decide)

end Expand
end Gridfill

import Gridfill.Proofs.Sheet.Coverage
import Gridfill.Proofs.Sheet.Ranges
import Gridfill.Proofs.Sheet.Widths

/-!
# How far down tables reach after a pass

A table ends as many rows lower as it starts, and it reaches further only for the records of a row that it covers, down
to the last of their new rows (`Extent.Reaches`). The rows inserted for it do not take the rows below along: so when a
pass inserts no columns, a cell of a table stays in it if and only if its row does not come to be below the end that the
table has from its start alone (`Extent.Reaches.holds_iff`).
-/

namespace Gridfill

open Markup (Element Scope)
open CellRef (numbered)

namespace Extent

/-! ### Extents over a pass -/

/-- The second extent is the first, or the first holds the row `x` and the second reaches at most `n` rows below
it. -/
structure Extends (x : Int) (n : Nat) (e e' : Extent) : Prop where
  lengthens : e.Lengthens e'
  reach : e'.bottom = e.bottom ∨ (e.top ≤ x ∧ x ≤ e.bottom) ∧ e'.bottom ≤ x + n

section
variable {x : Int} {n : Nat} {a b c : Extent}

theorem Extends.refl (x : Int) (n : Nat) (e : Extent) : e.Extends x n e :=
  ⟨⟨rfl, rfl, rfl, Int.le_refl _⟩, Or.inl rfl⟩

theorem Extends.trans (h : a.Extends x n b) (h' : b.Extends x n c) : a.Extends x n c := by
  refine ⟨h.lengthens.trans h'.lengthens, ?_⟩
  have top := h.lengthens.top
  rcases h.reach with same | ⟨held, bound⟩
  · rcases h'.reach with same' | ⟨held', bound'⟩
    · exact Or.inl (same'.trans same)
    · exact Or.inr ⟨by omega, bound'⟩
  · rcases h'.reach with same' | ⟨-, bound'⟩
    · exact Or.inr ⟨held, by omega⟩
    · exact Or.inr ⟨held, bound'⟩

theorem extends_stretch (e : Extent) (c : Nat) (x : Int) {k n : Nat} (h : k ≤ n) :
    e.Extends x n (e.stretch c x k) := by
  unfold stretch
  split
  · next held =>
    obtain ⟨rows, -⟩ := held
    refine ⟨⟨rfl, rfl, rfl, ?_⟩, ?_⟩
    · show e.bottom ≤ max e.bottom (x + k)
      omega
    · show max e.bottom (x + k) = e.bottom ∨ _ ∧ max e.bottom (x + k) ≤ x + n
      by_cases further : x + k ≤ e.bottom
      · exact Or.inl (by omega)
      · exact Or.inr ⟨rows, by omega⟩
  · exact .refl x n e

end

/-- Where an extent ends up when rows grow: it starts where its first row ends up, and ends as many rows lower as it
starts, or at most at the last new row of a row that is not below this end. -/
structure Reaches (gs : List Growth) (e e' : Extent) : Prop where
  top : e'.top = moved gs e.top
  left : e'.left = e.left
  right : e'.right = e.right
  bottom : e.bottom + insertedAbove gs e.top ≤ e'.bottom
  reach : e'.bottom = e.bottom + insertedAbove gs e.top ∨ ∃ g ∈ gs, e.top ≤ g.number ∧
    moved gs g.number ≤ e.bottom + insertedAbove gs e.top ∧ e'.bottom ≤ moved gs g.number + g.count

section
variable {gs : List Growth} {e e' e'' : Extent}

theorem reaches_start (e : Extent) : e.Reaches [] e where
  top := (Int.add_zero _).symm
  left := rfl
  right := rfl
  bottom := by
    show e.bottom + 0 ≤ e.bottom
    omega
  reach := Or.inl (Int.add_zero _).symm

section
variable {g : Growth} (hgs : ∀ x ∈ gs, x.number < g.number)
include hgs

/-- An extent below all rows that have grown has only moved. -/
theorem Reaches.bottom_eq (h : e.Reaches gs e') (below : g.number < e.top) :
    e'.bottom = e.bottom + insertedAbove gs e.top := by
  rcases h.reach with plain | ⟨x, hx, first, -⟩
  · exact plain
  · have := hgs x hx
    omega

/-- The next row is not among the new rows that an extent reaches down to, so it is not below the end either that the
extent has from its start alone. -/
theorem Reaches.within (h : e.Reaches gs e') (held : g.number + insertedTotal gs ≤ e'.bottom) :
    g.number + insertedTotal gs ≤ e.bottom + insertedAbove gs e.top := by
  rcases h.reach with plain | ⟨x, hx, -, -, last⟩
  · omega
  · have hlt := hgs x hx
    have := insertedAbove_add_count_le hx
    rw [moved] at last
    omega

/-- One more row grows. -/
theorem Reaches.step (h : e.Reaches gs e') (hx : e'.Extends (g.number + insertedTotal gs) g.count e'') :
    e.Reaches (gs ++ [g]) (e''.shift (g.number + insertedTotal gs) g.count) := by
  have start : e''.top = moved gs e.top := hx.lengthens.top.trans h.top
  have left := hx.lengthens.left.trans h.left
  have right := hx.lengthens.right.trans h.right
  have bottom := Int.le_trans h.bottom hx.lengthens.bottom
  have above := insertedAbove_append gs [g] e.top
  rw [insertedAbove_singleton] at above
  by_cases below : g.number < e.top
  · -- the extent is below the row and moves down as it is
    have shifted : g.number + insertedTotal gs < e''.top := start ▸ (lt_moved_iff hgs).mpr below
    have top := hx.lengthens.top
    have same : e''.bottom = e.bottom + insertedAbove gs e.top := by
      rcases hx.reach with same | ⟨⟨held, -⟩, -⟩
      · exact same.trans (h.bottom_eq hgs below)
      · omega
    rw [if_pos below] at above
    rw [Extent.shift, if_pos shifted]
    refine ⟨?_, left, right, ?_, Or.inl ?_⟩
    · show e''.top + g.count = e.top + _
      rw [start, moved]
      omega
    · show _ ≤ e''.bottom + g.count
      omega
    · show e''.bottom + g.count = _
      omega
  · have stays : ¬ g.number + insertedTotal gs < e''.top := fun hlt => below ((lt_moved_iff hgs).mp (start ▸ hlt))
    rw [if_neg below, Nat.add_zero] at above
    rw [Extent.shift, if_neg stays]
    refine ⟨?_, left, right, by omega, ?_⟩
    · rw [start, moved_append_of_le (Int.not_lt.mp below)]
    · rcases hx.reach with same | ⟨⟨-, held⟩, bound⟩
      · rcases h.reach with plain | ⟨x, hx, first, inside, last⟩
        · exact Or.inl (by omega)
        · rw [← moved_append_of_le (Int.le_of_lt (hgs x hx))] at inside last
          exact Or.inr ⟨x, List.mem_append_left _ hx, first, by omega, by omega⟩
      · -- the extent reaches down to the new rows of the row
        have own : moved (gs ++ [g]) g.number = g.number + insertedTotal gs := by
          rw [moved_append_of_le (Int.le_refl _), moved, insertedAbove_eq_total hgs]
        have := h.within hgs held
        exact Or.inr ⟨g, List.mem_append_right _ (List.mem_singleton_self g), Int.not_lt.mp below, by omega, by omega⟩

end

/-- A cell of an extent stays in it if and only if its row does not come to be below the end that the extent has from
its start alone. -/
theorem Reaches.holds_iff (h : e.Reaches gs e') {c : Nat} {m : Int} (held : e.Holds c m) :
    e'.Holds c (moved gs m) ↔ moved gs m ≤ e.bottom + insertedAbove gs e.top := by
  obtain ⟨top, left, right, bottom, reach⟩ := h
  obtain ⟨⟨first, last⟩, columns⟩ := held
  constructor
  · rintro ⟨⟨-, low⟩, -⟩
    rcases reach with plain | ⟨g, hg, -, inside, newest⟩
    · omega
    · by_cases hlt : g.number < m
      · have := insertedAbove_add_count_le_of_lt hg hlt
        rw [moved] at low inside newest ⊢
        omega
      · have := insertedAbove_mono gs (Int.not_lt.mp hlt)
        rw [moved] at low inside newest ⊢
        omega
  · intro low
    have := insertedAbove_mono gs first
    refine ⟨⟨?_, by omega⟩, by rwa [left, right]⟩
    rw [top, moved, moved]
    omega

end

end Extent

/-! ### Tables over a pass -/

namespace Table

/-- The extent of the table stays, or it grows by at most `n` rows below the row `x` that it covers. -/
def Extends (x : Int) (n : Nat) (t t' : Table) : Prop := ∀ e, t.Spans e → ∃ e', t'.Spans e' ∧ e.Extends x n e'

theorem Extends.trans {x : Int} {n : Nat} {a b c : Table} (h : a.Extends x n b) (h' : b.Extends x n c) :
    a.Extends x n c := by
  intro e he
  obtain ⟨e', he', first⟩ := h e he
  obtain ⟨e'', he'', second⟩ := h' e' he'
  exact ⟨e'', he'', first.trans second⟩

theorem Stretched.extends {c : Nat} {x : Int} {k n : Nat} (hk : k ≤ n) {t t' : Table} (h : Stretched c x k t t') :
    t.Extends x n t' :=
  fun e he => ⟨_, h e he, e.extends_stretch c x hk⟩

/-- The table ends up where its extent does when rows grow. -/
def Reaches (gs : List Growth) (t t' : Table) : Prop := ∀ e, t.Spans e → ∃ e', t'.Spans e' ∧ e.Reaches gs e'

/-- Shifting a table shifts its extent. -/
theorem spans_shiftTable {number count : Int} (hcount : 0 ≤ count) {t t' : Table} {e : Extent} (hs : t.Spans e)
    (h : Shift.shiftTable number count t = .ok t') : t'.Spans (e.shift number count) := by
  obtain ⟨r, hr, rfl⟩ := hs
  obtain ⟨r', hr', h⟩ := bind_eq_ok_iff.mp h
  obtain rfl : r = r' := Except.ok.inj (hr.symm.trans hr')
  split at h
  · next hlt =>
    obtain ⟨ref, hw, hset⟩ := bind_eq_ok_iff.mp h
    obtain ⟨hrange, -⟩ := setRef_down hr hcount hcount hw hset
    have hshift : r.extent.shift number count = r.extent.down count := if_pos hlt
    exact ⟨_, hrange, hshift.symm⟩
  · next hlt =>
    have hshift : r.extent.shift number count = r.extent := if_neg hlt
    rw [← Except.ok.inj h]
    exact ⟨r, hr, hshift.symm⟩

theorem spans_pushDown {name : String} {number : Int} {count : Nat} {a a' : Shift.Anchored}
    (h : Shift.pushDown name number count a = .ok a') :
    List.Forall₂ (fun t t' : Table => ∀ e, t.Spans e → t'.Spans (e.shift number count)) a.tables a'.tables := by
  unfold Shift.pushDown at h
  split at h
  · next hc =>
    obtain rfl : count = 0 := by omega
    have stays (e : Extent) : e.shift number (0 : Nat) = e := by
      unfold Extent.shift Extent.down
      simp
    rw [← Except.ok.inj h]
    exact List.forall₂_same.mpr fun t _ e he => (stays e).symm ▸ he
  · obtain ⟨sheet, -, h⟩ := bind_eq_ok_iff.mp h
    obtain ⟨tables, htables, h⟩ := bind_eq_ok_iff.mp h
    obtain ⟨workbook, -, h⟩ := bind_eq_ok_iff.mp h
    rw [← Except.ok.inj h]
    exact (mapM_eq_ok_iff.mp htables).imp fun _ _ hshift e he =>
      spans_shiftTable (Int.natCast_nonneg count) he hshift

end Table

namespace Expand

/-! ### A row of the pass -/

section
variable {site : Site}

/-- While a walk along cells inserts nothing into the new rows, the tables that cover the row grow at most down to the
last of these. -/
theorem walkCells_extends : ∀ {cells : List Element} {last : Nat} {walk walk' : Walk} {ds : List Down},
    WalkReady False site last walk → (∀ cell ∈ cells, cell.tag = Vocabulary.cell) →
    RowsRecorded site walk.work.pool ds walk.work.newRows → walk.work.Covered →
    walkCells site cells walk = .ok walk' → walk'.work.stats.columnsInserted = 0 →
      walk.work.newRows.length ≤ walk'.work.newRows.length ∧
        List.Forall₂ (Table.Extends site.number walk'.work.newRows.length) walk.work.tables walk'.work.tables
  | [], last, walk, walk', ds, _, _, _, _, h, _ => by
      rw [← Except.ok.inj h]
      exact ⟨Nat.le_refl _, List.forall₂_same.mpr fun t _ e he => ⟨e, he, .refl _ _ e⟩⟩
  | cell :: cells, last, walk, walk', ds, ready, tags, recorded, covered, h, flat => by
      obtain ⟨next, hnext, h⟩ := bind_eq_ok_iff.mp h
      obtain ⟨c, r, ⟨-, start, hfill, -, -, ready'⟩, rfl⟩ :=
        exists_cellStep ready (tags cell List.mem_cons_self) (fun _ _ => trivial) False.elim hnext
      have rest := fun d hd => tags d (List.mem_cons_of_mem cell hd)
      have first := widens.fillCell start hfill
      have later := (widens.walkCells ready' rest h).widest
      have unshifted (i : Nat) : recordShift (i + 1) ds = 0 := by
        have none : walk.work.stats.columnsInserted = 0 := by
          have := first.widest
          have later : r.work.stats.columnsInserted ≤ walk'.work.stats.columnsInserted := later
          omega
        exact recorded.unshifted (fun q hq => by have := covered q hq; omega) i
      obtain ⟨recorded', -⟩ := fillCell_recorded start (.set_ref cell _) recorded hfill
      obtain ⟨more, tables⟩ := walkCells_extends ready' rest recorded' (first.covered covered) h flat
      have more : r.work.newRows.length ≤ walk'.work.newRows.length := more
      rw [recorded'.length, newRowCount_append] at more
      refine ⟨by rw [recorded.length]; omega, ?_⟩
      have stretches := stretch_of_fillCell unshifted start recorded hfill
      refine forall₂_comp (fun _ _ _ stretched extends_ => ?_) stretches tables
      refine (Table.Stretched.extends ?_ stretched).trans extends_
      refine Nat.le_trans ?_ (Nat.le_trans (Nat.le_max_right _ _) more)
      cases downOf? site.data
          (Cell.shownText walk.work.pool (cell.set "r" (numbered (c + walk.inserted) site.number).text)) with
      | none => exact Nat.zero_le _
      | some items =>
          show items.length - 1 ≤ newRowCount [⟨cell, c + walk.inserted, items⟩]
          exact Nat.le_of_eq (newRowCount_singleton ⟨cell, c + walk.inserted, items⟩).symm

end

/-! ### All rows -/

section
variable {root : Element} {tables : List Table} {name : String} {data : Bindings} {scope : Scope}

/-- A step of a pass that inserts no columns takes the tables on to where they end up when the row grows. -/
theorem reaches_step {pass next final : Pass} {row out : Element} {number m : Int} {walk : Walk} {gs : List Growth}
    {rows : List Element} (reaches : List.Forall₂ (Table.Reaches gs) tables pass.anchored.tables)
    (hgs : ∀ g ∈ gs, g.number < m) (hnumber : number = m + insertedTotal gs)
    (step : RowStep name data scope pass row number walk out next) (ready : PassReady pass)
    (htag : row.tag = Vocabulary.worksheetRow) (htags : ∀ r ∈ rows, r.tag = Vocabulary.worksheetRow)
    (h : walkRows name data scope rows next = .ok final) (flat : final.stats.columnsInserted = 0) :
    List.Forall₂ (Table.Reaches (gs ++ [⟨m, walk.work.newRows.length⟩])) tables next.anchored.tables := by
  have ready' := step.ready ready htag
  obtain ⟨none, -⟩ := step.flat ready' htags h flat
  have uncovered : (walkStart pass).work.Covered := fun r hr => by cases hr
  obtain ⟨-, grown⟩ := walkCells_extends (walkReady_start number htag ready.sound)
    (fun _ hc => Element.tag_of_mem_childrenWith hc) (recorded_start _ _) uncovered step.walk_eq none
  have shifts := Table.spans_pushDown step.anchored_eq
  have passed : List.Forall₂ (fun t t' : Table => ∀ e, t.Spans e →
      ∃ e', e.Extends number walk.work.newRows.length e' ∧ t'.Spans (e'.shift number walk.work.newRows.length))
      pass.anchored.tables next.anchored.tables := by
    refine forall₂_comp (fun t t' t'' grown shifts e he => ?_) grown shifts
    obtain ⟨e', he', extends_⟩ := grown e he
    exact ⟨e', extends_, shifts e' he'⟩
  refine forall₂_comp (fun t t' t'' reaches passed e he => ?_) reaches passed
  obtain ⟨e', he', before⟩ := reaches e he
  obtain ⟨e'', extends_, he''⟩ := passed e' he'
  rw [hnumber] at extends_ he''
  exact ⟨_, he'', before.step (g := ⟨m, walk.work.newRows.length⟩) hgs extends_⟩

/-- Over a pass that inserts no columns every table ends up where its extent does when the rows grow. -/
theorem walkRows_reaches : ∀ {rows : List Element} {ms : List Int} {pass final : Pass} {gs : List Growth},
    Anchors root tables gs pass → List.Forall₂ (Table.Reaches gs) tables pass.anchored.tables →
    (∀ g ∈ gs, ∀ m ∈ ms, g.number < m) → List.Forall₂ (fun row m => ownNumber row = .ok m) rows ms →
    ms.Pairwise (· < ·) → PassReady pass → (∀ row ∈ rows, row.tag = Vocabulary.worksheetRow) →
    walkRows name data scope rows pass = .ok final → final.stats.columnsInserted = 0 →
      List.Forall₂ (Table.Reaches (gs ++ growths ms (rowBlocks name data scope rows pass))) tables
        final.anchored.tables
  | [], ms, pass, final, gs, _, reaches, _, hms, _, _, _, h, _ => by
      cases hms
      rw [← Except.ok.inj h, growths, List.zipWith_nil_left, List.append_nil]
      exact reaches
  | row :: rows, ms, pass, final, gs, anchors, reaches, hgs, hms, increasing, ready, htags, h, flat => by
      cases hms with
      | @cons _ m _ ms hm hms =>
          obtain ⟨next, number, walk, out, hnext, step, htag, ready', htags', h⟩ := walkRows_cons_cases ready htags h
          have above := fun g hg => hgs g hg m List.mem_cons_self
          obtain ⟨hnumber, anchors'⟩ := anchors.step above hm step htag ready.sound
          have reaches' := reaches_step reaches above hnumber step ready htag htags' h flat
          have all := walkRows_reaches anchors' reaches' (above_concat _ hgs increasing) hms
            (List.pairwise_cons.mp increasing).2 ready' htags' h flat
          rw [growths_cons hnext step]
          rwa [List.append_assoc] at all

end

/-- After a pass over a sheet whose rows carry increasing numbers that inserts no columns, every table is where its
extent ends up when the rows grow, and the rows carry the numbers that they end up with. -/
theorem reaches_of_run {sheet : Sheet} {workbook : Element} {pool : Pool} {data : Bindings} {filled : Filled}
    {numbers : List Int} (hp : pool.Sound) (hnumbers : sheet.rows.mapM ownNumber = .ok numbers)
    (increasing : numbers.Pairwise (· < ·)) (hrun : run sheet workbook pool data = .ok filled)
    (flat : filled.stats.columnsInserted = 0) :
    HeadsMoved (growths numbers (blocks sheet workbook pool data)) numbers (blocks sheet workbook pool data) ∧
      List.Forall₂ (Table.Reaches (growths numbers (blocks sheet workbook pool data))) sheet.tables
        filled.sheet.tables := by
  have hms := mapM_eq_ok_iff.mp hnumbers
  have stay : List.Forall₂ (Table.Reaches []) sheet.tables sheet.tables :=
    List.forall₂_same.mpr fun t _ e he => ⟨e, he, e.reaches_start⟩
  rcases run_cases hrun with ⟨hd, rfl⟩ | ⟨sheetData, pass, hd, hpass, rfl⟩
  · rw [rows_eq_nil hd] at hms
    cases hms
    rw [blocks_eq_nil hd]
    exact ⟨.nil, stay⟩
  · have ready := passReady_start sheet workbook hp
    have start := anchors_start sheet workbook pool
    have htags : ∀ row ∈ sheet.rows, row.tag = Vocabulary.worksheetRow := fun _ h => tag_of_mem_rows h
    have none : ∀ g ∈ ([] : List Growth), ∀ m ∈ numbers, g.number < m := fun g hg => by cases hg
    rw [blocks_eq hd]
    exact ⟨(walkRows_anchors start none hms increasing ready htags hpass).2,
      walkRows_reaches start stay none hms increasing ready htags hpass flat⟩

/-- A row ends up where the rows inserted above it put it. -/
theorem RowReached.number_eq {sheet : Sheet} {workbook : Element} {pool : Pool} {data : Bindings} {filled : Filled}
    {k : Nat} {row : Element} {scope : Scope} {before : Pass} {number m : Int} {walk : Walk} {out : Element}
    {next final : Pass} {gs : List Growth} {numbers : List Int}
    (reached : RowReached sheet workbook pool data filled k row scope before number walk out next final)
    (heads : HeadsMoved gs numbers (blocks sheet workbook pool data)) (hm : numbers[k]? = some m) :
    number = moved gs m := by
  obtain ⟨b, hb, own, rest, rfl, hown⟩ := exists_of_getElem? heads hm
  have same := Option.some.inj (hb.symm.trans reached.block)
  rw [(List.cons.inj same).1, reached.step.out_number] at hown
  exact Except.ok.inj hown

end Expand
end Gridfill

import Gridfill.Proofs.Sheet.Reached

/-!
# Passes that insert no columns

A pass keeps count of the widest growth of any row. The count only grows (`walkRows_widest`), and it is never less
than the cells inserted into a new row (`Work.Widens`) or into a row of the sheet. So when it is zero at the end, no
row has grown, and all cells are in their columns (`stand_of_flat`).
-/

namespace Gridfill

open Markup (Element Scope)
open CellRef (numbered)

namespace Expand

/-! ### What goes on along a row -/

/-- What goes on while the cells of a row are filled: it goes on when placeholders are counted and texts are put
into the pool, and when a record is placed. -/
structure Along (R : Work → Work → Prop) : Prop where
  trans {a b c : Work} : R a b → R b c → R a c
  counted {w w' : Work} {pool : Pool} : w.Counted w' → R w { w' with pool := pool }
  record {site : Site} {cell : Element} {column : String} {chosen : List Bool} {place : Nat} {item : Value}
    {work work' : Work} : placeRecord site cell column chosen place item work = .ok work' → R work work'

namespace Along

variable {R : Work → Work → Prop} (h : Along R)
include h

theorem refl (w : Work) : R w w := h.counted (.refl w)

theorem countFilled (w : Work) : R w w.countFilled :=
  h.counted (show w.Counted w.countFilled from ⟨_, _, rfl⟩)

theorem placeRecords {site : Site} {cell : Element} {column : String} {chosen : List Bool} :
    ∀ {items : List Value} {place : Nat} {work work' : Work},
      Expand.placeRecords site cell column chosen place items work = .ok work' → R work work'
  | [], _, _, _, placed => by
      rw [← Except.ok.inj placed]
      exact h.refl _
  | item :: items, _, _, _, placed => by
      obtain ⟨next, hnext, placed⟩ := bind_eq_ok_iff.mp placed
      exact h.trans (h.record hnext) (placeRecords placed)

/-- It goes on in whichever way a cell is filled. -/
theorem fillCell {site : Site} {cell : Element} {column : Nat} {work : Work} {r : Outcome}
    (ready : Ready False site cell column work) (fill : Expand.fillCell site cell work = .ok r) : R work r.work := by
  cases filling_of_fillCell fill with
  | keep same => exact h.counted same
  | @down _ _ items r _ _ _ _ spread =>
      refine h.trans ?_ (h.countFilled r.work)
      cases items with
      | nil =>
          rw [← Except.ok.inj spread]
          exact h.refl work
      | cons item items =>
          obtain ⟨chosen, below, cells, pool, work', -, -, -, placed, rfl⟩ :=
            spreadDown_cases ready.pos ready.ref spread
          exact h.trans (h.counted (.refl work)) (h.placeRecords placed)
  | right => exact h.counted ⟨_, _, rfl⟩
  | whole => exact h.counted ⟨_, _, rfl⟩
  | parts _ _ _ _ same => exact h.counted same

theorem walkCells {site : Site} : ∀ {cells : List Element} {last : Nat} {walk walk' : Walk},
    WalkReady False site last walk → (∀ cell ∈ cells, cell.tag = Vocabulary.cell) →
    Expand.walkCells site cells walk = .ok walk' → R walk.work walk'.work
  | [], _, walk, walk', _, _, walked => by
      rw [← Except.ok.inj walked]
      exact h.refl _
  | cell :: cells, last, walk, walk', ready, tags, walked => by
      obtain ⟨next, hnext, walked⟩ := bind_eq_ok_iff.mp walked
      obtain ⟨c, r, step, rfl⟩ :=
        exists_cellStep ready (tags cell List.mem_cons_self) (fun _ _ => trivial) False.elim hnext
      exact h.trans (h.fillCell step.start step.fill)
        (walkCells step.next (fun d hd => tags d (List.mem_cons_of_mem cell hd)) walked)

end Along

/-! ### New rows -/

/-- The count covers the cells inserted into each new row. -/
def Work.Covered (w : Work) : Prop := ∀ r ∈ w.newRows, r.shift ≤ w.stats.columnsInserted

/-- The count grows, and goes on covering what it has covered. -/
structure Work.Widens (w w' : Work) : Prop where
  widest : w.stats.columnsInserted ≤ w'.stats.columnsInserted
  covered : w.Covered → w'.Covered

theorem Work.Widens.trans {a b c : Work} (h : a.Widens b) (h' : b.Widens c) : a.Widens c :=
  ⟨Nat.le_trans h.widest h'.widest, fun hc => h'.covered (h.covered hc)⟩

/-- Other counts, tables and texts change nothing. -/
theorem Work.Widens.of_counted {w w' : Work} {pool : Pool} (h : w.Counted w') :
    w.Widens { w' with pool := pool } := by
  obtain ⟨_, _, rfl⟩ := h
  exact ⟨Nat.le_refl _, fun h => h⟩

section
variable {site : Site} {work work' : Work}

theorem mem_of_ensureRow {rows rows' : List NewRow} {place : Nat} (h : ensureRow site rows place = .ok rows')
    {r : NewRow} (hr : r ∈ rows') : r ∈ rows ∨ r.shift = 0 := by
  obtain ⟨i, hi⟩ := List.mem_iff_getElem?.mp hr
  rcases getElem?_of_ensureRow h hi with old | ⟨-, -, fresh⟩
  · exact Or.inl (List.mem_of_getElem? old)
  · obtain ⟨number, -, fresh⟩ := bind_eq_ok_iff.mp fresh
    rw [← Except.ok.inj fresh]
    exact Or.inr rfl

/-- Only a sequence inserts cells into the row of a record. -/
theorem inserted_of_recordCells {cell : Element} {column : String} {target : NewRow} {item : Value} {pool pool' : Pool}
    {cells : List Element} {ref : String} {inserted : Nat} (single : item.isSequence = false)
    (h : recordCells cell column target item pool = .ok (cells, ref, inserted, pool')) : inserted = 0 := by
  rw [Value.isSequence_eq_isSome_items?] at single
  unfold recordCells at h
  obtain ⟨number, -, h⟩ := bind_eq_ok_iff.mp h
  obtain ⟨own, -, h⟩ := bind_eq_ok_iff.mp h
  obtain ⟨ref', -, h⟩ := bind_eq_ok_iff.mp h
  cases hi : item.items? with
  | some items =>
      rw [hi] at single
      cases single
  | none =>
      simp only [hi] at h
      obtain ⟨filled, -, h⟩ := bind_eq_ok_iff.mp h
      obtain ⟨-, -, rfl, -⟩ : _ = cells ∧ _ = ref ∧ 0 = inserted ∧ _ = pool' := by
        simpa only [Prod.mk.injEq] using Except.ok.inj h
      rfl

theorem placeRecord_widens {cell : Element} {column : String} {chosen : List Bool} {place : Nat} {item : Value}
    (h : placeRecord site cell column chosen place item work = .ok work') : work.Widens work' := by
  obtain ⟨rows, hrows, ⟨-, rfl⟩ | ⟨target, cells, ref, inserted, pool, grown, tables, widest, htarget, hcells, hgrown,
    -, hwidest, rfl⟩⟩ := placeRecord_cases h
  · exact .of_counted (.refl _)
  · obtain ⟨row, -, hgrown⟩ := bind_eq_ok_iff.mp hgrown
    have shift : grown.shift = target.shift + inserted := by
      rw [← Except.ok.inj hgrown]
    have old : work.stats.columnsInserted ≤ widest := by
      rw [hwidest]
      split
      · exact Nat.le_max_left _ _
      · exact Nat.le_refl _
    refine ⟨old, fun covered r hr => ?_⟩
    have kept (q : NewRow) (hq : q ∈ rows) : q.shift ≤ work.stats.columnsInserted := by
      rcases mem_of_ensureRow hrows hq with hq | hq
      · exact covered q hq
      · omega
    rcases List.mem_or_eq_of_mem_set hr with hr | rfl
    · exact Nat.le_trans (kept r hr) old
    · show r.shift ≤ widest
      cases single : item.isSequence with
      | true =>
          rw [hwidest, single, if_pos rfl]
          exact Nat.le_max_right _ _
      | false =>
          have inserted := inserted_of_recordCells single hcells
          have := kept target (List.mem_of_getElem? htarget)
          omega

/-- Placing a record and whatever else is done with a cell only widens. -/
theorem widens : Along Work.Widens := ⟨.trans, .of_counted, placeRecord_widens⟩

end

/-! ### Rows of the sheet -/

/-- Cells that nothing is inserted for are in their columns, moved by the cells inserted before them. -/
theorem stand_of_flat {site : Site} : ∀ {cells : List Element} {last : Nat} {walk walk' : Walk},
    WalkReady False site last walk → (∀ cell ∈ cells, cell.tag = Vocabulary.cell) →
    walkCells site cells walk = .ok walk' → walk.inserted ≤ walk'.inserted ∧ (walk'.inserted = walk.inserted →
      ∃ columns added, effectiveColumns last cells = .ok columns ∧ walk'.cells = walk.cells ++ added ∧
        StandAt site.number (columns.map (· + walk.inserted)) added)
  | [], _, walk, walk', _, _, h => by
      rw [← Except.ok.inj h]
      exact ⟨Nat.le_refl _, fun _ => ⟨[], [], rfl, (List.append_nil _).symm, rfl⟩⟩
  | cell :: cells, last, walk, walk', ready, tags, h => by
      obtain ⟨next, hnext, h⟩ := bind_eq_ok_iff.mp h
      obtain ⟨c, r, ⟨hc, -, -, done, -, ready'⟩, rfl⟩ :=
        exists_cellStep ready (tags cell List.mem_cons_self) (fun _ _ => trivial) False.elim hnext
      obtain ⟨more, rest⟩ := stand_of_flat ready' (fun d hd => tags d (List.mem_cons_of_mem cell hd)) h
      rw [Walk.filled_inserted] at more rest
      refine ⟨by omega, fun flat => ?_⟩
      have none : r.inserted = 0 := by omega
      have same : walk'.inserted = walk.inserted + r.inserted := by omega
      obtain ⟨columns, added, hcolumns, hcells, stand⟩ := rest same
      have single := done.lies.stand
      rw [done.lies.length, none] at single
      rw [none] at stand
      exact ⟨c :: columns, r.cells ++ added, effectiveColumns_cons hc hcolumns,
        hcells.trans (List.append_assoc _ _ _), StandAt.append single stand⟩

section
variable {name : String} {data : Bindings} {scope : Scope}

/-- The count only grows while a pass goes down the rows. -/
theorem walkRows_widest : ∀ {rows : List Element} {pass final : Pass}, PassReady pass →
    (∀ row ∈ rows, row.tag = Vocabulary.worksheetRow) → walkRows name data scope rows pass = .ok final →
      pass.stats.columnsInserted ≤ final.stats.columnsInserted
  | [], _, _, _, _, h => by
      obtain rfl := Except.ok.inj h
      exact Nat.le_refl _
  | row :: rows, pass, final, ready, htags, h => by
      obtain ⟨next, number, walk, out, -, step, htag, ready', htags', h⟩ := walkRows_cons_cases ready htags h
      have rest := walkRows_widest ready' htags' h
      have first : pass.stats.columnsInserted ≤ walk.work.stats.columnsInserted :=
        (widens.walkCells (walkReady_start number htag ready.sound)
          (fun _ hc => Element.tag_of_mem_childrenWith hc) step.walk_eq).widest
      have := step.columnsInserted
      omega

end

/-- When no columns were inserted at the end of the pass, none were when the walk along the row came to its end. -/
theorem RowStep.flat {name : String} {data : Bindings} {scope : Scope} {pass next final : Pass} {row out : Element}
    {rows : List Element} {number : Int} {walk : Walk}
    (step : RowStep name data scope pass row number walk out next) (ready : PassReady next)
    (htags : ∀ row ∈ rows, row.tag = Vocabulary.worksheetRow) (h : walkRows name data scope rows next = .ok final)
    (flat : final.stats.columnsInserted = 0) : walk.work.stats.columnsInserted = 0 ∧ walk.inserted = 0 := by
  have widest := walkRows_widest ready htags h
  rw [step.columnsInserted, flat] at widest
  omega

section
variable {sheet : Sheet} {workbook : Element} {pool : Pool} {data : Bindings} {filled : Filled} {k : Nat}
  {row : Element} {scope : Scope} {before : Pass} {number : Int} {walk : Walk} {out : Element} {next final : Pass}
  (reached : RowReached sheet workbook pool data filled k row scope before number walk out next final)
include reached

/-- When a pass inserts no columns, the cells of a row stay in their columns. -/
theorem RowReached.stand (flat : filled.stats.columnsInserted = 0) {e : Element} (hm : e.meaning = out.meaning) :
    ∃ columns, effectiveColumns 0 (cellsOf row) = .ok columns ∧ StandAt number columns (cellsOf e) := by
  have ready := reached.step.ready reached.ready reached.tag
  obtain ⟨-, none⟩ := reached.step.flat ready (fun r hr => tag_of_mem_rows (List.mem_of_mem_drop hr)) reached.rest
    (reached.stats ▸ flat)
  obtain ⟨columns, added, hcolumns, hcells, stand⟩ := (stand_of_flat reached.walkReady
    (fun _ hc => Element.tag_of_mem_childrenWith hc) reached.step.walk_eq).2 none
  have same : columns.map (· + (walkStart before).inserted) = columns := List.map_id _
  have hcells : walk.cells = added := hcells.trans (List.nil_append added)
  rw [same, ← hcells] at stand
  exact ⟨columns, hcolumns, stand.of_meaning (reached.cells hm)⟩

end

end Expand
end Gridfill

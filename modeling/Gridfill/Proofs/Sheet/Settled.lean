import Gridfill.Proofs.Sheet.Completes

/-!
# Passes that fill everything

When the values complete the texts that the cells show, every cell that a pass leaves is settled: the cells that are
kept, filled, laid out and copied into new rows (`settles_fillCell`), and with them the rows, which hold nothing else
(`settled_walkRows`). All texts that come into the pool on the way are bare, so a cell that is not reached yet shows its
own text or a bare one (`settled_of_run`).
-/

namespace Gridfill

open Markup (Element Node Scope)
open CellRef (numbered)
open Placeholder (Bare)

namespace Expand

open Cell (Readable)

/-! ### Cells side by side -/

theorem one_le_of_wide {c : Nat} {m : Int} (h : (numbered c m).Wide) : 1 ≤ c := by
  obtain ⟨n, positive, letters⟩ := h.column
  obtain rfl : c = n := Reference.columnLetters_injective (String.ofList_injective letters)
  exact positive

theorem wide_right {c : Nat} {m : Int} (h : (numbered c m).Wide) (k : Nat) : (numbered (c + k) m).Wide := by
  have := one_le_of_wide h
  exact ⟨⟨c + k, by omega, rfl⟩, h.row_pos, h.row_lt⟩

section
variable {cell : Element} {c : Nat} {m : Int} (tag : cell.tag = Vocabulary.cell) (wide : (numbered c m).Wide)
  (own : cell.Writes "r" (numbered c m).text)

include wide own in
theorem writes_copyRight {copy : Element} {k : Nat} (h : copyRight cell k = .ok copy) :
    copy.Writes "r" (numbered (c + k) m).text := by
  unfold copyRight at h
  split at h
  · next hk =>
    rw [← Except.ok.inj h, hk]
    exact Element.writes_of_meaning (Element.meaning_copy cell).symm own
  · obtain ⟨ref, href, h⟩ := bind_eq_ok_iff.mp h
    rw [own.attributeOr] at href
    rw [← Except.ok.inj h, shift_numbered (one_le_of_wide wide) href]
    exact cell.copy.writes_set _ _

include tag wide own

theorem settled_layRight : ∀ {items : List Value} {offset : Nat} {pool pool' : Pool} {cells : List Element},
    pool.Sound → (∀ v ∈ items, Bare v.wording) → layRight cell offset items pool = .ok (cells, pool') →
      Pool.Cleans pool pool' ∧ ∀ e ∈ cells, Cell.Settled pool' m e
  | [], _, pool, pool', cells, _, _, h => by
      injection Except.ok.inj h with h1 h2
      subst h1 h2
      exact ⟨.refl pool, fun _ he => by cases he⟩
  | v :: vs, offset, pool, pool', cells, hp, bare, h => by
      obtain ⟨copy, hcopy, h⟩ := bind_eq_ok_iff.mp h
      obtain ⟨⟨first, pool₁⟩, hfirst, h⟩ := bind_eq_ok_iff.mp h
      obtain ⟨⟨rest, pool₂⟩, hrest, h⟩ := bind_eq_ok_iff.mp h
      injection Except.ok.inj h with h1 h2
      subst h1 h2
      have tag' := (copyRight_spec (one_le_of_wide wide) own.attribute? hcopy).1.tag.trans tag
      obtain ⟨cleans, first⟩ := Cell.settled_fill hp tag' (wide_right wide offset) (writes_copyRight wide own hcopy)
        (bare v List.mem_cons_self) hfirst
      obtain ⟨cleans', others⟩ := settled_layRight (cleans.sound hp) (fun u hu => bare u (List.mem_cons_of_mem v hu)) hrest
      refine ⟨cleans.trans cleans', fun e he => ?_⟩
      rcases List.mem_cons.mp he with rfl | he
      · exact first.mono cleans'
      · exact others e he

theorem settled_spread {items : List Value} {pool pool' : Pool} {cells : List Element} (hp : pool.Sound)
    (bare : ∀ v ∈ laidOut items, Bare v.wording) (h : spread cell items pool = .ok (cells, pool')) :
    Pool.Cleans pool pool' ∧ ∀ e ∈ cells, Cell.Settled pool' m e :=
  settled_layRight tag wide own hp bare h

/-- The cells of a value are settled when the texts that stand side by side for it are bare. -/
theorem settled_of_puts {item : Value} {pool pool' : Pool} {cells : List Element} (hp : pool.Sound)
    (bare : ∀ v ∈ sideBySide item, Bare v.wording) (h : Puts cell item pool cells pool') :
    Pool.Cleans pool pool' ∧ ∀ e ∈ cells, Cell.Settled pool' m e := by
  cases h with
  | @sequence items _ _ hitems hspread =>
      rw [sideBySide_of_items? hitems] at bare
      exact settled_spread tag wide own hp bare hspread
  | single hitems hfill =>
      rw [sideBySide_of_items?_none hitems] at bare
      obtain ⟨cleans, settled⟩ := Cell.settled_fill hp tag wide own (bare item List.mem_cons_self) hfill
      refine ⟨cleans, fun e he => ?_⟩
      rw [List.mem_singleton.mp he]
      exact settled

end

/-! ### New rows -/

/-- The row has its number written out and holds nothing but settled cells. -/
structure RowSettled (pool : Pool) (number : Int) (row : Element) : Prop where
  readable : number.natAbs < Text.integerBound
  written : row.Writes "r" (toString number)
  content : row.HoldsOnly Vocabulary.cell
  cells : ∀ cell ∈ cellsOf row, Cell.Settled pool number cell

theorem RowSettled.mono {p q : Pool} {number : Int} {row : Element} (h : RowSettled p number row)
    (hc : Pool.Cleans p q) : RowSettled q number row :=
  ⟨h.readable, h.written, h.content, fun cell hcell => (h.cells cell hcell).mono hc⟩

/-- Cells that mean what settled cells mean are settled. -/
theorem settled_of_meanings {pool : Pool} {number : Int} {cells others : List Element}
    (hm : others.map Element.meaning = cells.map Element.meaning) (h : ∀ cell ∈ cells, Cell.Settled pool number cell) :
    ∀ cell ∈ others, Cell.Settled pool number cell := by
  intro e he
  obtain ⟨d, hd, same⟩ := List.mem_map.mp (hm ▸ List.mem_map_of_mem he)
  exact (h d hd).of_meaning same.symm

theorem RowSettled.of_meaning {pool : Pool} {number : Int} {a b : Element} (hm : a.meaning = b.meaning)
    (h : RowSettled pool number b) : RowSettled pool number a where
  readable := h.readable
  written := Element.writes_of_meaning hm.symm h.written
  content := Element.holdsOnly_of_meaning hm.symm h.content
  cells := settled_of_meanings (Markup.childrenWith_eq_of_meaning hm Vocabulary.cell) h.cells

theorem RowSettled.widen {pool : Pool} {number : Int} {row row' : Element} {n : Int} (h : RowSettled pool number row)
    (hw : widenRow row n = .ok row') : RowSettled pool number row' := by
  rcases widenRow_cases hw with rfl | ⟨spans, rfl⟩
  · exact h
  · exact ⟨h.readable, h.written.set_ne (by decide) spans, h.content, h.cells⟩

/-- All new rows behind a row are settled. -/
def RowsSettled (pool : Pool) (number : Int) (rows : List NewRow) : Prop :=
  ∀ (i : Nat) (r : NewRow), rows[i]? = some r → RowSettled pool (number + i + 1) r.row

theorem RowsSettled.mono {p q : Pool} {number : Int} {rows : List NewRow} (h : RowsSettled p number rows)
    (hc : Pool.Cleans p q) : RowsSettled q number rows :=
  fun i r hr => (h i r hr).mono hc

section
variable {site : Site}

theorem rowsSettled_ensureRow {pool : Pool} {rows rows' : List NewRow} {place : Nat}
    (h : ensureRow site rows place = .ok rows') (settled : RowsSettled pool site.number rows) :
    RowsSettled pool site.number rows' := by
  intro i r hr
  rcases getElem?_of_ensureRow h hr with old | ⟨-, -, fresh⟩
  · exact settled i r old
  · obtain ⟨s, hs, fresh⟩ := bind_eq_ok_iff.mp fresh
    obtain ⟨readable, rfl⟩ := writeInteger_eq_ok_iff.mp hs
    rw [← Except.ok.inj fresh]
    exact ⟨readable, Element.writes_set _ _ _, fun _ hn => absurd hn List.not_mem_nil,
      fun _ hc => absurd hc List.not_mem_nil⟩

/-- Placing a record whose texts are bare. -/
theorem settled_placeRecord {cell : Element} (tag : cell.tag = Vocabulary.cell) {c : Nat}
    (wide : (numbered c site.number).Wide) {chosen : List Bool} {place : Nat} {item : Value}
    (bare : ∀ v ∈ sideBySide item, Bare v.wording) {work work' : Work}
    (hp : work.pool.Sound) (settled : RowsSettled work.pool site.number work.newRows)
    (h : placeRecord site cell (String.ofList (Reference.columnLetters c)) chosen place item work = .ok work') :
    Pool.Cleans work.pool work'.pool ∧ RowsSettled work'.pool site.number work'.newRows := by
  obtain ⟨rows, hrows, ⟨-, rfl⟩ | ⟨target, cells, ref, inserted, pool, grown, tables, widest, htarget, hcells, hgrown,
    -, -, rfl⟩⟩ := placeRecord_cases h
  · exact ⟨.refl _, settled⟩
  have held := rowsSettled_ensureRow hrows settled
  have row := held place target htarget
  have number : parseInteger (target.row.attributeOr "r" "") = .ok (site.number + place + 1) := by
    rw [row.written.attributeOr]
    exact parseInteger_of_write (writeInteger_eq_ok_iff.mpr ⟨row.readable, rfl⟩)
  have below : (numbered (c + target.shift) (site.number + place + 1)).Wide := by
    have top : 1 ≤ site.number := wide.row_pos
    have left := one_le_of_wide wide
    exact ⟨⟨c + target.shift, by omega, rfl⟩, by show 1 ≤ site.number + place + 1; omega, row.readable⟩
  obtain ⟨rfl, -, puts⟩ := recordCells_cases (one_le_of_wide wide) number hcells
  obtain ⟨cleans, put⟩ := settled_of_puts ((sameStyle_copyAt cell _).tag.trans tag) below
    (cell.copy.writes_set _ _) hp bare puts
  have grown_settled : RowSettled pool (site.number + place + 1) grown.row := by
    obtain ⟨row', hrow', hgrown⟩ := bind_eq_ok_iff.mp hgrown
    have tags : ∀ e ∈ cells, e.tag = Vocabulary.cell := fun e he => (put e he).tag
    rw [← Except.ok.inj hgrown]
    refine RowSettled.widen ⟨row.readable, row.written.foldl_append [], row.content.foldl_append [] tags, ?_⟩ hrow'
    have means := Element.meaning_childrenWith_foldl_append [] target.row tags
    rw [← List.map_append] at means
    refine settled_of_meanings means fun e he => ?_
    rcases List.mem_append.mp he with he | he
    · exact (row.cells e he).mono cleans
    · exact put e he
  refine ⟨cleans, fun i r hr => ?_⟩
  rcases eq_or_of_getElem?_set hr with ⟨rfl, rfl⟩ | ⟨-, hr⟩
  · exact grown_settled
  · exact (held i r hr).mono cleans

/-- Placing records whose texts are bare. -/
theorem settled_placeRecords {cell : Element} (tag : cell.tag = Vocabulary.cell) {c : Nat}
    (wide : (numbered c site.number).Wide) {chosen : List Bool} :
    ∀ {items : List Value} {place : Nat} {work work' : Work},
      (∀ item ∈ items, ∀ v ∈ sideBySide item, Bare v.wording) → work.pool.Sound →
      RowsSettled work.pool site.number work.newRows →
      placeRecords site cell (String.ofList (Reference.columnLetters c)) chosen place items work = .ok work' →
        Pool.Cleans work.pool work'.pool ∧ RowsSettled work'.pool site.number work'.newRows
  | [], _, _, _, _, _, settled, h => by
      rw [← Except.ok.inj h]
      exact ⟨.refl _, settled⟩
  | item :: items, place, work, work', bare, hp, settled, h => by
      obtain ⟨next, hnext, h⟩ := bind_eq_ok_iff.mp h
      obtain ⟨cleans, settled'⟩ := settled_placeRecord tag wide (bare item List.mem_cons_self) hp settled hnext
      obtain ⟨cleans', settled''⟩ := settled_placeRecords tag wide
        (fun r hr => bare r (List.mem_cons_of_mem item hr)) (cleans.sound hp) settled' h
      exact ⟨cleans.trans cleans', settled''⟩

/-! ### Filling a cell -/

/-- What is known of a cell that is to be filled with values that complete its text. -/
structure Completed (site : Site) (cell : Element) (c : Nat) (work : Work) : Prop where
  sound : work.pool.Sound
  tag : cell.tag = Vocabulary.cell
  wide : (numbered c site.number).Wide
  written : cell.Writes "r" (numbered c site.number).text
  fillable : Cell.Fillable site.data work.pool cell
  rows : RowsSettled work.pool site.number work.newRows

/-- What is known of cells that took the place of such a cell. -/
structure Settles (site : Site) (before : Pool) (r : Outcome) : Prop where
  cleans : Pool.Cleans before r.work.pool
  cells : ∀ e ∈ r.cells, Cell.Settled r.work.pool site.number e
  rows : RowsSettled r.work.pool site.number r.work.newRows

section
variable {cell : Element} {c : Nat} {work : Work} {r : Outcome}

/-- A cell that shows no text, or a bare one, stays. -/
theorem Completed.kept (ready : Completed site cell c work) (bare : ∀ t, Cell.shownText work.pool cell = some t → Bare t) :
    Cell.Settled work.pool site.number cell :=
  ⟨ready.tag, ⟨c, ready.wide, ready.written⟩, ready.fillable.readable, bare⟩

theorem settles_spreadDown (ready : Completed site cell c work) {items : List Value}
    (bare : ∀ item ∈ items, ∀ v ∈ sideBySide item, Bare v.wording) (h : spreadDown site cell items work = .ok r) :
    Settles site work.pool r := by
  cases items with
  | nil =>
      rw [← Except.ok.inj h]
      refine ⟨.refl _, fun e he => ?_, ready.rows⟩
      rw [List.mem_singleton.mp he]
      exact Cell.settled_clear ready.tag ready.wide ready.written
  | cons item items =>
      obtain ⟨chosen, below, cells, pool, work', hchosen, style, puts, hwork, rfl⟩ :=
        spreadDown_cases (one_le_of_wide ready.wide) ready.written.attribute? h
      obtain ⟨cleans, put⟩ := settled_of_puts ready.tag ready.wide ready.written ready.sound
        (bare item List.mem_cons_self) puts
      have start : RowsSettled ({ work with pool := pool } : Work).pool site.number work.newRows := ready.rows.mono cleans
      obtain ⟨cleans', rows⟩ := settled_placeRecords (style.tag.trans ready.tag) ready.wide
        (fun r hr => bare r (List.mem_cons_of_mem item hr)) (cleans.sound ready.sound) start hwork
      exact ⟨cleans.trans cleans', fun e he => (put e he).mono cleans', rows⟩

/-- The value of a placeholder that is the whole text. -/
theorem settles_putWhole (ready : Completed site cell c work) {text : String} {v : Value} (bare : Bare v.wording)
    {e : Element} {pool : Pool} (h : putWhole cell text v work.pool = .ok (e, pool)) :
    Pool.Cleans work.pool pool ∧ Cell.Settled pool site.number e := by
  rcases putWhole_cases h with ⟨s, rfl, hfill⟩ | ⟨-, hfill⟩
  · have cleans : Pool.Cleans work.pool (work.pool.replace text s).1 := Pool.cleans_replace ready.sound text bare
    obtain ⟨more, settled⟩ := Cell.settled_fill (cleans.sound ready.sound) ready.tag ready.wide ready.written bare hfill
    exact ⟨cleans.trans more, settled⟩
  · exact Cell.settled_fill ready.sound ready.tag ready.wide ready.written bare hfill

/-- Placeholders among other text. -/
theorem settles_fillParts (ready : Completed site cell c work) {text : String}
    (bare : Bare (Header.filledText site.data (Placeholder.scan text) text))
    (shown : Cell.shownText work.pool cell = some text)
    (h : fillParts site cell text (Placeholder.scan text) work = .ok r) : Settles site work.pool r := by
  obtain ⟨⟨s, changed, work'⟩, htext, h⟩ := bind_eq_ok_iff.mp h
  obtain ⟨counted, -⟩ := fillText_spec site.data htext
  obtain ⟨filled, changes⟩ := filledText_of_fillText htext
  obtain ⟨_, _, rfl⟩ := counted
  rw [← filled] at bare
  cases changed with
  | true =>
      have text_bare : ∀ t, CellForm.text s = .text t → Bare t := fun t ht => CellForm.text.inj ht ▸ bare
      obtain ⟨cleans, settled⟩ := Cell.settled_writeForm ready.sound ready.tag ready.wide ready.written text_bare
      rw [← Except.ok.inj h]
      refine ⟨cleans, fun e he => ?_, ready.rows.mono cleans⟩
      rw [List.mem_singleton.mp he]
      exact settled
  | false =>
      rw [(changes rfl).2] at bare
      rw [← Except.ok.inj h]
      refine ⟨.refl _, fun e he => ?_, ready.rows⟩
      rw [List.mem_singleton.mp he]
      refine ready.kept fun t ht => ?_
      rwa [← Option.some.inj (shown.symm.trans ht)]

/-- The cells in the place of a cell whose text the values complete are settled, and so are the cells of the new
rows. -/
theorem settles_fillCell (ready : Completed site cell c work) (h : fillCell site cell work = .ok r) :
    Settles site work.pool r := by
  cases shown : Cell.shownText work.pool cell with
  | none =>
      unfold fillCell at h
      rw [shown] at h
      rw [← Except.ok.inj h]
      refine ⟨.refl _, fun e he => ?_, ready.rows⟩
      rw [List.mem_singleton.mp he]
      refine ready.kept fun t ht => ?_
      rw [shown] at ht
      cases ht
  | some text =>
      have completes := ready.fillable.text text shown
      -- a text with placeholders among other text, none of which is laid out
      have parts (apart : ∀ p ∈ Placeholder.scan text, p.whole = false) : Settles site work.pool r := by
        have only : ∀ p, Placeholder.scan text = [p] → p.whole = false := fun p scan =>
          apart p (by rw [scan]; exact List.mem_singleton_self p)
        rw [fillCell_of_parts shown only] at h
        refine settles_fillParts ready (completes.filledText fun p hp => completes.find? hp ?_) shown h
        rw [Placeholder.layout?, apart p hp]
        rfl
      by_cases whole : ∃ p ∈ Placeholder.scan text, p.whole = true
      · obtain ⟨p, hp, whole⟩ := whole
        have scan := Placeholder.scan_of_whole completes.inside hp whole
        have rendered := completes.bare p hp
        unfold Placeholder.rendered at rendered
        cases layout : p.layout? site.data with
        | none =>
            obtain ⟨v, found, bare⟩ := completes.find? hp layout
            rw [fillCell_of_find? shown scan whole layout found] at h
            obtain ⟨⟨e, pool⟩, hput, rfl⟩ := map_eq_ok_iff.mp h
            obtain ⟨cleans, settled⟩ := settles_putWhole ready bare hput
            refine ⟨cleans, fun e he => ?_, ready.rows.mono cleans⟩
            rw [List.mem_singleton.mp he]
            exact settled
        | some items =>
            rw [layout] at rendered
            rw [fillCell_of_layout? shown scan layout] at h
            by_cases table : p.isTable = true
            · simp only [table, if_true] at rendered h
              obtain ⟨r', hr', rfl⟩ := map_eq_ok_iff.mp h
              have settles := settles_spreadDown ready (fun item hitem v hv =>
                rendered v (List.mem_append_left _ (List.mem_flatMap.mpr ⟨item, hitem, hv⟩))) hr'
              exact ⟨settles.cleans, settles.cells, settles.rows⟩
            · simp only [if_neg table] at rendered h
              obtain ⟨⟨cells, pool⟩, hspread, rfl⟩ := map_eq_ok_iff.mp h
              have bare : ∀ v ∈ laidOut items, Bare v.wording := by
                intro v hv
                unfold laidOut at hv
                split at hv
                · rw [List.mem_singleton.mp hv]
                  exact Placeholder.bare_empty
                · exact rendered v hv
              obtain ⟨cleans, settled⟩ := settled_spread ready.tag ready.wide ready.written ready.sound bare hspread
              have rows : RowsSettled pool site.number work.newRows := ready.rows.mono cleans
              exact ⟨cleans, settled, rows⟩
      · refine parts fun p hp => ?_
        rw [← Bool.not_eq_true]
        exact fun h => whole ⟨p, hp, h⟩

end

/-! ### The walk along a row -/

/-- Along cells whose texts the values complete the cells that are put in are settled, and so are the new rows. -/
theorem settled_walkCells : ∀ {cells : List Element} {last : Nat} {walk walk' : Walk},
    walk.lastColumn = last + walk.inserted → walk.work.pool.Sound → (∀ cell ∈ cells, cell.tag = Vocabulary.cell) →
    (∀ cell ∈ cells, Cell.Fillable site.data walk.work.pool cell) →
    (∀ e ∈ walk.cells, Cell.Settled walk.work.pool site.number e) →
    RowsSettled walk.work.pool site.number walk.work.newRows → walkCells site cells walk = .ok walk' →
      Pool.Cleans walk.work.pool walk'.work.pool ∧ (∀ e ∈ walk'.cells, Cell.Settled walk'.work.pool site.number e) ∧
        RowsSettled walk'.work.pool site.number walk'.work.newRows
  | [], _, _, _, _, _, _, _, settled, rows, h => by
      rw [← Except.ok.inj h]
      exact ⟨.refl _, settled, rows⟩
  | cell :: cells, last, walk, walk', column, hp, tags, fillable, settled, rows, h => by
      obtain ⟨next, hnext, h⟩ := bind_eq_ok_iff.mp h
      obtain ⟨c, r, -, valid, hfill, rfl⟩ := exists_of_stepCell column hnext
      have here := fillable cell List.mem_cons_self
      have ready : Completed site (cell.set "r" (numbered (c + walk.inserted) site.number).text) (c + walk.inserted)
          walk.work :=
        ⟨hp, tags cell List.mem_cons_self, valid.wide, cell.writes_set _ _,
          ⟨here.readable.set_ref _, by rw [Cell.shownText_set_ref]; exact here.text⟩, rows⟩
      obtain ⟨cleans, put, rows'⟩ := settles_fillCell ready hfill
      have column' : (walk.filled c r).lastColumn = c + (walk.filled c r).inserted := by
        show ((c + walk.inserted : Nat) : Int) + r.inserted = c + (walk.inserted + r.inserted : Nat)
        omega
      have settled' : ∀ e ∈ (walk.filled c r).cells, Cell.Settled (walk.filled c r).work.pool site.number e := by
        intro e he
        rcases List.mem_append.mp he with he | he
        · exact (settled e he).mono cleans
        · exact put e he
      obtain ⟨cleans', result⟩ := settled_walkCells column' (cleans.sound hp)
        (fun d hd => tags d (List.mem_cons_of_mem cell hd))
        (fun d hd => (fillable d (List.mem_cons_of_mem cell hd)).mono cleans) settled' rows' h
      exact ⟨cleans.trans cleans', result⟩

end

/-! ### The walk down the rows -/

section
variable {name : String} {data : Bindings} {scope : Scope}

/-- A row whose cells have texts that the values complete makes way for settled rows. -/
theorem RowStep.settled {pass next : Pass} {row out : Element} {number : Int} {walk : Walk}
    (step : RowStep name data scope pass row number walk out next) (hp : pass.pool.Sound)
    (fillable : ∀ cell ∈ cellsOf row, Cell.Fillable data pass.pool cell) :
    Pool.Cleans pass.pool next.pool ∧
      ∀ e ∈ out :: walk.work.newRows.map (·.row), ∃ number, RowSettled next.pool number e := by
  have start : (walkStart pass).lastColumn = (0 : Nat) + (walkStart pass).inserted := rfl
  have fillable : ∀ cell ∈ cellsOf row,
    Cell.Fillable (siteOf data scope row number).data (walkStart pass).work.pool cell := fillable
  obtain ⟨cleans, cells, rows⟩ := settled_walkCells start hp (fun _ hc => Element.tag_of_mem_childrenWith hc) fillable
    (fun _ he => by cases he) (fun _ _ hr => by cases hr) step.walk_eq
  rw [step.pool]
  refine ⟨cleans, fun e he => ?_⟩
  rcases List.mem_cons.mp he with rfl | he
  · have tags : ∀ d ∈ walk.cells, d.tag = Vocabulary.cell := fun d hd => (cells d hd).tag
    have whole : RowSettled walk.work.pool number
        ((row.set "r" (toString number)).replaceContent scope (walk.cells.map Node.element)) :=
      ⟨step.writable, row.writes_set _ _, Element.holdsOnly_replaceContent scope _ tags,
        settled_of_meanings (Element.meaning_childrenWith_replaceContent scope _ tags) cells⟩
    exact ⟨number, whole.widen step.out_eq⟩
  · obtain ⟨r, hr, rfl⟩ := List.mem_map.mp he
    obtain ⟨i, hi⟩ := List.mem_iff_getElem?.mp hr
    exact ⟨_, rows i r hi⟩

theorem settled_walkRows : ∀ {rows : List Element} {pass final : Pass}, pass.pool.Sound →
    (∀ row ∈ rows, ∀ cell ∈ cellsOf row, Cell.Fillable data pass.pool cell) →
    (∀ row ∈ pass.rows, ∃ number, RowSettled pass.pool number row) → walkRows name data scope rows pass = .ok final →
      Pool.Cleans pass.pool final.pool ∧ ∀ row ∈ final.rows, ∃ number, RowSettled final.pool number row
  | [], _, _, _, _, settled, h => by
      rw [← Except.ok.inj h]
      exact ⟨.refl _, settled⟩
  | row :: rows, pass, final, hp, fillable, settled, h => by
      obtain ⟨next, hnext, h⟩ := bind_eq_ok_iff.mp h
      obtain ⟨number, walk, out, step⟩ := stepRow_cases hnext
      obtain ⟨cleans, block⟩ := step.settled hp (fillable row List.mem_cons_self)
      have settled' : ∀ r ∈ next.rows, ∃ number, RowSettled next.pool number r := by
        intro r hr
        rw [step.rows] at hr
        rcases List.mem_append.mp hr with hr | hr
        · obtain ⟨m, done⟩ := settled r hr
          exact ⟨m, done.mono cleans⟩
        · exact block r hr
      obtain ⟨cleans', result⟩ := settled_walkRows (cleans.sound hp)
        (fun r hr cell hc => (fillable r (List.mem_cons_of_mem row hr) cell hc).mono cleans) settled' h
      exact ⟨cleans.trans cleans', result⟩

end

/-- In a sheet whose cells have texts that the values complete a pass leaves settled rows and nothing else in their
place. -/
theorem settled_of_run {sheet : Sheet} {workbook : Element} {pool : Pool} {data : Bindings} {filled : Filled}
    (hp : pool.Sound) (fillable : ∀ row ∈ sheet.rows, ∀ cell ∈ cellsOf row, Cell.Fillable data pool cell)
    (h : run sheet workbook pool data = .ok filled) :
    Pool.Cleans pool filled.pool ∧ (∀ row ∈ filled.sheet.rows, ∃ number, RowSettled filled.pool number row) ∧
      ∀ sheetData, filled.sheet.data? = some sheetData → sheetData.HoldsOnly Vocabulary.worksheetRow := by
  rcases run_cases h with ⟨hd, rfl⟩ | ⟨sheetData, pass, hd, hpass, rfl⟩
  · refine ⟨.refl pool, fun row hrow => ?_, fun sheetData hdata => ?_⟩
    · rw [rows_eq_nil hd] at hrow
      cases hrow
    · rw [hd] at hdata
      cases hdata
  · have sound : (passStart sheet workbook pool).pool.Sound := hp
    obtain ⟨cleans, settled⟩ := settled_walkRows sound fillable (fun _ hr => by cases hr) hpass
    obtain ⟨-, ready⟩ := walkRows_ready (fun _ => True) (passReady_start sheet workbook hp)
      (fun _ h => tag_of_mem_rows h) (fun _ _ _ _ _ _ => trivial) hpass
    have other := walkRows_other Vocabulary.sheetData (by decide) hpass
    refine ⟨cleans, fun row hrow => ?_, fun data' hdata' => ?_⟩
    · have means := rows_passSheet hd ready other
      obtain ⟨r, hr, same⟩ := List.mem_map.mp (means ▸ List.mem_map_of_mem hrow)
      obtain ⟨number, done⟩ := settled r hr
      exact ⟨number, done.of_meaning same.symm⟩
    · rw [data?_passSheet hd other] at hdata'
      rw [← Option.some.inj hdata']
      exact Element.holdsOnly_replaceContent _ _ ready.tags

end Expand
end Gridfill

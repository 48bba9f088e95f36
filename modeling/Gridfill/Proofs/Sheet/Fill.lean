import Gridfill.Proofs.Sheet.Records

/-!
# What becomes of a cell

The ways in which a cell is filled (`Filling`), read off once from the program (`filling_of_fillCell`), and
what follows for all of them: the cells in the place of a cell stand side by side, as many as its text asks
for (`cellWidth`); a cell whose text holds no placeholder that resolves stays as it is.
-/

namespace Gridfill

open Markup (Element)
open CellRef (numbered)

/-! ### What a text asks for -/

/-- The sequence that is laid out in the place of a placeholder: for one of the table or the normal kind that
spans its whole text and is bound to a sequence, the parts of the elements that its key names. -/
def Placeholder.layout? (data : Bindings) (p : Placeholder) : Option (List Value) :=
  if p.whole && (p.isTable || p.isNormal) then
    ((data.lookup p.name).bind Value.items?).map (data.parts p.key)
  else none

/-- Do the values resolve the placeholder: is it laid out, or does it name a part of a value? -/
def Placeholder.resolves (data : Bindings) (p : Placeholder) : Bool :=
  (p.layout? data).isSome || (data.find? p.name p.key).isSome

/-- Does a text hold a placeholder that the values resolve? -/
def textResolves (data : Bindings) (text : Option String) : Bool :=
  text.elim false fun s => (Placeholder.scan s).any (·.resolves data)

/-- The number of cells in the place of a cell whose records are laid out downwards: those for the first
record, when the part of it that is shown is a sequence. -/
def recordsWidth : List Value → Nat
  | [] => 1
  | item :: _ => item.items?.elim 1 fun values => max 1 values.length

/-- The number of cells in the place of a cell with the given text. -/
def cellWidth (data : Bindings) (text : Option String) : Nat :=
  match text.map Placeholder.scan with
  | some [p] =>
    match p.layout? data with
    | none => 1
    | some items => if p.isTable then recordsWidth items else max 1 items.length
  | _ => 1

/-- The values resolve the text, which is nothing but a placeholder, to a text that takes its place. -/
def Fills (data : Bindings) (text s : String) : Prop :=
  ∃ p, Placeholder.scan text = [p] ∧ p.whole = true ∧ p.layout? data = none ∧
    data.find? p.name p.key = some (.text s)

theorem cellWidth_of_layout?_none {data : Bindings} {text : String} {p : Placeholder}
    (hs : Placeholder.scan text = [p]) (hl : p.layout? data = none) :
    cellWidth data (some text) = 1 := by
  simp only [cellWidth, Option.map_some, hs, hl]

theorem cellWidth_of_scan {data : Bindings} {text : String}
    (hs : ∀ p, Placeholder.scan text = [p] → p.whole = false) : cellWidth data (some text) = 1 := by
  cases h : Placeholder.scan text with
  | nil => simp only [cellWidth, Option.map_some, h]
  | cons p ps =>
      cases ps with
      | nil => exact cellWidth_of_layout?_none h (by rw [Placeholder.layout?, hs p h]; rfl)
      | cons q qs => simp only [cellWidth, Option.map_some, h]

theorem textResolves_of_mem {data : Bindings} {text : String} {p : Placeholder}
    (hp : p ∈ Placeholder.scan text) (h : p.resolves data = true) :
    textResolves data (some text) = true :=
  List.any_eq_true.mpr ⟨p, hp, h⟩

namespace Expand

/-! ### The ways of filling a cell -/

/-- The work goes on with other counts of placeholders. -/
def Work.Counted (w w' : Work) : Prop :=
  ∃ substituted skipped, w' = { w with stats := { w.stats with substituted, skipped } }

theorem Work.Counted.refl (w : Work) : w.Counted w := ⟨_, _, rfl⟩

theorem Work.Counted.trans {a b c : Work} (h : a.Counted b) (h' : b.Counted c) : a.Counted c := by
  obtain ⟨_, _, rfl⟩ := h
  obtain ⟨_, _, rfl⟩ := h'
  exact ⟨_, _, rfl⟩

/-- The ways in which a cell is filled. -/
inductive Filling (site : Site) (cell : Element) (work : Work) : Outcome → Prop where
  /-- Nothing in the text of the cell resolves. -/
  | keep {work' : Work} (same : work.Counted work')
      (width : cellWidth site.data (Cell.shownText work.pool cell) = 1) :
      Filling site cell work ⟨[cell], 0, work'⟩
  /-- Records are laid out downwards. -/
  | down {text : String} {p : Placeholder} {items : List Value} {r : Outcome}
      (shown : Cell.shownText work.pool cell = some text) (scan : Placeholder.scan text = [p])
      (layout : p.layout? site.data = some items) (table : p.isTable = true)
      (spread : spreadDown site cell items work = .ok r) :
      Filling site cell work { r with work := r.work.countFilled }
  /-- The elements of a sequence are laid out to the right. -/
  | right {text : String} {p : Placeholder} {items : List Value} {cells : List Element} {pool : Pool}
      (shown : Cell.shownText work.pool cell = some text) (scan : Placeholder.scan text = [p])
      (layout : p.layout? site.data = some items) (table : p.isTable = false)
      (spread : spread cell items work.pool = .ok (cells, pool)) :
      Filling site cell work ⟨cells, cells.length - 1, { work with pool := pool }.countFilled⟩
  /-- The value of a placeholder takes the place of the whole text. -/
  | whole {text : String} {p : Placeholder} {item : Value} {e : Element} {pool : Pool}
      (shown : Cell.shownText work.pool cell = some text) (scan : Placeholder.scan text = [p])
      (whole : p.whole = true) (layout : p.layout? site.data = none)
      (found : site.data.find? p.name p.key = some item)
      (put : putWhole cell text item work.pool = .ok (e, pool)) :
      Filling site cell work ⟨[e], 0, { work with pool := pool }.countFilled⟩
  /-- Placeholders among other text are overwritten. -/
  | parts {text s : String} {p : Placeholder} {work' : Work}
      (shown : Cell.shownText work.pool cell = some text) (mem : p ∈ Placeholder.scan text)
      (found : (site.data.find? p.name p.key).isSome = true)
      (width : cellWidth site.data (some text) = 1) (same : work.Counted work') :
      Filling site cell work ⟨[(Cell.writeForm cell (.text s) work.pool).1], 0,
        { work' with pool := (Cell.writeForm cell (.text s) work.pool).2.1 }⟩

/-- Overwriting placeholders changes a text only if one of them resolves. -/
theorem fillText_spec (data : Bindings) : ∀ {ps : List Placeholder} {text : String} {changed : Bool}
    {work : Work} {r : String × Bool × Work}, fillText data ps text changed work = .ok r →
      work.Counted r.2.2 ∧
        (r.2.1 = true → changed = true ∨ ∃ p ∈ ps, (data.find? p.name p.key).isSome = true)
  | [], text, changed, work, r, h => by
      rw [← Except.ok.inj h]
      exact ⟨.refl work, fun h => Or.inl h⟩
  | p :: ps, text, changed, work, r, h => by
      unfold fillText at h
      split at h
      · next hnone =>
        obtain ⟨counted, changes⟩ := fillText_spec data h
        refine ⟨Work.Counted.trans ⟨_, _, rfl⟩ counted, fun h => ?_⟩
        rcases changes h with h | ⟨q, hq, h⟩
        · exact Or.inl h
        · exact Or.inr ⟨q, List.mem_cons_of_mem p hq, h⟩
      · next v hv =>
        obtain ⟨new, -, h⟩ := bind_eq_ok_iff.mp h
        obtain ⟨counted, -⟩ := fillText_spec data h
        exact ⟨Work.Counted.trans ⟨_, _, rfl⟩ counted, fun _ => Or.inr ⟨p, by simp, by rw [hv]; rfl⟩⟩

theorem filling_of_fillParts {site : Site} {cell : Element} {text : String} {work : Work} {r : Outcome}
    (shown : Cell.shownText work.pool cell = some text) (width : cellWidth site.data (some text) = 1)
    (h : fillParts site cell text (Placeholder.scan text) work = .ok r) : Filling site cell work r := by
  obtain ⟨⟨s, changed, work'⟩, htext, h⟩ := bind_eq_ok_iff.mp h
  obtain ⟨counted, changes⟩ := fillText_spec site.data htext
  cases changed with
  | false =>
      rw [← Except.ok.inj h]
      exact .keep counted (by rw [shown, width])
  | true =>
      rw [← Except.ok.inj h]
      rcases changes rfl with same | ⟨p, hp, found⟩
      · cases same
      · obtain ⟨_, _, rfl⟩ := counted
        exact .parts shown hp found width ⟨_, _, rfl⟩

theorem filling_of_fillWhole {site : Site} {cell : Element} {text : String} {p : Placeholder} {work : Work}
    {r : Outcome} (shown : Cell.shownText work.pool cell = some text) (scan : Placeholder.scan text = [p])
    (whole : p.whole = true) (h : fillWhole site cell text p work = .ok r) : Filling site cell work r := by
  have kept {r : Outcome} {work' : Work} (same : work.Counted work') (hl : p.layout? site.data = none)
      (h : Except.ok ⟨[cell], 0, work'⟩ = (Except.ok r : Except Failure Outcome)) : Filling site cell work r := by
    rw [← Except.ok.inj h]
    exact .keep same (by rw [shown, cellWidth_of_layout?_none scan hl])
  have plain {v : Value} (hv : site.data.lookup p.name = some v) (hl : p.layout? site.data = none)
      (h : fillWhole.plain site cell text p work v = .ok r) : Filling site cell work r := by
    have find : site.data.find? p.name p.key = site.data.project v p.key := by
      rw [Bindings.find?, hv, Option.bind_some]
    unfold fillWhole.plain at h
    split at h
    · exact kept ⟨_, _, rfl⟩ hl h
    · next item hitem =>
      obtain ⟨⟨e, pool⟩, hput, h⟩ := bind_eq_ok_iff.mp h
      rw [← Except.ok.inj h]
      exact .whole shown scan whole hl (find.trans hitem) hput
  unfold fillWhole at h
  split at h
  · next hn =>
    refine kept ⟨_, _, rfl⟩ ?_ h
    rw [Placeholder.layout?, hn]
    split <;> rfl
  · next v hv =>
    split at h
    · next elements hitems =>
      have layout : p.layout? site.data =
          if p.isTable || p.isNormal then some (site.data.parts p.key elements) else none := by
        rw [Placeholder.layout?, whole, hv, Option.bind_some, hitems, Bool.true_and, Option.map_some]
      simp only at h
      split at h
      · next table =>
        obtain ⟨r', hr', h⟩ := bind_eq_ok_iff.mp h
        rw [← Except.ok.inj h]
        exact .down shown scan (layout.trans (by rw [table]; rfl)) table hr'
      · next table =>
        split at h
        · next normal =>
          obtain ⟨⟨cells, pool⟩, hspread, h⟩ := bind_eq_ok_iff.mp h
          rw [← Except.ok.inj h]
          exact .right shown scan (layout.trans (by rw [normal, Bool.or_true]; rfl))
            (Bool.eq_false_iff.mpr table) hspread
        · next normal =>
          refine plain hv (layout.trans ?_) h
          rw [Bool.eq_false_iff.mpr table, Bool.eq_false_iff.mpr normal]
          rfl
    · next hitems =>
      refine plain hv ?_ h
      rw [Placeholder.layout?, hv, Option.bind_some, hitems]
      split <;> rfl

/-- A cell that is filled is filled in one of these ways. -/
theorem filling_of_fillCell {site : Site} {cell : Element} {work : Work} {r : Outcome}
    (h : fillCell site cell work = .ok r) : Filling site cell work r := by
  unfold fillCell at h
  split at h
  · next hn =>
    rw [← Except.ok.inj h]
    exact .keep (.refl work) (by rw [hn]; rfl)
  · next text shown =>
    split at h
    · next scan =>
      rw [← Except.ok.inj h]
      refine .keep (.refl work) ?_
      rw [shown]
      exact cellWidth_of_scan fun p hp => by rw [scan] at hp; cases hp
    · next p scan =>
      split at h
      · next whole => exact filling_of_fillWhole shown scan whole h
      · next whole =>
        rw [← scan] at h
        refine filling_of_fillParts shown (cellWidth_of_scan fun q hq => ?_) h
        obtain rfl : p = q := by simpa using scan.symm.trans hq
        exact Bool.eq_false_iff.mpr whole
    · next _ many => exact filling_of_fillParts shown (cellWidth_of_scan fun q hq => absurd hq (many q)) h

/-! ### What follows for all of them -/

/-- The cells of an outcome stand side by side from a column on and have the style of the cell. A place in
the pool that one holds is that of the cell or one that the pool has. -/
structure Lies (row : Int) (column : Nat) (cell : Element) (r : Outcome) : Prop where
  length : r.cells.length = r.inserted + 1
  stand : StandAt row (List.range' column r.cells.length) r.cells
  style : ∀ e ∈ r.cells, SameStyle e cell
  placed : ∀ e ∈ r.cells, e = cell ∨ Cell.Placed r.work.pool.size e

theorem Lies.of_laid {row : Int} {column : Nat} {cell : Element} {size : Nat} {r : Outcome}
    (laid : Laid row column cell size r.cells) (hs : size ≤ r.work.pool.size)
    (hl : r.cells.length = r.inserted + 1) : Lies row column cell r :=
  ⟨hl, laid.stand, laid.style, fun e he => Or.inr ((laid.placed e he).mono hs)⟩

section
variable {holds : Nat → Prop} {becomes : String → String → Prop} {ordered : Prop}

/-- What is known when filling a cell at a column starts: the pool is sound, the cell stands in its column,
and the new rows are filled up to the column before. -/
structure Ready (ordered : Prop) (site : Site) (cell : Element) (column : Nat) (work : Work) : Prop where
  sound : work.pool.Sound
  row : site.row.tag = Vocabulary.worksheetRow
  tag : cell.tag = Vocabulary.cell
  pos : 1 ≤ column
  ref : cell.attribute? "r" = some (numbered column site.number).text
  rows : FitRows ordered site.number (fun _ => column - 1) work.pool.size work.newRows

/-- What is known when a cell has been filled. -/
structure Done (holds : Nat → Prop) (becomes : String → String → Prop) (ordered : Prop) (site : Site)
    (cell : Element) (column : Nat) (work : Work) (r : Outcome) : Prop where
  follows : Work.Follows holds becomes work r.work
  lies : Lies site.number column cell r
  rows : FitRows ordered site.number (fun _ => column) r.work.pool.size r.work.newRows

theorem Work.Follows.of_pool {w w' : Work} {pool : Pool} (hs : Pool.Steps holds becomes w.pool pool)
    (hc : w.Counted w') : Work.Follows holds becomes w { w' with pool := pool } := by
  obtain ⟨_, _, rfl⟩ := hc
  exact ⟨hs, Table.forall₂_follows_refl _, rfl⟩

/-- A cell that a single cell takes the place of. -/
theorem done_of_single {site : Site} {cell e : Element} {column : Nat} {work work' : Work} {pool : Pool}
    (ready : Ready ordered site cell column work) (steps : Pool.Steps holds becomes work.pool pool)
    (counted : work.Counted work') (style : SameStyle e cell)
    (ref : e.attribute? "r" = cell.attribute? "r") (placed : e = cell ∨ Cell.Placed pool.size e) :
    Done holds becomes ordered site cell column work ⟨[e], 0, { work' with pool := pool }⟩ where
  follows := .of_pool steps counted
  lies := by
    refine ⟨rfl, StandAt.singleton (ref.trans ready.ref), ?_, ?_⟩
    · intro d hd
      rw [List.mem_singleton.mp hd]
      exact style
    · intro d hd
      rw [List.mem_singleton.mp hd]
      exact placed
  rows := by
    obtain ⟨_, _, rfl⟩ := counted
    exact ready.rows.mono (fun _ _ => Nat.sub_le _ _) steps.size_le

/-- What laying records out downwards comes to: the first record puts its cells in the place of the cell, and the
others go into the new rows, in the style of the cell. -/
theorem spreadDown_cases {site : Site} {cell : Element} {column : Nat} {work : Work} (hc : 1 ≤ column)
    (hr : cell.attribute? "r" = some (numbered column site.number).text) {item : Value} {items : List Value}
    {r : Outcome} (h : spreadDown site cell (item :: items) work = .ok r) :
    ∃ chosen below cells pool work', Shift.covering work.tables (numbered column site.number).text = .ok chosen ∧
      SameStyle below cell ∧ Puts cell item work.pool cells pool ∧
      placeRecords site below (String.ofList (Reference.columnLetters column)) chosen 0 items
        { work with pool := pool } = .ok work' ∧
      r = ⟨cells, cells.length - 1, work'⟩ := by
  have own : cell.attributeOr "r" "" = (numbered column site.number).text := by
    rw [Element.attributeOr, hr]
    rfl
  obtain ⟨chosen, hchosen, h⟩ := bind_eq_ok_iff.mp h
  obtain ⟨at', hat, h⟩ := bind_eq_ok_iff.mp h
  rw [own] at hat hchosen
  obtain ⟨-, rfl⟩ := CellRef.valid_of_parse_numbered hc hat
  simp only at h
  split at h
  · next values hitems =>
    obtain ⟨⟨cells, pool⟩, hspread, h⟩ := bind_eq_ok_iff.mp h
    obtain ⟨work', hwork, h⟩ := bind_eq_ok_iff.mp h
    exact ⟨chosen, cell, cells, pool, work', hchosen, .refl cell, .sequence hitems hspread, hwork,
      (Except.ok.inj h).symm⟩
  · next hitems =>
    obtain ⟨⟨filled, pool⟩, hfill, h⟩ := bind_eq_ok_iff.mp h
    obtain ⟨work', hwork, h⟩ := bind_eq_ok_iff.mp h
    exact ⟨chosen, filled, [filled], pool, work', hchosen, Cell.fill_style hfill, .single hitems hfill, hwork,
      (Except.ok.inj h).symm⟩

theorem length_sideBySide_eq (item : Value) (items : List Value) :
    (sideBySide item).length = recordsWidth (item :: items) := by
  simp only [sideBySide, recordsWidth]
  cases item.items? with
  | none => rfl
  | some values => exact length_laidOut values

theorem spreadDown_spec {site : Site} {cell : Element} {column : Nat} {work : Work}
    (ready : Ready ordered site cell column work) {items : List Value} {r : Outcome}
    (h : spreadDown site cell items work = .ok r) :
    Done holds becomes ordered site cell column work r ∧ r.inserted + 1 = recordsWidth items := by
  cases items with
  | nil =>
      rw [← Except.ok.inj h]
      refine ⟨done_of_single ready .refl (.refl work) (Cell.clear_style cell) (Cell.clear_ref cell) ?_, rfl⟩
      refine Or.inr fun ht => ?_
      have hn : (Cell.clear cell).attribute? "t" = none := cell.attribute?_unset "t"
      rw [hn] at ht
      cases ht
  | cons item items =>
      obtain ⟨chosen, below, cells, pool, work', hchosen, style, puts, hwork, rfl⟩ :=
        spreadDown_cases ready.pos ready.ref h
      have hlen : chosen.length = work.tables.length := (mapM_eq_ok_iff.mp hchosen).length_eq.symm
      have pos := puts.length_pos ready.pos ready.ref ready.sound
      obtain ⟨len, laid, steps⟩ := puts_spec holds becomes ready.pos ready.ref ready.sound puts
      have start : FitRows ordered site.number (reached column 0) pool.size work.newRows :=
        ready.rows.mono (fun _ i => Nat.le_of_eq (if_neg (Nat.not_lt_zero i)).symm) steps.size_le
      obtain ⟨follows, rows⟩ := placeRecords_spec holds becomes ready.row (style.tag.trans ready.tag) ready.pos
        hwork (steps.sound ready.sound) hlen start
      have before : Work.Follows holds becomes work { work with pool := pool } := .of_pool steps (.refl work)
      have one : cells.length = cells.length - 1 + 1 := by omega
      refine ⟨⟨before.trans follows, .of_laid laid follows.pool.size_le one, rows⟩, ?_⟩
      rw [← length_sideBySide_eq, ← len]
      exact one.symm

/-- A value that takes the place of a whole text fills the cell; a text has taken the place of the placeholder in
the pool before. -/
theorem putWhole_cases {cell e : Element} {text : String} {v : Value} {pool pool' : Pool}
    (h : putWhole cell text v pool = .ok (e, pool')) :
    (∃ s, v = .text s ∧ Cell.fill cell v (pool.replace text s).1 = .ok (e, pool')) ∨
      (∀ s, v ≠ .text s) ∧ Cell.fill cell v pool = .ok (e, pool') := by
  unfold putWhole at h
  split at h
  · next s => exact Or.inl ⟨s, rfl, h⟩
  · next other => exact Or.inr ⟨other, h⟩

theorem putWhole_spec {cell e : Element} {text : String} {v : Value} {pool pool' : Pool} (hp : pool.Sound)
    (hpool : ∀ s, v = .text s → Pool.Steps holds becomes pool (pool.replace text s).1)
    (h : putWhole cell text v pool = .ok (e, pool')) :
    Pool.Steps holds becomes pool pool' ∧ SameStyle e cell ∧ e.attribute? "r" = cell.attribute? "r" ∧
      Cell.Placed pool'.size e := by
  rcases putWhole_cases h with ⟨s, rfl, hfill⟩ | ⟨-, hfill⟩
  · exact ⟨(hpool s rfl).trans (Cell.fill_pool holds becomes hfill), Cell.fill_style hfill, Cell.fill_ref hfill,
      Cell.placed_fill (hp.replace text s) hfill⟩
  · exact ⟨Cell.fill_pool holds becomes hfill, Cell.fill_style hfill, Cell.fill_ref hfill, Cell.placed_fill hp hfill⟩

/-- Filling a cell: how the work goes on, and how the cells lie that take its place. -/
theorem done_of_filling {site : Site} {cell : Element} {column : Nat} {work : Work} {r : Outcome}
    (ready : Ready ordered site cell column work) (hk : ∀ k, Cell.place? cell = some k → holds k)
    (h : Filling site cell work r) :
    Done holds (Fills site.data) ordered site cell column work r ∧
      r.inserted + 1 = cellWidth site.data (Cell.shownText work.pool cell) := by
  cases h with
  | @keep work' same width =>
      have pool : work'.pool = work.pool := by
        obtain ⟨_, _, rfl⟩ := same
        rfl
      have done : Done holds (Fills site.data) ordered site cell column work ⟨[cell], 0, _⟩ :=
        done_of_single ready .refl same (.refl cell) rfl (Or.inl rfl)
      rw [← pool] at done
      exact ⟨done, width.symm⟩
  | @down text p items r shown scan layout table spread =>
      obtain ⟨⟨follows, lies, rows⟩, len⟩ := spreadDown_spec ready spread
      refine ⟨⟨follows.trans ⟨.refl, Table.forall₂_follows_refl _, rfl⟩, ?_, rows⟩, ?_⟩
      · exact ⟨lies.length, lies.stand, lies.style, lies.placed⟩
      · simp only [cellWidth, shown, Option.map_some, scan, layout, table, if_true]
        exact len
  | @right text p items cells pool shown scan layout table spread =>
      obtain ⟨len, laid, steps⟩ := spread_spec holds (Fills site.data) ready.pos ready.ref ready.sound spread
      have hlen : cells.length = cells.length - 1 + 1 := by omega
      have counted : work.Counted work.countFilled := ⟨_, _, rfl⟩
      refine ⟨⟨.of_pool steps counted, .of_laid laid (Nat.le_refl _) hlen,
        ready.rows.mono (fun _ _ => Nat.sub_le _ _) steps.size_le⟩, ?_⟩
      simp only [cellWidth, shown, Option.map_some, scan, layout, table, Bool.false_eq_true, if_false]
      omega
  | @whole text p item e pool shown scan whole layout found put =>
      have hstep (s : String) (hs : item = .text s) :
          Pool.Steps holds (Fills site.data) work.pool (work.pool.replace text s).1 := by
        rw [Cell.shownText_eq] at shown
        obtain ⟨k, hplace, hget⟩ := Option.bind_eq_some_iff.mp shown
        exact .single (.replace (hk k hplace) hget ⟨p, scan, whole, layout, hs ▸ found⟩)
      obtain ⟨steps, style, ref, placed⟩ := putWhole_spec ready.sound hstep put
      have counted : work.Counted work.countFilled := ⟨_, _, rfl⟩
      refine ⟨done_of_single ready steps counted style ref (Or.inr placed), ?_⟩
      rw [shown, cellWidth_of_layout?_none scan layout]
  | @parts text s p work' shown mem found width same =>
      refine ⟨done_of_single ready (Cell.writeForm_pool holds _ cell _ _) same (Cell.writeForm_style cell _ _)
        (Cell.writeForm_ref cell _ _) (Or.inr (Cell.placed_writeForm ready.sound cell _)), ?_⟩
      rw [shown, width]

end

/-- Filling a cell whose place in the pool may be any. -/
theorem done_of_fillCell {site : Site} {cell : Element} {column : Nat} {work : Work} {r : Outcome}
    (ready : Ready False site cell column work) (h : fillCell site cell work = .ok r) :
    Done (fun _ => True) (Fills site.data) False site cell column work r ∧
      r.inserted + 1 = cellWidth site.data (Cell.shownText work.pool cell) :=
  done_of_filling ready (fun _ _ => trivial) (filling_of_fillCell h)

/-- A cell whose text holds no placeholder that resolves stays as it is. -/
theorem cells_of_filling {site : Site} {cell : Element} {work : Work} {r : Outcome}
    (h : Filling site cell work r)
    (hn : textResolves site.data (Cell.shownText work.pool cell) = false) : r.cells = [cell] := by
  have resolved {text : String} {p : Placeholder} (shown : Cell.shownText work.pool cell = some text)
      (hp : p ∈ Placeholder.scan text) (hr : p.resolves site.data = true) : False := by
    rw [shown, textResolves_of_mem hp hr] at hn
    cases hn
  cases h with
  | keep _ _ => rfl
  | @down text p items r shown scan layout _ _ =>
      have mem : p ∈ Placeholder.scan text := by rw [scan]; exact List.mem_singleton_self p
      exact (resolved shown mem (by rw [Placeholder.resolves, layout]; rfl)).elim
  | @right text p items cells pool shown scan layout _ _ =>
      have mem : p ∈ Placeholder.scan text := by rw [scan]; exact List.mem_singleton_self p
      exact (resolved shown mem (by rw [Placeholder.resolves, layout]; rfl)).elim
  | @whole text p item e pool shown scan _ _ found _ =>
      have mem : p ∈ Placeholder.scan text := by rw [scan]; exact List.mem_singleton_self p
      exact (resolved shown mem
        (by rw [Placeholder.resolves, found, Option.isSome_some, Bool.or_true])).elim
  | @parts text s p work' shown mem found _ _ =>
      exact (resolved shown mem (by rw [Placeholder.resolves, found, Bool.or_true])).elim

end Expand
end Gridfill

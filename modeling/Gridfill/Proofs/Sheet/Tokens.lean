import Gridfill.Proofs.Sheet.Texts

/-!
# How placeholders are counted

Filling a cell counts each placeholder of its text once, as filled or as left (`counted_fillCell`), so a pass counts
those of the texts that it meets (`counted_of_run`). Where the text of a cell has changed by the time that the cell is
reached, it had one placeholder, and the new text has none (`Met.count`).
-/

namespace Gridfill

open Markup (Element Scope)

/-- The number of placeholders in a text. -/
def Placeholder.count (text : Option String) : Nat := text.elim 0 fun s => (scan s).length

namespace Expand

/-- The placeholders counted, those that were filled and those that were left. -/
def Stats.counted (s : Stats) : Nat := s.substituted + s.skipped

/-! ### One cell -/

@[simp] theorem counted_countFilled (work : Work) : work.countFilled.stats.counted = work.stats.counted + 1 :=
  Nat.add_right_comm _ _ _

@[simp] theorem counted_countSkipped (work : Work) : work.countSkipped.stats.counted = work.stats.counted + 1 := rfl

/-- Placing records counts no placeholders. -/
theorem counted_placeRecords {site : Site} {cell : Element} {column : String} {chosen : List Bool} :
    ∀ {items : List Value} {place : Nat} {work work' : Work},
      placeRecords site cell column chosen place items work = .ok work' →
        work'.stats.counted = work.stats.counted
  | [], _, _, _, h => by rw [← Except.ok.inj h]
  | item :: items, place, work, work', h => by
      obtain ⟨next, hnext, h⟩ := bind_eq_ok_iff.mp h
      rw [counted_placeRecords h]
      obtain ⟨rows, -, ⟨-, rfl⟩ | ⟨_, _, _, _, _, _, _, _, -, -, -, -, -, rfl⟩⟩ := placeRecord_cases hnext
      · rfl
      · rfl

theorem counted_spreadDown {site : Site} {cell : Element} {column : Nat} {work : Work}
    (ready : Ready False site cell column work) {items : List Value} {r : Outcome}
    (h : spreadDown site cell items work = .ok r) : r.work.stats.counted = work.stats.counted := by
  cases items with
  | nil => rw [← Except.ok.inj h]
  | cons item items =>
      obtain ⟨chosen, below, cells, pool, work', -, -, -, hwork, rfl⟩ := spreadDown_cases ready.pos ready.ref h
      exact (counted_placeRecords hwork).trans rfl

theorem counted_fillText (data : Bindings) : ∀ {ps : List Placeholder} {text : String} {changed : Bool} {work : Work}
    {r : String × Bool × Work}, fillText data ps text changed work = .ok r →
      r.2.2.stats.counted = work.stats.counted + ps.length
  | [], _, _, _, _, h => by rw [← Except.ok.inj h]; rfl
  | p :: ps, text, changed, work, r, h => by
      unfold fillText at h
      split at h
      · rw [counted_fillText data h, counted_countSkipped, List.length_cons, Nat.add_right_comm, Nat.add_assoc]
      · obtain ⟨new, -, h⟩ := bind_eq_ok_iff.mp h
        rw [counted_fillText data h, counted_countFilled, List.length_cons, Nat.add_right_comm, Nat.add_assoc]

theorem counted_fillParts {site : Site} {cell : Element} {text : String} {ps : List Placeholder} {work : Work}
    {r : Outcome} (h : fillParts site cell text ps work = .ok r) :
    r.work.stats.counted = work.stats.counted + ps.length := by
  obtain ⟨⟨s, changed, work'⟩, htext, h⟩ := bind_eq_ok_iff.mp h
  rw [← counted_fillText site.data htext]
  cases changed with
  | false => rw [← Except.ok.inj h]
  | true => rw [← Except.ok.inj h]

theorem counted_fillWhole {site : Site} {cell : Element} {column : Nat} {text : String} {p : Placeholder}
    {work : Work} (ready : Ready False site cell column work) {r : Outcome}
    (h : fillWhole site cell text p work = .ok r) : r.work.stats.counted = work.stats.counted + 1 := by
  have plain {v : Value} (h : fillWhole.plain site cell text p work v = .ok r) :
      r.work.stats.counted = work.stats.counted + 1 := by
    unfold fillWhole.plain at h
    split at h
    · rw [← Except.ok.inj h, counted_countSkipped]
    · obtain ⟨_, -, h⟩ := bind_eq_ok_iff.mp h
      rw [← Except.ok.inj h]
      exact counted_countFilled _
  unfold fillWhole at h
  split at h
  · rw [← Except.ok.inj h, counted_countSkipped]
  · next v hv =>
    split at h
    · split at h
      · obtain ⟨r', hr', h⟩ := bind_eq_ok_iff.mp h
        rw [← Except.ok.inj h, counted_countFilled, counted_spreadDown ready hr']
      · split at h
        · obtain ⟨_, -, h⟩ := bind_eq_ok_iff.mp h
          rw [← Except.ok.inj h]
          exact counted_countFilled _
        · exact plain h
    · exact plain h

/-- Filling a cell counts each placeholder of its text once. -/
theorem counted_fillCell {site : Site} {cell : Element} {column : Nat} {work : Work}
    (ready : Ready False site cell column work) {r : Outcome} (h : fillCell site cell work = .ok r) :
    r.work.stats.counted = work.stats.counted + Placeholder.count (Cell.shownText work.pool cell) := by
  unfold fillCell at h
  split at h
  · next shown =>
    rw [← Except.ok.inj h, shown]
    rfl
  · next text shown =>
    rw [shown]
    show _ = _ + (Placeholder.scan text).length
    split at h
    · next scan =>
      rw [← Except.ok.inj h, scan]
      rfl
    · next p scan =>
      rw [scan]
      split at h
      · exact counted_fillWhole ready h
      · exact counted_fillParts h
    · exact counted_fillParts h

/-! ### The whole pass -/

theorem counted_walkCells {site : Site} : ∀ {cells : List Element} {last : Nat} {walk walk' : Walk},
    WalkReady False site last walk → (∀ cell ∈ cells, cell.tag = Vocabulary.cell) →
    walkCells site cells walk = .ok walk' →
      walk'.work.stats.counted =
        walk.work.stats.counted + ((walkTexts site cells walk).map Placeholder.count).sum
  | [], _, _, _, _, _, h => by rw [← Except.ok.inj h]; rfl
  | cell :: cells, last, walk, walk', ready, tags, h => by
      obtain ⟨next, hnext, h⟩ := bind_eq_ok_iff.mp h
      have texts := walkTexts_cons hnext cells
      obtain ⟨c, r, step, rfl⟩ :=
        exists_cellStep ready (tags cell List.mem_cons_self) (fun _ _ => trivial) False.elim hnext
      have first := counted_fillCell step.start step.fill
      rw [Cell.shownText_set_ref] at first
      have rest := counted_walkCells step.next (fun d hd => tags d (List.mem_cons_of_mem cell hd)) h
      have same : (walk.filled c r).work.stats.counted = r.work.stats.counted := rfl
      rw [rest, same, first, texts, List.map_cons, List.sum_cons, Nat.add_assoc]

section
variable {name : String} {data : Bindings} {scope : Scope}

/-- A step down the rows counts the placeholders that the walk along its row has counted. -/
theorem counted_stepRow {pass next : Pass} {row out : Element} {number : Int} {walk : Walk}
    (h : stepRow name data scope pass row = .ok next) (step : RowStep name data scope pass row number walk out next) :
    next.stats.counted = walk.work.stats.counted := by
  obtain ⟨number₀, hnumber, h⟩ := bind_eq_ok_iff.mp h
  obtain rfl : number = number₀ := Except.ok.inj (step.number_eq.symm.trans hnumber)
  obtain ⟨s, hs, h⟩ := bind_eq_ok_iff.mp h
  obtain ⟨walk₀, hwalk, h⟩ := bind_eq_ok_iff.mp h
  obtain ⟨_, -, h⟩ := bind_eq_ok_iff.mp h
  obtain ⟨_, -, h⟩ := bind_eq_ok_iff.mp h
  rw [(writeInteger_eq_ok_iff.mp hs).2] at hwalk
  obtain rfl : walk = walk₀ := Except.ok.inj (step.walk_eq.symm.trans hwalk)
  rw [← Except.ok.inj h]
  rfl

theorem counted_walkRows : ∀ {rows : List Element} {pass final : Pass}, PassReady pass →
    (∀ row ∈ rows, row.tag = Vocabulary.worksheetRow) → walkRows name data scope rows pass = .ok final →
      final.stats.counted =
        pass.stats.counted + ((passTexts name data scope rows pass).map Placeholder.count).sum
  | [], _, _, _, _, h => by rw [← Except.ok.inj h]; rfl
  | row :: rows, pass, final, ready, htags, h => by
      obtain ⟨next, number, walk, out, hnext, step, htag, ready', htags', h⟩ := walkRows_cons_cases ready htags h
      have tags : ∀ cell ∈ cellsOf row, cell.tag = Vocabulary.cell := fun _ hc => Element.tag_of_mem_childrenWith hc
      have first := counted_walkCells (walkReady_start number htag ready.sound) tags step.walk_eq
      have start : (walkStart pass).work.stats.counted = pass.stats.counted := rfl
      rw [counted_walkRows ready' htags' h, counted_stepRow hnext step,
        first, start, passTexts_cons hnext step, List.map_append, List.sum_append, Nat.add_assoc]

end

/-- A pass counts the placeholders of the texts that it meets. -/
theorem counted_of_run {sheet : Sheet} {workbook : Element} {pool : Pool} {data : Bindings} {filled : Filled}
    (hp : pool.Sound) (h : run sheet workbook pool data = .ok filled) :
    filled.stats.counted = ((textsReached sheet workbook pool data).map Placeholder.count).sum := by
  rcases run_cases h with ⟨hd, rfl⟩ | ⟨sheetData, pass, hd, hpass, rfl⟩
  · rw [textsReached, hd]
    rfl
  · rw [textsReached, hd]
    exact (counted_walkRows (passReady_start sheet workbook hp) (fun _ hr => tag_of_mem_rows hr) hpass).trans
      (Nat.zero_add _)

/-! ### Beside the texts from before the pass -/

/-- The number of cells that show another text by the time they are reached. -/
def overtaken (texts reached : List (Option String)) : Nat := (texts.zip reached).countP fun p => p.1 ≠ p.2

section
variable {data : Bindings} {seen texts reached : List (Option String)}

/-- Each text that was replaced has lost one placeholder. -/
theorem Met.count (plain : data.Plain) (h : Met data seen texts reached) :
    (reached.map Placeholder.count).sum + overtaken texts reached = (texts.map Placeholder.count).sum := by
  induction h with
  | nil => rfl
  | @same seen texts reached text _ ih =>
      have none : overtaken (text :: texts) (text :: reached) = overtaken texts reached := by
        simp [overtaken]
      rw [none, List.map_cons, List.map_cons, List.sum_cons, List.sum_cons, Nat.add_assoc, ih]
  | @replaced seen texts reached t s _ fills _ ih =>
      have blank : Placeholder.count (some s) = 0 := congrArg List.length (scan_of_fills plain fills)
      obtain ⟨p, scan, -⟩ := id fills
      have single : Placeholder.count (some t) = 1 := congrArg List.length scan
      have differ : t ≠ s := by
        rintro rfl
        rw [blank] at single
        cases single
      have one : overtaken (some t :: texts) (some s :: reached) = overtaken texts reached + 1 := by
        simp [overtaken, differ]
      rw [one, List.map_cons, List.map_cons, List.sum_cons, List.sum_cons, blank, single, ← ih]
      omega

/-- When no text that a string takes the place of is shown by two cells, none was replaced before its cell was
reached. -/
theorem Met.eq_of_single (h : Met data seen texts reached)
    (single : ∀ t s, Fills data t s → (seen ++ texts).count (some t) ≤ 1) : reached = texts := by
  induction h with
  | nil => rfl
  | @same seen texts reached text _ ih =>
      rw [ih fun t s fills => ?_]
      have := single t s fills
      rwa [List.append_assoc]
  | @replaced seen texts reached t s earlier fills _ _ =>
      have twice := single t s fills
      have before : 1 ≤ seen.count (some t) := List.one_le_count_iff.mpr earlier
      rw [List.count_append, List.count_cons_self] at twice
      omega

end

end Expand
end Gridfill

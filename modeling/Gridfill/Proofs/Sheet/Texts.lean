import Gridfill.Proofs.Sheet.Reached

/-!
# The texts that a pass meets

A pass reads the text of a cell when it reaches it, from the pool as it is by then. `textsReached` lists these texts in
the order of the cells. They are the texts that the cells show before the pass, but for those that earlier cells have
replaced: such a text is nothing but a placeholder that a string takes the place of, and an earlier cell shows it as
well (`met_textsReached`).
-/

namespace Gridfill

open Markup (Element Scope)
open CellRef (numbered)

namespace Expand

/-- The texts that the cells of a row show when the walk along the row reaches them. -/
def walkTexts (site : Site) : List Element → Walk → List (Option String)
  | [], _ => []
  | cell :: cells, walk =>
    Cell.shownText walk.work.pool cell ::
      match stepCell site walk cell with
      | .ok next => walkTexts site cells next
      | .error _ => []

/-- The texts that the cells of rows show when the pass reaches them. -/
def passTexts (name : String) (data : Bindings) (scope : Scope) : List Element → Pass → List (Option String)
  | [], _ => []
  | row :: rows, pass =>
    (match currentNumber row pass with
      | .ok number => walkTexts (siteOf data scope row number) (cellsOf row) (walkStart pass)
      | .error _ => []) ++
    match stepRow name data scope pass row with
    | .ok next => passTexts name data scope rows next
    | .error _ => []

/-- The texts that the cells of a sheet show when a pass reaches them. -/
def textsReached (sheet : Sheet) (workbook : Element) (pool : Pool) (data : Bindings) : List (Option String) :=
  match sheet.data? with
  | none => []
  | some sheetData =>
    passTexts sheet.name data (rowScope sheet sheetData) sheet.rows (passStart sheet workbook pool)

theorem walkTexts_cons {site : Site} {walk next : Walk} {cell : Element} (h : stepCell site walk cell = .ok next)
    (cells : List Element) : walkTexts site (cell :: cells) walk =
      Cell.shownText walk.work.pool cell :: walkTexts site cells next := by
  rw [walkTexts, h]

section
variable {name : String} {data : Bindings} {scope : Scope}

theorem passTexts_cons {pass next : Pass} {row out : Element} {number : Int} {walk : Walk}
    (h : stepRow name data scope pass row = .ok next) (step : RowStep name data scope pass row number walk out next)
    (rows : List Element) : passTexts name data scope (row :: rows) pass =
      walkTexts (siteOf data scope row number) (cellsOf row) (walkStart pass) ++
        passTexts name data scope rows next := by
  rw [passTexts, step.number_eq, h]

/-- The texts of the cells of a row are among those of all rows. -/
theorem mem_passTexts {text : Option String} : ∀ {rows : List Element} {pass before : Pass} {k : Nat} {row : Element}
    {number : Int}, walkRows name data scope (rows.take k) pass = .ok before → rows[k]? = some row →
      currentNumber row before = .ok number →
      text ∈ walkTexts (siteOf data scope row number) (cellsOf row) (walkStart before) →
        text ∈ passTexts name data scope rows pass
  | [], _, _, _, _, _, _, hk, _, _ => by cases hk
  | row :: rows, pass, before, 0, _, number, h, hk, hnumber, ht => by
      obtain rfl := Except.ok.inj h
      obtain rfl := Option.some.inj hk
      rw [passTexts, hnumber]
      exact List.mem_append_left _ ht
  | row :: rows, pass, before, k + 1, row', number, h, hk, hnumber, ht => by
      obtain ⟨next, hnext, h⟩ := bind_eq_ok_iff.mp h
      rw [passTexts, hnext]
      exact List.mem_append_right _ (mem_passTexts h hk hnumber ht)

end

theorem RowReached.mem_textsReached {sheet : Sheet} {workbook : Element} {pool : Pool} {data : Bindings}
    {filled : Filled} {k : Nat} {row : Element} {scope : Scope} {before : Pass} {number : Int} {walk : Walk}
    {out : Element} {next final : Pass}
    (reached : RowReached sheet workbook pool data filled k row scope before number walk out next final)
    (hrow : sheet.rows[k]? = some row) {text : Option String}
    (h : text ∈ walkTexts (siteOf data scope row number) (cellsOf row) (walkStart before)) :
    text ∈ textsReached sheet workbook pool data := by
  obtain ⟨sheetData, hd, rfl⟩ := reached.scope_eq
  rw [textsReached, hd]
  exact mem_passTexts reached.start hrow reached.step.number_eq h

/-! ### The texts from before the pass -/

/-- The texts that cells show when they are reached, beside those that they show before the pass. A text is another one
when a string has taken its place, which an earlier cell has brought about that shows it as well; `seen` are the texts
of the cells before them. -/
inductive Met (data : Bindings) : List (Option String) → List (Option String) → List (Option String) → Prop where
  | nil (seen : List (Option String)) : Met data seen [] []
  | same {seen texts reached : List (Option String)} (text : Option String)
      (rest : Met data (seen ++ [text]) texts reached) : Met data seen (text :: texts) (text :: reached)
  | replaced {seen texts reached : List (Option String)} {t s : String} (earlier : some t ∈ seen)
      (fills : Fills data t s) (rest : Met data (seen ++ [some t]) texts reached) :
      Met data seen (some t :: texts) (some s :: reached)

/-- A place in the pool that one of the cells holds. -/
def Held (cells : List Element) (k : Nat) : Prop := ∃ cell ∈ cells, Cell.place? cell = some k

theorem Met.append {data : Bindings} {seen texts reached : List (Option String)} (h : Met data seen texts reached)
    {texts' reached' : List (Option String)} (h' : Met data (seen ++ texts) texts' reached') :
    Met data seen (texts ++ texts') (reached ++ reached') := by
  induction h with
  | nil seen =>
      rw [List.append_nil] at h'
      exact h'
  | same text _ ih => exact .same text (ih (by rwa [List.append_assoc]))
  | replaced earlier fills _ ih => exact .replaced earlier fills (ih (by rwa [List.append_assoc]))

section
variable {data : Bindings} (plain : data.Plain) {p₀ : Pool} (hp : p₀.Sound)
include plain hp

/-- The next cell shows its text, unless an earlier cell has replaced it. -/
theorem met_cons {before : List Element} {p : Pool} (steps : Pool.Steps (Held before) (Fills data) p₀ p)
    {cell : Element} (hk : ∀ k, Cell.place? cell = some k → k < p₀.size) {texts reached : List (Option String)}
    (rest : Met data ((before ++ [cell]).map (Cell.shownText p₀)) texts reached) :
    Met data (before.map (Cell.shownText p₀)) (Cell.shownText p₀ cell :: texts)
      (Cell.shownText p cell :: reached) := by
  rw [List.map_append, List.map_singleton] at rest
  cases place : Cell.place? cell with
  | none =>
      have unread (q : Pool) : Cell.shownText q cell = none := by rw [Cell.shownText_eq, place]; rfl
      rw [unread] at rest ⊢
      rw [unread]
      exact .same none rest
  | some k =>
      have read (q : Pool) : Cell.shownText q cell = q.get? k := by rw [Cell.shownText_eq, place]; rfl
      obtain ⟨t₀, ht₀⟩ := Pool.exists_get? (hk k place)
      rw [read, ht₀] at rest ⊢
      rw [read]
      obtain ⟨t, ht, rfl | ⟨⟨i, ⟨d, hd, hplace⟩, hi⟩, chain⟩⟩ := steps.drift hp ht₀
      · rw [ht]
        exact .same (some t) rest
      · rw [ht]
        refine .replaced (List.mem_map.mpr ⟨d, hd, ?_⟩) (fills_of_transGen plain chain) rest
        rw [Cell.shownText_eq, hplace]
        exact hi

end

/-- The texts along a row, behind cells whose places may have been changed. -/
theorem met_walkTexts {site : Site} (plain : site.data.Plain) {p₀ : Pool} (hp : p₀.Sound) : ∀ {cells : List Element}
    {last : Nat} {walk walk' : Walk} {before : List Element}, WalkReady False site last walk →
      (∀ cell ∈ cells, cell.tag = Vocabulary.cell) →
      (∀ cell ∈ cells, ∀ k, Cell.place? cell = some k → k < p₀.size) →
      Pool.Steps (Held before) (Fills site.data) p₀ walk.work.pool → walkCells site cells walk = .ok walk' →
        Met site.data (before.map (Cell.shownText p₀)) (cells.map (Cell.shownText p₀)) (walkTexts site cells walk) ∧
          Pool.Steps (Held (before ++ cells)) (Fills site.data) p₀ walk'.work.pool
  | [], _, walk, walk', before, _, _, _, steps, h => by
      rw [← Except.ok.inj h, List.append_nil]
      exact ⟨.nil _, steps⟩
  | cell :: cells, last, walk, walk', before, ready, tags, hk, steps, h => by
      obtain ⟨next, hnext, h⟩ := bind_eq_ok_iff.mp h
      have texts := walkTexts_cons hnext cells
      have own : ∀ k, Cell.place? cell = some k → Cell.place? cell = some k := fun _ hplace => hplace
      obtain ⟨c, r, step, rfl⟩ := exists_cellStep ready (tags cell List.mem_cons_self) own False.elim hnext
      have here : Pool.Steps (Held (before ++ [cell])) (Fills site.data) p₀ (walk.filled c r).work.pool :=
        (steps.mono fun k ⟨d, hd, hplace⟩ => ⟨d, List.mem_append_left _ hd, hplace⟩).trans
          (step.done.follows.pool.mono fun k hplace =>
            ⟨cell, List.mem_append_right _ (List.mem_singleton_self cell), hplace⟩)
      obtain ⟨met, steps'⟩ := met_walkTexts plain hp step.next (fun d hd => tags d (List.mem_cons_of_mem cell hd))
        (fun d hd => hk d (List.mem_cons_of_mem cell hd)) here h
      rw [texts, List.map_cons]
      rw [List.append_assoc, List.singleton_append] at steps'
      exact ⟨met_cons plain hp steps (hk cell List.mem_cons_self) met, steps'⟩

/-- The texts of all rows. -/
theorem met_passTexts {name : String} {data : Bindings} {scope : Scope} (plain : data.Plain) {p₀ : Pool}
    (hp : p₀.Sound) : ∀ {rows : List Element} {pass final : Pass} {before : List Element}, PassReady pass →
      (∀ row ∈ rows, row.tag = Vocabulary.worksheetRow) →
      (∀ row ∈ rows, ∀ cell ∈ cellsOf row, ∀ k, Cell.place? cell = some k → k < p₀.size) →
      Pool.Steps (Held before) (Fills data) p₀ pass.pool → walkRows name data scope rows pass = .ok final →
        Met data (before.map (Cell.shownText p₀)) ((rows.flatMap cellsOf).map (Cell.shownText p₀))
          (passTexts name data scope rows pass)
  | [], _, _, _, _, _, _, _, _ => .nil _
  | row :: rows, pass, final, before, ready, htags, hk, steps, h => by
      obtain ⟨next, number, walk, out, hnext, step, htag, ready', htags', h⟩ := walkRows_cons_cases ready htags h
      obtain ⟨met, steps'⟩ := met_walkTexts plain hp (walkReady_start number htag ready.sound)
        (fun _ hc => Element.tag_of_mem_childrenWith hc) (hk row List.mem_cons_self) steps step.walk_eq
      rw [← step.pool] at steps'
      have rest := met_passTexts plain hp ready' htags'
        (fun r hr => hk r (List.mem_cons_of_mem row hr)) steps' h
      rw [List.map_append] at rest
      rw [passTexts_cons hnext step, List.flatMap_cons, List.map_append]
      exact met.append rest

/-- In a sheet whose cells hold places that the pool has, with values whose strings hold no opening mark. -/
theorem met_textsReached {sheet : Sheet} {workbook : Element} {pool : Pool} {data : Bindings} {filled : Filled}
    (plain : data.Plain) (hp : pool.Sound)
    (hplaces : ∀ row ∈ sheet.rows, ∀ cell ∈ cellsOf row, ∀ k, Cell.place? cell = some k → k < pool.size)
    (h : run sheet workbook pool data = .ok filled) :
    Met data [] ((sheet.rows.flatMap cellsOf).map (Cell.shownText pool)) (textsReached sheet workbook pool data) := by
  rcases run_cases h with ⟨hd, rfl⟩ | ⟨sheetData, pass, hd, hpass, rfl⟩
  · rw [Sheet.rows, textsReached, hd]
    exact .nil []
  · rw [textsReached, hd]
    have start : Pool.Steps (Held []) (Fills data) pool (passStart sheet workbook pool).pool := .refl
    exact met_passTexts plain hp (passReady_start sheet workbook hp) (fun _ hr => tag_of_mem_rows hr) hplaces start
      hpass

end Expand
end Gridfill

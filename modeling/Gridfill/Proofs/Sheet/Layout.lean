import Gridfill.Proofs.Placeholder
import Gridfill.Proofs.Sheet.Rows
import Gridfill.Proofs.Value.Marks

/-!
# The layout of a filled row

Each cell of a row is replaced by as many cells as its text asks for, side by side, and the cells behind
them move to the right by the cells inserted (`row_layout`). The widths are those of the texts before the
pass: a text that the pass puts in the place of a placeholder has no marks of its own, so cells that come to
show it are neither widened nor filled again (`width_of_steps`).
-/

namespace Gridfill

open Markup (Element)
open CellRef (numbered)
open Relation (TransGen)

/-- No text that the values resolve a placeholder to holds an opening mark. -/
def Bindings.Plain (data : Bindings) : Prop :=
  ∀ name key s, data.find? name key = some (.text s) → ¬ Placeholder.HasMark s

theorem Bindings.Unmarked.plain {data : Bindings} (h : data.Unmarked) : data.Plain :=
  fun _ _ s hs => h _ (.find? hs) s rfl

namespace Expand

/-! ### Texts while a pass goes on -/

section
variable {data : Bindings} (plain : data.Plain)
include plain

theorem scan_of_fills {t s : String} (h : Fills data t s) : Placeholder.scan s = [] := by
  obtain ⟨p, -, -, -, hfind⟩ := h
  exact Placeholder.scan_eq_nil (plain p.name p.key s hfind)

/-- A text that took the place of a placeholder is not replaced again. -/
theorem fills_of_transGen {t s : String} (h : TransGen (Fills data) t s) : Fills data t s := by
  induction h with
  | single h => exact h
  | tail _ h ih =>
      obtain ⟨p, hscan, -⟩ := h
      rw [scan_of_fills plain ih] at hscan
      cases hscan

/-- The width of a cell and whether it resolves are known before the pass: a cell whose text is replaced
before it is reached has a width of one, and its text resolved. -/
theorem width_of_steps {holds : Nat → Prop} {p₀ p : Pool} (hp : p₀.Sound)
    (hs : Pool.Steps holds (Fills data) p₀ p) {cell : Element}
    (hk : ∀ k, Cell.place? cell = some k → k < p₀.size) :
    cellWidth data (Cell.shownText p cell) = cellWidth data (Cell.shownText p₀ cell) ∧
      (textResolves data (Cell.shownText p₀ cell) = false →
        textResolves data (Cell.shownText p cell) = false) := by
  rw [Cell.shownText_eq, Cell.shownText_eq]
  cases hplace : Cell.place? cell with
  | none => exact ⟨rfl, fun h => h⟩
  | some k =>
      obtain ⟨t₀, ht₀⟩ := Pool.exists_get? (hk k hplace)
      obtain ⟨t, ht, rfl | ⟨-, chain⟩⟩ := hs.drift hp ht₀
      · rw [Option.bind_some, Option.bind_some, ht, ht₀]
        exact ⟨rfl, fun h => h⟩
      · have fills := fills_of_transGen plain chain
        have hscan := scan_of_fills plain fills
        obtain ⟨q, hq, -, hlayout, hfind⟩ := fills
        rw [Option.bind_some, Option.bind_some, ht, ht₀, cellWidth_of_layout?_none hq hlayout]
        have single (r : Placeholder) (hr : Placeholder.scan t = [r]) : r.whole = false := by
          rw [hscan] at hr
          cases hr
        refine ⟨cellWidth_of_scan single, fun h => ?_⟩
        have mem : q ∈ Placeholder.scan t₀ := by rw [hq]; exact List.mem_singleton_self q
        have resolves : q.resolves data = true := by
          rw [Placeholder.resolves, hfind, Option.isSome_some, Bool.or_true]
        rw [textResolves_of_mem mem resolves] at h
        cases h

end

/-! ### The cells in the place of a cell -/

/-- The cells in the place of a cell in a column: as many as its text asks for, side by side from that column
on, with its attributes apart from reference and type. If nothing in its text resolves, it is the cell
itself with its new reference. -/
structure CellLaid (data : Bindings) (pool : Pool) (number : Int) (column : Nat) (cell : Element)
    (block : List Element) : Prop where
  length : block.length = cellWidth data (Cell.shownText pool cell)
  stand : StandAt number (List.range' column block.length) block
  style : ∀ e ∈ block, SameStyle e cell
  kept : textResolves data (Cell.shownText pool cell) = false →
    block.map Element.meaning = [(cell.set "r" (numbered column number).text).meaning]

theorem CellLaid.of_meaning {data : Bindings} {pool : Pool} {number : Int} {column : Nat} {cell : Element}
    {block block' : List Element} (h : CellLaid data pool number column cell block)
    (hm : block'.map Element.meaning = block.map Element.meaning) :
    CellLaid data pool number column cell block' := by
  have len : block'.length = block.length := by
    have := congrArg List.length hm
    rwa [List.length_map, List.length_map] at this
  refine ⟨len.trans h.length, ?_, ?_, fun hn => hm.trans (h.kept hn)⟩
  · rw [len]
    exact StandAt.of_meaning hm h.stand
  · intro e he
    obtain ⟨d, hd, hde⟩ := List.mem_map.mp (hm ▸ List.mem_map_of_mem he)
    exact (SameStyle.of_meaning hde.symm).trans (h.style d hd)

/-- The widths of cells before the pass. -/
def widths (data : Bindings) (pool : Pool) (cells : List Element) : List Nat :=
  cells.map fun cell => cellWidth data (Cell.shownText pool cell)

/-- How many cells are inserted by cells of the given widths. -/
def insertedBy (ws : List Nat) : Nat := (ws.map (· - 1)).sum

theorem walkCells_layout {site : Site} (plain : site.data.Plain) {p₀ : Pool}
    (hp : p₀.Sound) : ∀ {cells : List Element} {last : Nat} {walk walk' : Walk},
    WalkReady False site last walk → (∀ cell ∈ cells, cell.tag = Vocabulary.cell) →
    (∀ cell ∈ cells, ∀ k, Cell.place? cell = some k → k < p₀.size) →
    Pool.Steps (fun _ => True) (Fills site.data) p₀ walk.work.pool → walkCells site cells walk = .ok walk' →
    ∃ columns added, effectiveColumns last cells = .ok columns ∧ walk'.cells = walk.cells ++ added ∧
      added.length = (widths site.data p₀ cells).sum ∧
      ∀ (j : Nat) (cell : Element) (c : Nat), cells[j]? = some cell → columns[j]? = some c →
        CellLaid site.data p₀ site.number
          (c + walk.inserted + insertedBy ((widths site.data p₀ cells).take j)) cell
          ((added.drop ((widths site.data p₀ cells).take j).sum).take
            (cellWidth site.data (Cell.shownText p₀ cell)))
  | [], last, walk, walk', _, _, _, _, h => by
      rw [← Except.ok.inj h]
      exact ⟨[], [], rfl, (List.append_nil _).symm, rfl, fun j cell c hj => by cases hj⟩
  | cell :: cells, last, walk, walk', ready, tags, hk, steps, h => by
      obtain ⟨next, hnext, h⟩ := bind_eq_ok_iff.mp h
      obtain ⟨c, r, ⟨hc, -, hfill, done, len, ready'⟩, rfl⟩ :=
        exists_cellStep ready (tags cell List.mem_cons_self) (fun _ _ => trivial) False.elim hnext
      obtain ⟨same, unresolved⟩ := width_of_steps plain hp steps
        fun k hplace => hk cell List.mem_cons_self k hplace
      rw [same] at len
      have laid : CellLaid site.data p₀ site.number (c + walk.inserted) cell r.cells := by
        refine ⟨done.lies.length.trans len, done.lies.stand, ?_, fun hn => ?_⟩
        · exact fun e he => (done.lies.style e he).trans (.set_ref _ _)
        · rw [cells_of_filling (filling_of_fillCell hfill) (by rw [Cell.shownText_set_ref]; exact unresolved hn)]
          rfl
      obtain ⟨columns, added, hcolumns, hcells, hlength, rest⟩ := walkCells_layout plain hp ready'
        (fun d hd => tags d (List.mem_cons_of_mem cell hd))
        (fun d hd => hk d (List.mem_cons_of_mem cell hd)) (steps.trans done.follows.pool) h
      have head : widths site.data p₀ (cell :: cells) = r.cells.length :: widths site.data p₀ cells := by
        rw [widths, List.map_cons, ← laid.length]
        rfl
      refine ⟨c :: columns, r.cells ++ added, effectiveColumns_cons hc hcolumns, ?_, ?_, ?_⟩
      · exact hcells.trans (List.append_assoc _ _ _)
      · rw [List.length_append, hlength, head, List.sum_cons]
      · intro j d e hd he
        rw [head]
        cases j with
        | zero =>
            obtain rfl := Option.some.inj hd
            obtain rfl := Option.some.inj he
            rw [List.take_zero, List.sum_nil, List.drop_zero, ← laid.length, List.take_left]
            exact laid
        | succ j =>
            have here := rest j d e hd he
            rw [List.take_succ_cons, List.sum_cons, List.drop_append, List.drop_eq_nil_of_le (by omega),
              List.nil_append, Nat.add_sub_cancel_left]
            have column : e + walk.inserted +
                insertedBy (r.cells.length :: (widths site.data p₀ cells).take j) =
                  e + (walk.inserted + r.inserted) + insertedBy ((widths site.data p₀ cells).take j) := by
              have := done.lies.length
              simp only [insertedBy, List.map_cons, List.sum_cons]
              omega
            rw [column]
            exact here

/-! ### The whole row -/

/-- The first element of a list among lists stands behind all elements of the lists before. -/
theorem getElem?_flatten_take {α : Type} {x : α} {xs : List α} : ∀ {ls : List (List α)} {k : Nat},
    ls[k]? = some (x :: xs) → ls.flatten[(ls.take k).flatten.length]? = some x
  | l :: ls, 0, h => by
      obtain rfl := Option.some.inj h
      rfl
  | l :: ls, k + 1, h => by
      have h' : ls[k]? = some (x :: xs) := h
      have ih := getElem?_flatten_take h'
      rw [List.take_succ_cons, List.flatten_cons, List.flatten_cons, List.length_append,
        List.getElem?_append_right (Nat.le_add_right _ _), Nat.add_sub_cancel_left]
      exact ih

/-- The row in the place of the row `k` of a sheet, with the widths of its cells taken before the pass: it has
as many cells as the widths come to, and in the place of the cell `j` those at its columns, moved to the right
by the cells inserted for the cells before it. Every cell of the sheet that holds a place in the pool holds
one that the pool has, and the values have no marks in the texts that placeholders resolve to. -/
theorem row_layout {sheet : Sheet} {workbook : Element} {pool : Pool} {data : Bindings} {filled : Filled}
    (hpool : pool.Built)
    (hplaces : ∀ row ∈ sheet.rows, ∀ cell ∈ cellsOf row, ∀ k, Cell.place? cell = some k → k < pool.size)
    (hplain : data.Plain) (hrun : run sheet workbook pool data = .ok filled) {k : Nat} {row : Element}
    (hrow : sheet.rows[k]? = some row) :
    let ws := widths data pool (cellsOf row)
    ∃ out number columns,
      filled.sheet.rows[((blocks sheet workbook pool data).take k).flatten.length]? = some out ∧
      out.attribute? "r" = some (toString number) ∧
      effectiveColumns 0 (cellsOf row) = .ok columns ∧
      (cellsOf out).length = ws.sum ∧
      ∀ (j : Nat) (cell : Element) (c : Nat), (cellsOf row)[j]? = some cell → columns[j]? = some c →
        CellLaid data pool number (c + insertedBy (ws.take j)) cell
          (((cellsOf out).drop (ws.take j).sum).take (cellWidth data (Cell.shownText pool cell))) := by
  have sound := Pool.sound_of_built hpool
  rcases run_cases hrun with ⟨hd, rfl⟩ | ⟨sheetData, pass, hd, hpass, rfl⟩
  · rw [Sheet.rows, hd] at hrow
    cases hrow
  · have htags : ∀ r ∈ sheet.rows, r.tag = Vocabulary.worksheetRow := fun _ h => tag_of_mem_rows h
    have ready := passReady_start sheet workbook sound
    obtain ⟨before, after, hbefore, hstep, -, hrows, hblock⟩ := walkRows_at hpass hrow
    have mem : row ∈ sheet.rows := List.mem_of_getElem? hrow
    obtain ⟨steps, ready'⟩ := walkRows_ready (fun _ => True) ready
      (fun r hr => htags r (List.mem_of_mem_take hr)) (fun _ _ _ _ _ _ => trivial) hbefore
    obtain ⟨number, walk, out, step⟩ := stepRow_cases hstep
    have walkReady : WalkReady False (siteOf data (rowScope sheet sheetData) row number) 0
        (walkStart before) := ⟨htags row mem, rfl, ready'.sound, fun _ _ hr => by cases hr⟩
    have hcelltags : ∀ cell ∈ cellsOf row, cell.tag = Vocabulary.cell := fun _ hc =>
      Element.tag_of_mem_childrenWith hc
    obtain ⟨columns, added, hcolumns, hcells, hlength, laid⟩ := walkCells_layout hplain sound walkReady hcelltags
      (fun cell hc j hj => hplaces row mem cell hc j hj) steps step.walk_eq
    have hadded : walk.cells = added := hcells.trans (List.nil_append added)
    obtain ⟨-, filled, -⟩ := step.walked (fun _ => True) (htags row mem) ready'.sound
      (fun _ _ _ _ => trivial) (fun no : False => no.elim)
    have same := hadded ▸ step.out_cells filled.tags
    -- the row stands at the head of its block, and the rows of the sheet mean what the blocks mean
    obtain ⟨-, hmeaning⟩ := rows_of_run sound hrun
    have hblocks : (blocks sheet workbook pool data)[k]? =
        some (out :: walk.work.newRows.map (·.row)) := by
      rw [blocks, hd, ← step.block]
      exact hblock
    have here := congrArg (Option.map Element.meaning) (getElem?_flatten_take hblocks)
    rw [← List.getElem?_map, ← hmeaning, List.getElem?_map, Option.map_some,
      Option.map_eq_some_iff] at here
    obtain ⟨out', hout', hm⟩ := here
    have cells : (cellsOf out').map Element.meaning = added.map Element.meaning :=
      (Markup.childrenWith_eq_of_meaning hm Vocabulary.cell).trans same
    refine ⟨out', number, columns, hout', ?_, hcolumns, ?_, ?_⟩
    · exact (Markup.attribute?_eq_of_meaning hm "r").trans step.out_ref
    · have := congrArg List.length cells
      rw [List.length_map, List.length_map] at this
      exact this.trans hlength
    · intro j cell c hj hc
      refine (laid j cell c hj hc).of_meaning ?_
      rw [List.map_take, List.map_drop, cells, ← List.map_drop, ← List.map_take]
      rfl

/-- In the first row of the small sheet the sequence takes three columns, so the two cells behind it move to
the right by two. -/
theorem row_layout_small : ∃ filled out number, run smallSheet smallWorkbook smallPool smallData = .ok filled ∧
    filled.sheet.rows[0]? = some out ∧ (cellsOf out).length = 5 ∧
    StandAt number [1, 2, 3] ((cellsOf out).take 3) ∧ StandAt number [4] (((cellsOf out).drop 3).take 1) ∧
    StandAt number [6] (((cellsOf out).drop 4).take 1) := by
  obtain ⟨filled, hrun⟩ := exists_run_small
  have hpool : smallPool.Built := .ofTexts _
  have hplain : smallData.Plain := (Bindings.unmarked_ofValues (by decide +kernel)).plain
  have hplaces : ∀ row ∈ smallSheet.rows, ∀ cell ∈ cellsOf row, ∀ k, Cell.place? cell = some k →
      k < smallPool.size := by
    have all : (smallSheet.rows.all fun row => (cellsOf row).all fun cell =>
        (Cell.place? cell).all fun k => decide (k < smallPool.size)) = true := by decide +kernel
    intro row hrow cell hcell k hk
    have := List.all_eq_true.mp (List.all_eq_true.mp all row hrow) cell hcell
    rw [hk, Option.all_some] at this
    exact of_decide_eq_true this
  have hrow : smallSheet.rows[0]? = some (smallSheet.rows.headD smallWorkbook) := rfl
  have hcolumns : effectiveColumns 0 (cellsOf (smallSheet.rows.headD smallWorkbook)) = .ok [1, 2, 4] := by
    decide +kernel
  have hwidths : widths smallData smallPool (cellsOf (smallSheet.rows.headD smallWorkbook)) = [3, 1, 1] := by
    decide +kernel
  obtain ⟨out, number, columns, hout, -, hcols, hlength, laid⟩ := row_layout hpool hplaces hplain hrun hrow
  obtain rfl : columns = [1, 2, 4] := Except.ok.inj (hcols.symm.trans hcolumns)
  rw [hwidths] at hlength laid
  have first := laid 0 (plainCell [("r", "A1"), ("t", "s")] "0") 1 rfl rfl
  have second := laid 1 (plainCell [("t", "s")] "1") 2 rfl rfl
  have third := laid 2 (plainCell [("r", "D1"), ("s", "3")] "7") 4 rfl rfl
  have w₁ : cellWidth smallData
      (Cell.shownText smallPool (plainCell [("r", "A1"), ("t", "s")] "0")) = 3 := by decide +kernel
  have w₂ : cellWidth smallData (Cell.shownText smallPool (plainCell [("t", "s")] "1")) = 1 := by
    decide +kernel
  have w₃ : cellWidth smallData
      (Cell.shownText smallPool (plainCell [("r", "D1"), ("s", "3")] "7")) = 1 := by decide +kernel
  have stand₁ := first.stand
  have stand₂ := second.stand
  have stand₃ := third.stand
  rw [first.length, w₁] at stand₁
  rw [second.length, w₂] at stand₂
  rw [third.length, w₃] at stand₃
  exact ⟨filled, out, number, hrun, hout, hlength, stand₁, stand₂, stand₃⟩

end Expand
end Gridfill

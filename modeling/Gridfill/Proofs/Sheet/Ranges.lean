import Gridfill.Proofs.Sheet.Rows

/-!
# Ranges follow the rows over a whole pass

A pass inserts rows behind the rows of a sheet from the top downwards, and each time shifts what is
anchored below. One step of it keeps everything anchored where all steps so far have to put it
(`Anchors.step`), so over the whole pass the rows, the merged ranges and the tables end where the rows
inserted above their places at the start put them (`ranges_follow_rows`).
-/

namespace Gridfill

open Markup (Element Scope)

namespace Expand

/-- How the rows grow: each by the rows that are put behind it. -/
def growths (ms : List Int) (bs : List (List Element)) : List Growth :=
  List.zipWith (fun m b => ⟨m, b.length - 1⟩) ms bs

theorem number_mem_of_growths : ∀ {ms : List Int} {bs : List (List Element)} {g : Growth},
    g ∈ growths ms bs → g.number ∈ ms
  | [], _, _, h => by cases h
  | _ :: _, [], _, h => by cases h
  | m :: ms, b :: bs, g, h => by
      rcases List.mem_cons.mp h with rfl | h
      · exact List.mem_cons_self
      · exact List.mem_cons_of_mem m (number_mem_of_growths h)

/-! ### A step of the pass and all its steps -/

section
variable {root : Element} {tables : List Table}

/-- Everything anchored is where the rows inserted so far put it. -/
structure Anchors (root : Element) (tables : List Table) (gs : List Growth) (pass : Pass) : Prop where
  merges : merges pass.anchored.sheet = settled gs (merges root)
  count : MergeCountAgrees root → MergeCountAgrees pass.anchored.sheet
  tables : List.Forall₂ (Table.Follows (moved gs)) tables pass.anchored.tables
  total : pass.stats.rowsInserted = insertedTotal gs

variable {name : String} {data : Bindings} {scope : Scope}

theorem Anchors.step {pass next : Pass} {row out : Element} {number m : Int} {walk : Walk}
    {gs : List Growth} (anchors : Anchors root tables gs pass) (hgs : ∀ g ∈ gs, g.number < m)
    (hm : ownNumber row = .ok m) (step : RowStep name data scope pass row number walk out next)
    (htag : row.tag = Vocabulary.worksheetRow) (hp : pass.pool.Sound) :
    number = m + insertedTotal gs ∧
      Anchors root tables (gs ++ [⟨m, walk.work.newRows.length⟩]) next := by
  have hnumber : number = m + insertedTotal gs := by
    rw [currentNumber_eq hm step.number_eq, anchors.total]
  obtain ⟨follows, -, -⟩ := step.walked_any htag hp
  obtain ⟨hmerges, hcount, -, -, htables⟩ := pushDown_spec step.anchored_eq
  refine ⟨hnumber, ?_, fun h => hcount (anchors.count h), ?_, ?_⟩
  · rw [hmerges, hnumber]
    show shifted _ _ (Gridfill.merges pass.anchored.sheet) = _
    rw [anchors.merges]
    exact shifted_settled (g := ⟨m, walk.work.newRows.length⟩) hgs _
  · have all := Table.forall₂_follows_trans (Table.forall₂_follows_trans anchors.tables follows.tables) htables
    have e : below number walk.work.newRows.length ∘ id ∘ moved gs =
        moved (gs ++ [⟨m, walk.work.newRows.length⟩]) := by
      funext a
      rw [hnumber]
      exact below_moved (g := ⟨m, walk.work.newRows.length⟩) hgs a
    rwa [e] at all
  · rw [step.rowsInserted, follows.rowsInserted, insertedTotal_append]
    show pass.stats.rowsInserted + _ = _
    rw [anchors.total]
    rfl

/-- A row is above the rows behind it. -/
theorem above_concat {gs : List Growth} {m : Int} {ms : List Int} (n : Nat)
    (hgs : ∀ g ∈ gs, ∀ m' ∈ m :: ms, g.number < m') (increasing : (m :: ms).Pairwise (· < ·)) :
    ∀ g ∈ gs ++ [⟨m, n⟩], ∀ m' ∈ ms, g.number < m' := by
  intro g hg m' hm'
  rcases List.mem_append.mp hg with hg | hg
  · exact hgs g hg m' (List.mem_cons_of_mem m hm')
  · rw [List.mem_singleton.mp hg]
    exact (List.pairwise_cons.mp increasing).1 m' hm'

/-- The row of a step grows by its new rows. -/
theorem growths_cons {pass next : Pass} {row out : Element} {number : Int} {walk : Walk}
    (hnext : stepRow name data scope pass row = .ok next)
    (step : RowStep name data scope pass row number walk out next) (m : Int) (ms : List Int) (rows : List Element) :
    growths (m :: ms) (rowBlocks name data scope (row :: rows) pass) =
      ⟨m, walk.work.newRows.length⟩ :: growths ms (rowBlocks name data scope rows next) := by
  rw [rowBlocks_cons hnext step, growths, List.zipWith_cons_cons, List.length_cons, List.length_map]
  rfl

/-- The rows that begin the blocks carry the numbers that the rows inserted above put them at. -/
def HeadsMoved (gs : List Growth) (ms : List Int) (bs : List (List Element)) : Prop :=
  List.Forall₂ (fun m b => ∃ out rest, b = out :: rest ∧ ownNumber out = .ok (moved gs m)) ms bs

theorem walkRows_anchors : ∀ {rows : List Element} {ms : List Int} {pass final : Pass}
    {gs : List Growth}, Anchors root tables gs pass → (∀ g ∈ gs, ∀ m ∈ ms, g.number < m) →
    List.Forall₂ (fun row m => ownNumber row = .ok m) rows ms → ms.Pairwise (· < ·) →
    PassReady pass → (∀ row ∈ rows, row.tag = Vocabulary.worksheetRow) →
    walkRows name data scope rows pass = .ok final →
      Anchors root tables (gs ++ growths ms (rowBlocks name data scope rows pass)) final ∧
      HeadsMoved (gs ++ growths ms (rowBlocks name data scope rows pass)) ms
        (rowBlocks name data scope rows pass)
  | [], ms, pass, final, gs, anchors, _, hms, _, _, _, h => by
      cases hms
      rw [← Except.ok.inj h]
      exact ⟨by rw [growths, List.zipWith_nil_left, List.append_nil]; exact anchors, .nil⟩
  | row :: rows, ms, pass, final, gs, anchors, hgs, hms, increasing, ready, htags, h => by
      cases hms with
      | @cons _ m _ ms hm hms =>
          obtain ⟨next, number, walk, out, hnext, step, htag, ready', htags', h⟩ := walkRows_cons_cases ready htags h
          obtain ⟨hnumber, anchors'⟩ := anchors.step (fun g hg => hgs g hg m List.mem_cons_self) hm step
            htag ready.sound
          obtain ⟨first, increasing'⟩ := List.pairwise_cons.mp increasing
          obtain ⟨anchors'', heads⟩ := walkRows_anchors anchors' (above_concat _ hgs increasing) hms increasing' ready'
            htags' h
          have hgrowths : gs ++ growths (m :: ms) (rowBlocks name data scope (row :: rows) pass) =
              gs ++ [⟨m, walk.work.newRows.length⟩] ++
                growths ms (rowBlocks name data scope rows next) := by
            rw [growths_cons hnext step, List.append_assoc]
            rfl
          rw [hgrowths, rowBlocks_cons hnext step]
          refine ⟨anchors'', .cons ⟨out, _, rfl, ?_⟩ heads⟩
          have above : ∀ g ∈ gs, g.number < m := fun g hg => hgs g hg m List.mem_cons_self
          have behind : ∀ g ∈ [⟨m, walk.work.newRows.length⟩] ++
              growths ms (rowBlocks name data scope rows next), m ≤ g.number := by
            intro g hg
            rcases List.mem_append.mp hg with hg | hg
            · obtain rfl := List.mem_singleton.mp hg
              exact Int.le_refl m
            · exact Int.le_of_lt (first _ (number_mem_of_growths hg))
          rw [ownNumber, Element.attributeOr, step.out_ref, moved, List.append_assoc, insertedAbove_append,
            insertedAbove_eq_total above, insertedAbove_eq_zero behind, Nat.add_zero, ← hnumber]
          exact parseInteger_of_write (writeInteger_eq_ok_iff.mpr ⟨step.writable, rfl⟩)

end

/-! ### The whole pass -/

theorem moved_nil : moved [] = id := by
  funext a
  exact Int.add_zero a

theorem settled_nil (ms : List (Option Extent)) : settled [] ms = ms := by
  have stays (m : Option Extent) : m.map (Extent.settle []) = m := by
    cases m with
    | none => rfl
    | some e =>
        refine congrArg some ?_
        show (⟨e.top + 0, e.bottom + 0, e.left, e.right⟩ : Extent) = e
        rw [Int.add_zero, Int.add_zero]
  rw [settled, List.map_congr_left (g := id) (fun m _ => stays m), List.map_id]
  exact List.append_nil ms

theorem anchors_start (sheet : Sheet) (workbook : Element) (pool : Pool) :
    Anchors sheet.root sheet.tables [] (passStart sheet workbook pool) where
  merges := (settled_nil _).symm
  count h := h
  tables := by
    rw [moved_nil]
    exact Table.forall₂_follows_refl _
  total := rfl

/-- The rows of a sheet whose rows carry increasing numbers end where the rows inserted above put them, and its tables
start there. -/
theorem moved_of_run {sheet : Sheet} {workbook : Element} {pool : Pool} {data : Bindings} {filled : Filled}
    {numbers : List Int} (hp : pool.Sound) (hnumbers : sheet.rows.mapM ownNumber = .ok numbers)
    (hincreasing : numbers.Pairwise (· < ·)) (hrun : run sheet workbook pool data = .ok filled) :
    HeadsMoved (growths numbers (blocks sheet workbook pool data)) numbers (blocks sheet workbook pool data) ∧
      List.Forall₂ (Table.Follows (moved (growths numbers (blocks sheet workbook pool data)))) sheet.tables
        filled.sheet.tables := by
  have hms := mapM_eq_ok_iff.mp hnumbers
  rcases run_cases hrun with ⟨hd, rfl⟩ | ⟨sheetData, pass, hd, hpass, rfl⟩
  · have hrows : sheet.rows = [] := by rw [Sheet.rows, hd]; rfl
    rw [hrows] at hms
    cases hms
    have hblocks : blocks sheet workbook pool data = [] := by rw [blocks, hd]
    have stays : moved (growths [] []) = id := moved_nil
    rw [hblocks, stays]
    exact ⟨.nil, Table.forall₂_follows_refl sheet.tables⟩
  · have hblocks : blocks sheet workbook pool data =
        rowBlocks sheet.name data (rowScope sheet sheetData) sheet.rows (passStart sheet workbook pool) := by
      rw [blocks, hd]
    rw [hblocks]
    obtain ⟨anchors, heads⟩ := walkRows_anchors (anchors_start sheet workbook pool) (fun g hg => by cases hg) hms
      hincreasing (passReady_start sheet workbook hp) (fun _ h => tag_of_mem_rows h) hpass
    exact ⟨heads, anchors.tables⟩

theorem headsMoved_of_run {sheet : Sheet} {workbook : Element} {pool : Pool} {data : Bindings} {filled : Filled}
    {numbers : List Int} (hp : pool.Sound) (hnumbers : sheet.rows.mapM ownNumber = .ok numbers)
    (hincreasing : numbers.Pairwise (· < ·)) (hrun : run sheet workbook pool data = .ok filled) :
    HeadsMoved (growths numbers (blocks sheet workbook pool data)) numbers (blocks sheet workbook pool data) :=
  (moved_of_run hp hnumbers hincreasing hrun).1

/-- Over a whole pass on a sheet whose rows carry increasing numbers, with `gs` the rows and how many rows
the pass put behind each: the row of the number `m` ends at `moved gs m`; the merged ranges of the sheet's first
list of them are exactly those at the start, each in its columns and as many rows lower as rows were inserted
above its first row, and for a range that begins on a row that grew one copy for each row inserted there, as
many rows lower; every table that starts at the row `a` starts at `moved gs a` in its column; and a list of
merged ranges that said how many it has still does. -/
theorem ranges_follow_rows {sheet : Sheet} {workbook : Element} {pool : Pool} {data : Bindings}
    {filled : Filled} {numbers : List Int} (hpool : pool.Built)
    (hnumbers : sheet.rows.mapM ownNumber = .ok numbers) (hincreasing : numbers.Pairwise (· < ·))
    (hrun : run sheet workbook pool data = .ok filled) :
    let bs := blocks sheet workbook pool data
    let gs := growths numbers bs
    filled.sheet.rows.map Element.meaning = bs.flatten.map Element.meaning ∧
      List.Forall₂ (fun m b => ∃ out rest, b = out :: rest ∧ ownNumber out = .ok (moved gs m)) numbers bs ∧
      merges filled.sheet.root = settled gs (merges sheet.root) ∧
      List.Forall₂ (fun t t' : Table => ∀ r, t.range = .ok r → ∃ r', t'.range = .ok r' ∧
        r'.start.row = moved gs r.start.row ∧ r'.start.column = r.start.column)
        sheet.tables filled.sheet.tables ∧
      (MergeCountAgrees sheet.root → MergeCountAgrees filled.sheet.root) := by
  have hms := mapM_eq_ok_iff.mp hnumbers
  have sound := Pool.sound_of_built hpool
  refine ⟨(rows_of_run sound hrun).2, ?_⟩
  rcases run_cases hrun with ⟨hd, rfl⟩ | ⟨sheetData, pass, hd, hpass, rfl⟩
  · have hrows : sheet.rows = [] := by rw [Sheet.rows, hd]; rfl
    have hblocks : blocks sheet workbook pool data = [] := by rw [blocks, hd]
    rw [hrows] at hms
    cases hms
    simp only [hblocks]
    refine ⟨.nil, (settled_nil _).symm, ?_, fun h => h⟩
    refine (Table.forall₂_follows_refl sheet.tables).imp fun t t' ht r hr => ?_
    have e : moved (growths [] []) = id := moved_nil
    rw [e]
    exact ht.start r hr
  · have hblocks : blocks sheet workbook pool data =
        rowBlocks sheet.name data (rowScope sheet sheetData) sheet.rows (passStart sheet workbook pool) := by
      rw [blocks, hd]
    have ready := passReady_start sheet workbook sound
    have htags : ∀ row ∈ sheet.rows, row.tag = Vocabulary.worksheetRow := fun _ h => tag_of_mem_rows h
    obtain ⟨anchors, heads⟩ := walkRows_anchors (anchors_start sheet workbook pool)
      (fun g hg => by cases hg) hms hincreasing ready htags hpass
    rw [List.nil_append, ← hblocks] at anchors heads
    simp only
    have own : sheetData.tag = Vocabulary.sheetData := Element.tag_of_child? hd
    have list : (passSheet sheet sheetData pass).root.child? Vocabulary.mergeCells =
        pass.anchored.sheet.child? Vocabulary.mergeCells :=
      Element.child?_changeChild_ne _ (fun _ _ => own) (by decide)
    refine ⟨heads, ?_, anchors.tables.imp fun _ _ ht => ht.start, ?_⟩
    · rw [← anchors.merges, merges_eq, list, merges_eq]
    · intro h l hl
      rw [list] at hl
      exact anchors.count h l hl

/-- On the small sheet two rows go in behind the first: the range on it gets two copies, and the range and
the table below move down by two. -/
theorem ranges_follow_rows_small : ∃ filled, run smallSheet smallWorkbook smallPool smallData = .ok filled ∧
    merges filled.sheet.root =
      [some ⟨1, 1, "D", "E"⟩, some ⟨5, 6, "A", "B"⟩, some ⟨2, 2, "D", "E"⟩, some ⟨3, 3, "D", "E"⟩] ∧
    MergeCountAgrees filled.sheet.root := by
  obtain ⟨filled, hrun⟩ := exists_run_small
  have hnumbers : smallSheet.rows.mapM ownNumber = .ok [1, 3] := by decide +kernel
  have hgrowths : growths [1, 3] (blocks smallSheet smallWorkbook smallPool smallData) = [⟨1, 2⟩, ⟨3, 0⟩] := by
    decide +kernel
  have hmerges : merges smallSheet.root = [some ⟨1, 1, "D", "E"⟩, some ⟨3, 4, "A", "B"⟩] := by
    decide +kernel
  have hcount : MergeCountAgrees smallSheet.root := by
    intro list hl
    have agrees : (smallSheet.root.child? Vocabulary.mergeCells).all (fun l => decide (CountAgrees l)) := by
      decide +kernel
    rw [hl, Option.all_some] at agrees
    exact of_decide_eq_true agrees
  have hpool : smallPool.Built := .ofTexts _
  obtain ⟨-, -, hm, -, hc⟩ := ranges_follow_rows hpool hnumbers (by decide) hrun
  refine ⟨filled, hrun, ?_, hc hcount⟩
  rw [hm, hgrowths, hmerges]
  decide +kernel

/-- The merged ranges in each of the lists of a sheet. -/
def listedMerges (root : Element) : List (List (Option Extent)) :=
  (root.childrenWith Vocabulary.mergeCells).map fun list =>
    (list.childrenWith Vocabulary.mergeCell).map extent?

/-- A sheet with a list of records and two lists of merged ranges, the second of which begins on the second row. -/
def splitSheet : Sheet where
  info := ⟨1, "Data", "sheet1.xml", none⟩
  root := plainElement "worksheet" []
    [plainElement "sheetData" []
      [plainElement "row" [("r", "1")] [plainCell [("r", "A1"), ("t", "s")] "1"],
       plainElement "row" [("r", "7")] [plainCell [("r", "A7")] "8"]],
     plainElement "mergeCells" [] [plainElement "mergeCell" [("ref", "A5:B5")] []],
     plainElement "mergeCells" [] [plainElement "mergeCell" [("ref", "A7:B7")] []]]
  tables := []

/-- The merged ranges of a second list stay where they are when the rows that they span move. -/
theorem second_list_stays :
    splitSheet.rows.mapM ownNumber = .ok [1, 7] ∧
      growths [1, 7] (blocks splitSheet smallWorkbook smallPool smallData) = [⟨1, 2⟩, ⟨7, 0⟩] ∧
      listedMerges splitSheet.root = [[some ⟨5, 5, "A", "B"⟩], [some ⟨7, 7, "A", "B"⟩]] ∧
      ∃ filled, run splitSheet smallWorkbook smallPool smallData = .ok filled ∧
        filled.sheet.rows.mapM ownNumber = .ok [1, 2, 3, 9] ∧
        listedMerges filled.sheet.root = [[some ⟨7, 7, "A", "B"⟩], [some ⟨7, 7, "A", "B"⟩]] := by
  have done : (run splitSheet smallWorkbook smallPool smallData).toOption.any (fun filled =>
      decide ((filled.sheet.rows.mapM ownNumber).toOption = some [1, 2, 3, 9]) &&
        decide (listedMerges filled.sheet.root = [[some ⟨7, 7, "A", "B"⟩], [some ⟨7, 7, "A", "B"⟩]])) = true := by
    decide +kernel
  obtain ⟨filled, hrun, done⟩ := (Option.any_eq_true _ _).mp done
  obtain ⟨numbers, ranges⟩ := Bool.and_eq_true_iff.mp done
  exact ⟨by decide +kernel, by decide +kernel, by decide +kernel, filled, toOption_eq_some_iff.mp hrun,
    toOption_eq_some_iff.mp (of_decide_eq_true numbers), of_decide_eq_true ranges⟩

end Expand
end Gridfill

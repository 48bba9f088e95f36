import Gridfill.Proofs.Sheet.HeaderSettled
import Gridfill.Proofs.Sheet.Settled
import Gridfill.Proofs.Workbook.Headers
import Gridfill.Proofs.Workbook.Still
import Gridfill.Proofs.Workbook.Tokens

/-!
# Substitutions made again

When the values complete every text that a sheet shows, no placeholder is listed for the sheet after a substitution
(`listed_of_settled`). What was filled stands in canonical form, as long as nothing was pushed behind the last column
that can be read, so the same substitution finds nothing to fill and changes nothing (`substitute_again`).
-/

namespace Gridfill

open Markup (Element)
open Expand (RowSettled)

/-! ### Settled sheets -/

/-- What a substitution leaves of a sheet whose texts the values complete: rows of settled cells and nothing beside them,
names of columns that stay, and tables with their columns in place. -/
structure Sheet.Settled (pool : Pool) (data : Bindings) (s : Sheet) : Prop where
  rows : ∀ row ∈ s.rows, ∃ number, RowSettled pool number row
  content : ∀ sheetData, s.data? = some sheetData → sheetData.HoldsOnly Vocabulary.worksheetRow
  names : ∀ t ∈ s.tables, ∀ name ∈ t.columnNames, Header.Stays data name
  tables : ∀ t ∈ s.tables, Gridfill.WithinColumns t.ref → ∀ list, t.columns? = some list → t.InPlace list

namespace Sheet.Settled

variable {pool : Pool} {data : Bindings} {s : Sheet} (settled : s.Settled pool data)
include settled

theorem mono {q : Pool} (h : pool.Cleans q) : s.Settled q data := by
  refine { settled with rows := fun row hrow => ?_ }
  obtain ⟨number, done⟩ := settled.rows row hrow
  exact ⟨number, done.mono h⟩

theorem exists_cell {cell : Element} (h : cell ∈ s.rows.flatMap cellsOf) : ∃ number, Cell.Settled pool number cell := by
  obtain ⟨row, hrow, hc⟩ := List.mem_flatMap.mp h
  obtain ⟨number, done⟩ := settled.rows row hrow
  exact ⟨number, done.cells cell hc⟩

theorem scan_eq_nil {cell : Element} (h : cell ∈ s.rows.flatMap cellsOf) {t : String}
    (ht : Cell.shownText pool cell = some t) : Placeholder.scan t = [] := by
  obtain ⟨number, done⟩ := settled.exists_cell h
  exact (done.bare t ht).scan_eq_nil

/-- Within the columns that can be read the sheet is in canonical form. -/
theorem canonical
    (cells : ∀ cell ∈ s.rows.flatMap cellsOf, Gridfill.WithinColumns (cell.attributeOr "r" ""))
    (tables : ∀ t ∈ s.tables, Gridfill.WithinColumns t.ref) : s.Canonical where
  rows row hrow := by
    obtain ⟨number, done⟩ := settled.rows row hrow
    refine ⟨number, done.readable, done.written, Element.content_of_holdsOnly done.content, fun cell hc => ?_⟩
    obtain ⟨c, wide, written⟩ := (done.cells cell hc).written
    have within := cells cell (List.mem_flatMap.mpr ⟨row, hrow, hc⟩)
    rw [written.attributeOr] at within
    have valid := CellRef.valid_of_parse_numbered (Expand.one_le_of_wide wide)
      (CellRef.parse_of_withinColumns wide within)
    exact ⟨c, valid.1, written⟩
  content sheetData hdata := by
    have content := Element.content_of_holdsOnly (settled.content sheetData hdata)
    rwa [Sheet.rows, hdata]
  tables t ht := settled.tables t ht (tables t ht)

/-- There is nothing to fill in the sheet. -/
theorem still : Workbook.Still pool s data where
  cells cell hc := textResolves_of_unresolved fun t ht p hp => by
    rw [settled.scan_eq_nil hc ht] at hp
    cases hp
  names := settled.names

theorem placeholderCount_eq_zero : Workbook.placeholderCount pool s = 0 := by
  refine List.sum_eq_zero_iff_forall_eq_nat.mpr fun n hn => ?_
  rw [List.map_map] at hn
  obtain ⟨cell, hc, rfl⟩ := List.mem_map.mp hn
  show Placeholder.count (Cell.shownText pool cell) = 0
  cases shown : Cell.shownText pool cell with
  | none => rfl
  | some t => exact congrArg List.length (settled.scan_eq_nil hc shown)

end Sheet.Settled

namespace Workbook

/-! ### Listings -/

/-- When cells are listed, the placeholders of each can be told. -/
theorem exists_cellPlaceholders {pool : Pool} : ∀ {cells : List Element} {found found' : Listing (List Placeholder)},
    gatherPlaceholders pool cells found = .ok found' → ∀ cell ∈ cells, ∃ ps, cellPlaceholders pool cell = .ok ps
  | [], _, _, _, _, hc => by cases hc
  | cell :: cells, found, found', h, d, hd => by
      obtain ⟨ps, hps, h⟩ := bind_eq_ok_iff.mp h
      rcases List.mem_cons.mp hd with rfl | hd
      · exact ⟨ps, hps⟩
      · split at h
        · exact exists_cellPlaceholders h d hd
        · exact exists_cellPlaceholders h d hd

theorem gatherPlaceholders_of_nil {pool : Pool} {found : Listing (List Placeholder)} : ∀ {cells : List Element},
    (∀ cell ∈ cells, cellPlaceholders pool cell = .ok []) → gatherPlaceholders pool cells found = .ok found
  | [], _ => rfl
  | cell :: cells, h => by
      have first := h cell List.mem_cons_self
      exact bind_eq_ok_iff.mpr ⟨[], first, gatherPlaceholders_of_nil fun d hd => h d (List.mem_cons_of_mem cell hd)⟩

/-- The places that the cells of a listed sheet hold can be read. -/
theorem readable_of_sheetPlaceholders {pool : Pool} {sheet : Sheet} {found : Listing (List Placeholder)}
    (h : sheetPlaceholders pool sheet = .ok found) :
    ∀ cell ∈ sheet.rows.flatMap cellsOf, Cell.Readable pool.size cell := by
  intro cell hc _ type s hs run
  obtain ⟨ps, hps⟩ := exists_cellPlaceholders h cell (List.mem_filter.mpr ⟨hc, decide_eq_true type⟩)
  unfold cellPlaceholders at hps
  rw [hs] at hps
  simp only [run, if_true] at hps
  obtain ⟨i, hi, -⟩ := bind_eq_ok_iff.mp hps
  exact ⟨i, hi⟩

/-- No placeholder is listed for a settled cell. -/
theorem cellPlaceholders_of_settled {pool : Pool} (size : pool.size < Text.integerBound) {number : Int} {cell : Element}
    (settled : Cell.Settled pool number cell) (type : cell.attribute? "t" = some "s") :
    cellPlaceholders pool cell = .ok [] := by
  unfold cellPlaceholders
  split
  · rfl
  · next s hs =>
    split
    · next run =>
      obtain ⟨i, hi⟩ := settled.readable size type s hs run
      refine bind_eq_ok_iff.mpr ⟨i, hi, ?_⟩
      have shown : Cell.shownText pool cell = pool.at? i := Cell.shownText_of_digits type hs run hi
      cases hat : pool.at? i with
      | none => rfl
      | some t => exact congrArg Except.ok (settled.bare t (shown.trans hat)).scan_eq_nil
    · rfl

/-- No placeholder is listed for a settled sheet. -/
theorem listed_of_settled {pool : Pool} (size : pool.size < Text.integerBound) {data : Bindings} {s : Sheet}
    (settled : s.Settled pool data) : sheetPlaceholders pool s = .ok [] :=
  gatherPlaceholders_of_nil fun cell hc => by
    obtain ⟨hc, type⟩ := List.mem_filter.mp hc
    obtain ⟨number, done⟩ := settled.exists_cell hc
    exact cellPlaceholders_of_settled size done (of_decide_eq_true type)

/-! ### Filling everything -/

/-- Filling a sheet whose texts the values complete leaves it settled. -/
theorem settled_of_fillSheet {w : Workbook} {sheet : Sheet} {data : Bindings} {o : Outcome} (sound : w.pool.Sound)
    (cells : ∀ cell ∈ sheet.rows.flatMap cellsOf, Cell.Fillable data w.pool cell)
    (names : ∀ t ∈ sheet.tables, ∀ name ∈ t.columnNames, Completes data name)
    (h : w.fillSheet sheet data = .ok o) : o.sheet.Settled o.pool data := by
  obtain ⟨filled, tables, added, root, hfilled, htables, hroot, rfl⟩ := fillSheet_cases h
  obtain ⟨-, rows, content⟩ := Expand.settled_of_run sound
    (fun row hrow cell hc => cells cell (List.mem_flatMap.mpr ⟨row, hrow, hc⟩)) hfilled
  obtain ⟨-, -, f, follows⟩ := Expand.follows_of_run sound hfilled
  have parts : root.childrenWith Vocabulary.sheetData = filled.sheet.root.childrenWith Vocabulary.sheetData :=
    childrenWith_growDimension hroot (by decide)
  have same : Sheet.data? ⟨filled.sheet.info, root, tables⟩ = filled.sheet.data? := by
    rw [Sheet.data?, Element.child?_eq_head?, parts, ← Element.child?_eq_head?, Sheet.data?]
  -- the pass over the rows leaves the columns of the tables, whose names are then filled
  have headed {t' : Table} (ht' : t' ∈ tables) : ∃ t k, Header.fillTable data t = .ok (t', k) ∧
      ∀ name ∈ t.columnNames, Completes data name := by
    obtain ⟨t, ht, k, hfill⟩ := exists_of_mem_right (Header.forall₂_of_fillTables htables) ht'
    obtain ⟨source, hsource, hfollows⟩ := exists_of_mem_right follows ht
    refine ⟨t, k, hfill, fun name hname => names source hsource name ?_⟩
    rwa [Table.columnNames, hfollows.columns] at hname
  refine ⟨?_, ?_, fun t' ht' => ?_, fun t' ht' => ?_⟩
  · rwa [Sheet.rows_of_childrenWith (s := filled.sheet) parts]
  · rwa [same]
  · obtain ⟨t, k, hfill, completes⟩ := headed ht'
    exact Header.stays_of_fillTable hfill completes
  · obtain ⟨t, k, hfill, -⟩ := headed ht'
    exact Header.inPlace_of_fillTable hfill

/-- A substitution that goes through in a sheet whose placeholders can be listed, with values that complete the texts of
the cells and the names of the columns. Afterwards no placeholder is listed for the sheet. When no cell and no table has
been pushed behind the last column that can be read, the same substitution goes through again and reports nothing: the
sheet and its tables mean what they meant, and are as they were when the rows, cells and columns are at home; the pool
has the same texts in the same places, with markup that means what it meant, and is as it was when its markup is at home;
and the document of the workbook is as it was. -/
theorem substitute_again {w w' ready : Workbook} {key : SheetKey} {data : Bindings} {stats : Expand.Stats}
    {sheet : Sheet} {found : Listing (List Placeholder)} (hpool : w.pool.Built)
    (hopen : w.openSheet key = .ok (sheet, ready)) (hlist : sheetPlaceholders w.pool sheet = .ok found)
    (hcells : ∀ cell ∈ sheet.rows.flatMap cellsOf, ∀ s, Cell.shownText w.pool cell = some s → Completes data s)
    (hnames : ∀ t ∈ sheet.tables, ∀ name ∈ t.columnNames, Completes data name)
    (hsub : w.substitute key data = (w', .ok stats)) :
    ∃ sheet', w'.openSheet key = .ok (sheet', w') ∧ sheetPlaceholders w'.pool sheet' = .ok [] ∧
      ((∀ cell ∈ sheet'.rows.flatMap cellsOf, WithinColumns (cell.attributeOr "r" "")) →
        (∀ t ∈ sheet'.tables, WithinColumns t.ref) →
        ∃ w'' sheet'', w'.substitute key data = (w'', .ok Expand.Stats.zero) ∧
          w''.openSheet key = .ok (sheet'', w'') ∧ sheet''.root.meaning = sheet'.root.meaning ∧
          List.Forall₂ (fun t t' => t'.path = t.path ∧ t'.root.meaning = t.root.meaning) sheet'.tables sheet''.tables ∧
          (sheet'.atHome = true → sheet'' = sheet') ∧ w''.document = w'.document ∧ w'.pool.SameMeaning w''.pool ∧
          (w'.pool.atHome w'.stringsRoot = true → w''.pool = w'.pool)) := by
  have sound := Pool.sound_of_built hpool
  obtain ⟨sheet₀, ready₀, o, h⟩ := substitute_cases sound hsub
  obtain ⟨rfl, rfl⟩ : sheet = sheet₀ ∧ ready = ready₀ :=
    Prod.mk.inj (Except.ok.inj (hopen.symm.trans h.open_eq))
  have same : ready.pool = w.pool := by rw [eq_of_openSheet hopen]
  have readable := readable_of_sheetPlaceholders hlist
  have settled : o.sheet.Settled w'.pool data := by
    rw [h.pool]
    refine Sheet.Settled.mono ?_ (Pool.cleans_movedTo o.pool w.stringsRoot)
    refine settled_of_fillSheet (same ▸ sound) (fun cell hc => ?_) hnames h.fill_eq
    rw [same]
    exact ⟨readable cell hc, hcells cell hc⟩
  have size : w'.pool.size < Text.integerBound := by
    rw [h.pool, Pool.size_movedTo]
    exact h.writable
  have opened := h.openSheet_eq sound
  refine ⟨o.sheet, opened, listed_of_settled size settled, fun cells tables => ?_⟩
  obtain ⟨_, _, _, _, _, stages, -⟩ := exists_stages hsub
  have canonical := settled.canonical cells tables
  obtain ⟨w'', goes, opened', document, pool, -⟩ := substitute_of_still
    (Pool.sound_of_built ((h.steps sound).built hpool)) opened stages.writable size canonical settled.still
  rw [settled.placeholderCount_eq_zero] at goes
  obtain ⟨meaning, tables⟩ := meaning_back canonical
  exact ⟨w'', o.sheet.back, goes, opened', meaning, tables, back_eq_self canonical, document,
    pool ▸ w'.pool.sameMeaning_movedTo w'.stringsRoot, fun home => pool.trans (Pool.movedTo_eq_self home)⟩

/-- Whether values complete the texts that cells show can be computed. -/
theorem completes_of_all {cells : List Element} {pool : Pool} {data : Bindings}
    (h : (cells.all fun cell => (Cell.shownText pool cell).all fun s => Completes data s) = true) :
    ∀ cell ∈ cells, ∀ s, Cell.shownText pool cell = some s → Completes data s := by
  intro cell hc s hs
  have all := List.all_eq_true.mp h cell hc
  rw [hs, Option.all_some] at all
  exact of_decide_eq_true all

/-- The small table is filled with all its names, in the cells and in the list: nothing is listed for its sheet then, and
the sheet is the same after it was filled again. -/
theorem substitute_again_small : ∃ w' stats found sheet' w'',
    sheetPlaceholders Small.headedBook.pool Small.headedSheet = .ok found ∧ listedCount found = 2 ∧
      Small.headedBook.substitute (.name "Data") Small.headedData = (w', .ok stats) ∧
      w'.openSheet (.name "Data") = .ok (sheet', w') ∧ sheetPlaceholders w'.pool sheet' = .ok [] ∧
      w'.substitute (.name "Data") Small.headedData = (w'', .ok Expand.Stats.zero) ∧
      w''.openSheet (.name "Data") = .ok (sheet', w'') ∧ w''.document = w'.document ∧ w''.pool = w'.pool := by
  have hopen := Small.openSheet_openedBook Small.headedSheet ["${xs}", "in ${y}"]
  have goes : (Small.headedBook.substitute (.name "Data") Small.headedData).2.toBool = true := by decide +kernel
  obtain ⟨stats, hsub⟩ := exists_substitute hopen goes
  obtain ⟨found, hlist, two⟩ := exists_listedCount Small.headedBook.pool Small.headedSheet 2 (by decide +kernel)
  have checks : ((Small.headedBook.substitute (.name "Data") Small.headedData).1.openSheet (.name "Data")).toOption.any
      (fun p => (p.1.rows.flatMap cellsOf).all (fun cell => WithinColumns (cell.attributeOr "r" "")) &&
        p.1.tables.all (fun t => WithinColumns t.ref) && p.1.atHome) = true := by decide +kernel
  obtain ⟨sheet', opened, none, again⟩ := substitute_again (.ofTexts _) hopen hlist
    (completes_of_all (by decide +kernel)) (by decide +kernel) hsub
  obtain ⟨p, hp, checks⟩ := (Option.any_eq_true _ _).mp checks
  obtain rfl := Except.ok.inj (opened.symm.trans (toOption_eq_some_iff.mp hp))
  simp only [Bool.and_eq_true, List.all_eq_true, decide_eq_true_eq] at checks
  obtain ⟨⟨cells, tables⟩, home⟩ := checks
  obtain ⟨w'', sheet'', goes', opened', -, -, same, document, -, pool⟩ := again cells tables
  rw [same home] at opened'
  exact ⟨_, stats, found, sheet', w'', hlist, two, hsub, opened, none, goes', opened', document,
    pool (by decide +kernel)⟩

end Workbook

/-! ### Sheets that do not come to rest -/

namespace Small

open Expand (plainElement plainCell)

/-- A sheet with one cell that holds a place in the pool. -/
def cellSheet (ref place : String) : Sheet where
  info := ⟨1, "Data", "sheet1.xml", none⟩
  root := plainElement "worksheet" []
    [plainElement "sheetData" [] [plainElement "row" [("r", "1")] [plainCell [("r", ref), ("t", "s")] place]]]
  tables := []

def letters : Bindings := .ofValues [("xs", .list [.text "a", .text "b"])]

theorem canonical_cellSheet (place : String) : (cellSheet "A1" place).Canonical := by
  have bound : (1 : Int).natAbs < Text.integerBound := (Text.decimal_length_le_iff 1).mp (by decide)
  have valid : (CellRef.numbered 1 1).Valid := CellRef.valid_numbered (by decide) (by decide) (by decide) bound
  have written : (CellRef.numbered 1 1).text = "A1" := by decide +kernel
  refine ⟨fun row hrow => ?_, fun sheetData hdata => ?_, fun t ht => by cases ht⟩
  · obtain rfl : row = _ := List.mem_singleton.mp hrow
    refine ⟨1, bound, ⟨.bare "r", rfl⟩, rfl, fun cell hc => ?_⟩
    obtain rfl : cell = _ := List.mem_singleton.mp hc
    exact ⟨1, valid, .bare "r", written.symm ▸ rfl⟩
  · rw [← Option.some.inj hdata]
    rfl

theorem plainPlace_cellSheet (ref : String) (place : Nat) :
    ∀ cell ∈ (cellSheet ref (toString place)).rows.flatMap cellsOf, Cell.PlainPlace cell := by
  intro cell hc _ s hs
  obtain rfl : cell = _ := List.mem_singleton.mp hc
  obtain rfl : toString place = s := Option.some.inj hs
  have digits : (toString place).toList = Text.decimal place := Text.toList_toString_ofNat place
  rw [digits]
  exact fun c hc => Text.isDigit_of_mem_decimal hc

/-- Nothing is shown by cells without a pool. -/
theorem shownText_ofTexts_nil (cell : Element) : Cell.shownText (.ofTexts []) cell = none := by
  rw [Cell.shownText_eq]
  cases Cell.place? cell <;> rfl

/-- A place with too many digits is left by a substitution, but cannot be listed. -/
theorem unlisted_cellSheet {place : Nat} (h : Text.integerBound ≤ place) (data : Bindings) :
    ∃ w' stats sheet', (openedBook (cellSheet "A1" (toString place)) []).substitute (.name "Data") data =
        (w', .ok stats) ∧
      w'.openSheet (.name "Data") = .ok (sheet', w') ∧
      (Workbook.sheetPlaceholders w'.pool sheet').toBool = false := by
  have canonical := canonical_cellSheet (toString place)
  have still : Workbook.Still (.ofTexts []) (cellSheet "A1" (toString place)) data := by
    refine ⟨fun cell _ => ?_, fun t ht => by cases ht⟩
    rw [shownText_ofTexts_nil]
    rfl
  have size : (Pool.ofTexts []).size < Text.integerBound := (Text.decimal_length_le_iff 0).mp (by decide)
  obtain ⟨w', goes, opened, -, pool, -⟩ := Workbook.substitute_of_still (Pool.sound_of_built (.ofTexts []))
    (openSheet_openedBook (cellSheet "A1" (toString place)) []) (fun e he => by cases he) size canonical still
  rw [back_eq_self canonical rfl] at opened
  refine ⟨w', _, _, goes, opened, ?_⟩
  cases listed : Workbook.sheetPlaceholders w'.pool (cellSheet "A1" (toString place)) with
  | error f => rfl
  | ok found =>
      rw [pool] at listed
      have digits : (toString place).toList = Text.decimal place := Text.toList_toString_ofNat place
      have run : Text.isDigitRun (Text.strip (toString place).toList) = true := by
        rw [digits, Cell.strip_decimal]
        exact Cell.isDigitRun_decimal place
      obtain ⟨i, hi⟩ := Workbook.readable_of_sheetPlaceholders listed _ (List.mem_singleton_self _) size rfl _ rfl run
      have read := parseInteger_eq_ok_iff.mp hi
      rw [digits] at read
      exact absurd (Text.eq_of_readInteger_decimal read).2 (Nat.not_lt.mpr h)

end Small

/-- Two values in the last column that can be read leave a sheet that cannot be filled again; and a cell that holds a
place with too many digits is left by a substitution, but cannot be listed. -/
theorem Workbook.substitute_again_fails :
    ((∀ cell ∈ (Small.cellSheet "ZZZ1" "0").rows.flatMap cellsOf, Cell.PlainPlace cell ∧
        ∀ s, Cell.shownText (.ofTexts ["${xs}"]) cell = some s → Completes Small.letters s) ∧
      ∃ w' stats, (Small.openedBook (Small.cellSheet "ZZZ1" "0") ["${xs}"]).substitute (.name "Data") Small.letters =
          (w', .ok stats) ∧
        (w'.substitute (.name "Data") Small.letters).2.toBool = false) ∧
    (∀ cell ∈ (Small.cellSheet "A1" (toString Text.integerBound)).rows.flatMap cellsOf, Cell.PlainPlace cell ∧
        Cell.shownText (.ofTexts []) cell = none) ∧
      ∃ w' stats sheet', (Small.openedBook (Small.cellSheet "A1" (toString Text.integerBound)) []).substitute
          (.name "Data") Small.letters = (w', .ok stats) ∧
        w'.openSheet (.name "Data") = .ok (sheet', w') ∧ (sheetPlaceholders w'.pool sheet').toBool = false := by
  have goes : ((Small.openedBook (Small.cellSheet "ZZZ1" "0") ["${xs}"]).substitute (.name "Data")
      Small.letters).2.toBool = true := by decide +kernel
  obtain ⟨stats, hsub⟩ := exists_substitute (Small.openSheet_openedBook (Small.cellSheet "ZZZ1" "0") ["${xs}"]) goes
  have completes : ∀ cell ∈ (Small.cellSheet "ZZZ1" "0").rows.flatMap cellsOf, ∀ s,
      Cell.shownText (.ofTexts ["${xs}"]) cell = some s → Completes Small.letters s :=
    completes_of_all (by decide +kernel)
  refine ⟨⟨fun cell hc => ⟨Small.plainPlace_cellSheet "ZZZ1" 0 cell hc, completes cell hc⟩, _, stats, hsub, ?_⟩,
    fun cell hc => ⟨Small.plainPlace_cellSheet "A1" _ cell hc, Small.shownText_ofTexts_nil cell⟩,
    Small.unlisted_cellSheet (Nat.le_refl _) Small.letters⟩
  decide +kernel

end Gridfill

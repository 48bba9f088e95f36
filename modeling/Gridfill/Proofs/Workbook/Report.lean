import Gridfill.Proofs.Reference.RoundTrip
import Gridfill.Proofs.Workbook.Acceptance
import Gridfill.Proofs.Workbook.Run

/-!
# Reports on workbooks

The report on a workbook is without errors exactly when its opened sheets are orderly, and it is there to be read unless
a number has too many digits, as long as what the check reads as numbers are numbers and the texts that it reads as places
in the pool are plain (`Check.accepts_iff_orderly`). A reference that does not read is an issue and no failure.
-/

namespace Gridfill

open Markup (Element)

/-! ### Reading numbers and references -/

/-- The failure to read a number with too many digits. -/
inductive Failure.TooLong : Failure → Prop where
  | mk {text : String} {digits : Nat} (h : Text.maxDigits < digits) : TooLong (.integer text (.tooLong digits))

/-- The failures to read a reference: the text is none, or its row has too many digits. -/
inductive Failure.OfReading : Failure → Prop where
  | reference (kind : ReferenceKind) (text : String) : OfReading (.reference kind text)
  | tooLong {f : Failure} (h : f.TooLong) : OfReading f

/-- Is the text an integer, be it one with too many digits? -/
def SpellsInteger (text : String) : Prop := Text.readInteger text.toList ≠ .error .malformed

theorem spellsInteger_of_parseInteger {text : String} {n : Int} (h : parseInteger text = .ok n) :
    SpellsInteger text := by
  rw [SpellsInteger, parseInteger_eq_ok_iff.mp h]
  nofun

theorem failsOnly_parseInteger {text : String} (h : SpellsInteger text) :
    FailsOnly Failure.TooLong (parseInteger text) := by
  intro f hf
  unfold SpellsInteger Text.readInteger at h
  unfold parseInteger Text.readInteger at hf
  simp only at h hf
  split at h
  · next long =>
    rw [if_pos long] at hf
    exact Except.error.inj hf ▸ .mk long
  · next short =>
    rw [if_neg short] at hf
    split at h
    · exact absurd rfl h
    · next good =>
      rw [if_neg good] at hf
      cases hf

theorem failsOnly_parseCell (s : String) : FailsOnly Failure.OfReading (CellRef.parse s) := by
  intro f hf
  rcases CellRef.parse_cases s with h | ⟨r, h, -⟩ | ⟨_, _, -, -, long, h⟩
  · exact Except.error.inj (h.symm.trans hf) ▸ .reference _ _
  · rw [h] at hf
    cases hf
  · exact Except.error.inj (h.symm.trans hf) ▸ .tooLong (.mk long)

theorem failsOnly_parseCorner (s : String) (corner : List Char) :
    FailsOnly Failure.OfReading (CellRange.parseCorner s corner) := by
  intro f hf
  unfold CellRange.parseCorner at hf
  split at hf
  · cases hf
  · next e he =>
    obtain rfl := Except.error.inj hf
    cases failsOnly_parseCell _ e he with
    | reference kind text => exact .reference _ _
    | tooLong h =>
        cases h with
        | mk long => exact .tooLong (.mk long)

theorem failsOnly_parseRange (s : String) : FailsOnly Failure.OfReading (CellRange.parse s) := by
  unfold CellRange.parse
  simp only
  split
  · refine (failsOnly_parseCorner _ _).bind fun start _ => (failsOnly_parseCorner _ _).bind fun stop _ => ?_
    split
    · exact .ok _
    · exact .ok _
  · intro f hf
    exact Except.error.inj hf ▸ .reference _ _

namespace Check

/-! ### The check -/

/-- A failure to read a reference is an issue, so the check fails only on numbers with too many digits. -/
theorem failsOnly_orIssue {α : Type} {x : Except Failure α} (h : FailsOnly Failure.OfReading x)
    (issue : String → Issue) : FailsOnly Failure.TooLong (orIssue x issue) := by
  intro f hf
  cases x with
  | ok a => cases hf
  | error e =>
      cases h e rfl with
      | reference kind text => cases hf
      | tooLong h =>
          cases h with
          | mk long => exact Except.error.inj hf ▸ .mk long

theorem eq_ok_of_orIssue {α : Type} {x : Except Failure α} {issue : String → Issue} {a : α}
    (h : orIssue x issue = .ok (.inr a)) : x = .ok a := by
  cases x with
  | ok b => exact congrArg Except.ok (Sum.inr.inj (Except.ok.inj h))
  | error f =>
      cases f with
      | reference kind text => cases Except.ok.inj h
      | _ => cases h

/-- If the cell is one with a place in the pool, its text is plain. -/
def HoldsPlain (cell : Element) : Prop :=
  cell.attribute? "t" = some "s" → ∀ c ∈ ((Cell.valueText cell).getD "").toList, c.toNat < 128

/-- The numbers of rows and the counts of columns are integers, and the texts of places in the pool are plain. -/
structure Numeric (s : Sheet) : Prop where
  rows : ∀ row ∈ s.rows, ∀ text, row.attribute? "r" = some text → SpellsInteger text
  counts : ∀ t ∈ s.tables, ∀ list, t.columns? = some list →
    ∀ text, list.attribute? "count" = some text → SpellsInteger text
  places : ∀ row ∈ s.rows, ∀ cell ∈ cellsOf row, HoldsPlain cell

section
variable (sheet : String) (size : Nat)

theorem failsOnly_checkPlace {cell : Element} (plain : HoldsPlain cell) :
    FailsOnly Failure.TooLong (checkPlace sheet size cell) := by
  have said (isGood : Bool) (issue : Issue) :
      FailsOnly Failure.TooLong (if isGood then return [] else return [issue]) := by
    split
    · exact .ok _
    · exact .ok _
  unfold checkPlace
  split
  · next ht =>
    simp only
    split
    · next digits =>
      obtain ⟨ds, figures⟩ := Text.exists_figures_of_plain digits fun c hc => plain ht c (Text.mem_of_mem_trim hc)
      have spelled : SpellsInteger (String.ofList (heldText cell)) := by
        rw [SpellsInteger, String.toList_ofList, heldText, figures.readInteger]
        split
        · nofun
        · nofun
      exact (failsOnly_parseInteger spelled).bind fun _ _ => said _ _
    · exact said false _
  · exact .ok _

theorem failsOnly_checkCell {number last : Int} {cell : Element} (plain : HoldsPlain cell) :
    FailsOnly Failure.TooLong (checkCell sheet size number last cell) := by
  have place := failsOnly_checkPlace sheet size plain
  unfold checkCell
  simp only
  split
  · exact place.bind fun _ _ => .ok _
  · refine (failsOnly_orIssue (failsOnly_parseCell _) _).bind fun found hfound => ?_
    split
    · exact .ok _
    · next r =>
      obtain ⟨c, -, -, hc, -⟩ := (CellRef.valid_of_parse (eq_ok_of_orIssue hfound)).columnNumber
      rw [hc]
      exact place.bind fun _ _ => .ok _

theorem failsOnly_checkCells {number : Int} : ∀ {cells : List Element} {last : Int},
    (∀ cell ∈ cells, HoldsPlain cell) →
    FailsOnly Failure.TooLong (checkCells sheet size number last cells)
  | [], _, _ => .ok _
  | cell :: cells, _, plain => by
      obtain ⟨first, others⟩ := List.forall_mem_cons.mp plain
      exact (failsOnly_checkCell sheet size first).bind fun _ _ =>
        (failsOnly_checkCells others).bind fun _ _ => .ok _

theorem failsOnly_checkRows : ∀ {rows : List Element} {last : Int},
    (∀ row ∈ rows, (∀ text, row.attribute? "r" = some text → SpellsInteger text) ∧
      ∀ cell ∈ cellsOf row, HoldsPlain cell) →
    FailsOnly Failure.TooLong (checkRows sheet size last rows)
  | [], _, _ => .ok _
  | row :: rows, last, h => by
      obtain ⟨⟨own, plain⟩, others⟩ := List.forall_mem_cons.mp h
      have number : FailsOnly Failure.TooLong (rowNumber last row) := by
        unfold rowNumber
        split
        · next text carried => exact failsOnly_parseInteger (own text carried)
        · exact .ok _
      exact number.bind fun _ _ => (failsOnly_checkCells sheet size plain).bind fun _ _ =>
        (failsOnly_checkRows others).bind fun _ _ => .ok _

theorem failsOnly_checkRange (lead ref : String) : FailsOnly Failure.TooLong (checkRange sheet lead ref) := by
  unfold checkRange
  refine (failsOnly_orIssue (failsOnly_parseRange ref) _).bind fun found _ => ?_
  split
  · exact .ok _
  · exact .ok _

theorem failsOnly_checkTable {t : Table} (counts : ∀ list, t.columns? = some list →
    ∀ text, list.attribute? "count" = some text → SpellsInteger text) :
    FailsOnly Failure.TooLong (checkTable sheet t) := by
  -- the columns of a range that reads have numbers, so only reading it fails
  have width : FailsOnly Failure.OfReading (tableWidth t) := by
    intro f hf
    rcases bind_eq_error_iff.mp hf with h | ⟨r, hr, -⟩
    · exact failsOnly_parseRange t.ref f h
    · obtain ⟨width, h⟩ := tableWidth_of_range hr
      rw [h] at hf
      cases hf
  have columns (name : String) (width : Int) : FailsOnly Failure.TooLong (checkColumns sheet name t width) := by
    unfold checkColumns
    split
    · exact .ok _
    · next list hlist =>
      simp only
      split
      · next text htext => exact (failsOnly_parseInteger (counts list hlist text htext)).bind fun _ _ => .ok _
      · exact .ok _
  unfold checkTable
  simp only
  refine (failsOnly_orIssue width _).bind fun found _ => ?_
  split
  · exact .ok _
  · split
    · exact (columns _ _).bind fun _ _ => .ok _
    · exact (failsOnly_checkRange sheet _ _).bind fun _ _ => (columns _ _).bind fun _ _ => .ok _

end

theorem Numeric.failsOnly_checkSheet {s : Sheet} (h : Numeric s) (size : Nat) :
    FailsOnly Failure.TooLong (checkSheet size s) :=
  (failsOnly_checkRows s.name size fun row hr => ⟨h.rows row hr, h.places row hr⟩).bind fun _ _ =>
    (FailsOnly.mapM fun _ _ => failsOnly_checkRange s.name _ _).bind fun _ _ =>
      (FailsOnly.mapM fun t ht => failsOnly_checkTable s.name (h.counts t ht)).bind fun _ _ => .ok _

end Check

/-! ### The report -/

/-- The report is without errors exactly when the opened sheets are orderly. Where the numbers of their rows and the
counts of their columns are integers and the texts of places in the pool are plain, there is a report unless a number
has too many digits. -/
theorem Check.accepts_iff_orderly (w : Workbook) :
    ((∃ r, Check.report w = .ok r ∧ r.hasErrors = false) ↔ ∀ s ∈ w.opened, Orderly w.pool.size s) ∧
      ((∀ s ∈ w.opened, Numeric s) → ∀ f, Check.report w = .error f → f.TooLong) := by
  refine ⟨exists_report_iff.trans (forall₂_congr fun s _ => passes_checkSheet_iff_orderly), fun numeric => ?_⟩
  exact (FailsOnly.mapM fun s hs => (numeric s hs).failsOnly_checkSheet w.pool.size).bind fun _ _ => .ok _

/-! ### Empty references and long places -/

namespace Small

open Check (Numeric Ordered)
open Expand (plainElement plainCell)
open Markup (Document ofList_append)

/-- Are the numbers of the rows integers and the texts of the cells plain? -/
def numericRows (s : Sheet) : Bool :=
  s.rows.all fun row => ((row.attribute? "r").all fun text => (parseInteger text).toBool) &&
    (cellsOf row).all fun cell => ((Cell.valueText cell).getD "").toList.all fun c => decide (c.toNat < 128)

/-- Whether what the check reads in a sheet without tables is numeric can be computed. -/
theorem numeric_of_checks {s : Sheet} (tables : s.tables = []) (h : numericRows s = true) : Numeric s := by
  have checks (row : Element) (hrow : row ∈ s.rows) := Bool.and_eq_true_iff.mp (List.all_eq_true.mp h row hrow)
  refine ⟨fun row hrow text carried => ?_, fun t ht => ?_, fun row hrow cell hcell _ c hc => ?_⟩
  · have number := (checks row hrow).1
    rw [carried, Option.all_some] at number
    obtain ⟨n, hn⟩ := exists_of_isOk number
    exact spellsInteger_of_parseInteger hn
  · rw [tables] at ht
    cases ht
  · have plain := List.all_eq_true.mp (checks row hrow).2 cell hcell
    exact of_decide_eq_true (List.all_eq_true.mp plain c hc)

section
set_option maxRecDepth 8000

def bareDocument : Document where
  text := "<worksheet xmlns=\"http://schemas.openxmlformats.org/spreadsheetml/2006/main\"><sheetData><row r=\"2\">" ++
    "<c r=\"B2\"/><c/><c r=\"D2\" t=\"s\"><v> 1 </v></c></row><row><c r=\"\"/><c r=\"A3\"/></row></sheetData>" ++
    "<mergeCells><mergeCell ref=\"B2:C2\"/></mergeCells></worksheet>"
  chars := _
  text_eq := ofList_append (ofList_append rfl rfl) rfl
  tagged := by decide
  reads := by decide +kernel

end

/-- The parts of a workbook with a row without a number and cells without references, one of them an empty one. -/
def bareParts : List (String × Document) :=
  [("_rels/.rels", rootDocument), ("book.xml", bookDocument), ("_rels/book.xml.rels", linksDocument),
    ("texts.xml", textsDocument), ("one.xml", bareDocument), ("two.xml", twoDocument)]

def bare : Workbook :=
  { book with
    package := .ofEntries (containerOf bareParts)
    document := bookDocument.root
    relationships := linksDocument.root }

def bareSheet : Sheet := ⟨⟨1, "One", "one.xml", some "a"⟩, bareDocument.root, []⟩

/-- The workbook with that sheet opened. -/
def bareOne : Workbook := { bare with opened := [bareSheet] }

theorem bare_distinct : (bareParts.map (·.1)).Nodup := by decide

theorem load_bare : Workbook.load (containerOf bareParts) = .ok bare := loaded_book bare_distinct ⟨_, rfl⟩

/-- What can be computed of the sheet: it has no tables, what the check reads is numeric, the report has no errors, and
a cell has an empty reference. -/
theorem checks_bare :
    (bareDocument.root.descendants [Vocabulary.tableParts, Vocabulary.tablePart]).isEmpty = true ∧
    numericRows bareSheet = true ∧
    (Check.report bareOne).toOption.map Report.hasErrors = some false ∧
    (bareSheet.rows.any fun row => (cellsOf row).any fun cell => decide (cell.attribute? "r" = some "")) = true := by
  decide +kernel

theorem open_bare : bare.openSheet (.name "One") = .ok (bareSheet, bareOne) :=
  openSheet_containerOf bare_distinct rfl rfl rfl (by simp [bareParts]) checks_bare.1

theorem numeric_bare : Numeric bareSheet := numeric_of_checks rfl checks_bare.2.1

/-- The report on the sheet has no errors. -/
theorem report_bare : ∃ r, Check.report bareOne = .ok r ∧ r.hasErrors = false := by
  obtain ⟨r, hr, none⟩ := Option.map_eq_some_iff.mp checks_bare.2.2.1
  exact ⟨r, toOption_eq_some_iff.mp hr, none⟩

/-- One of its cells carries an empty reference. -/
theorem exists_empty_reference : ∃ row ∈ bareSheet.rows, ∃ cell ∈ cellsOf row, cell.attribute? "r" = some "" := by
  obtain ⟨row, hrow, hcells⟩ := List.any_eq_true.mp checks_bare.2.2.2
  obtain ⟨cell, hcell, own⟩ := List.any_eq_true.mp hcells
  exact ⟨row, hrow, cell, hcell, of_decide_eq_true own⟩

/-- The text of the place zero with more digits than a number may have. -/
def zeros : List Char := List.replicate (Text.maxDigits + 1) '0'

/-- A cell that holds that place. -/
def longCell : Element := plainCell [("r", "A1"), ("t", "s")] (String.ofList zeros)

/-- A sheet with that cell alone. -/
def longSheet : Sheet where
  info := ⟨1, "Data", "sheet1.xml", none⟩
  root := plainElement "worksheet" []
    [plainElement "sheetData" []
      [plainElement "row" [("r", "1")] [longCell]]]
  tables := []

/-- A workbook with that sheet and one text. -/
def longBook : Workbook := openedBook longSheet ["a"]

theorem figures_zeros : Text.Figures zeros (List.replicate (Text.maxDigits + 1) 0) where
  values := by
    rw [zeros, List.map_replicate, List.map_replicate]
    rfl
  ne_nil := by simp

theorem ofDigits_replicate_zero : ∀ n, Text.ofDigits (List.replicate n 0) = 0
  | 0 => rfl
  | n + 1 => ofDigits_replicate_zero n

theorem heldText_long : Check.heldText longCell = zeros := by
  have plain : ∀ c ∈ zeros, Text.isBlank c = false := fun c hc => by
    rw [List.eq_of_mem_replicate hc]
    decide
  show Text.strip (String.ofList zeros).toList = zeros
  rw [String.toList_ofList, Text.strip, Text.trim_eq_self plain]

theorem ordered_long : Ordered longSheet where
  rows := by
    have stands : Check.StandsIn 1 longCell 1 :=
      ⟨.plain "A" 1, rfl, rfl, rfl⟩
    exact ⟨[1], .own rfl (show parseInteger "1" = .ok 1 from rfl) .nil, by decide, List.pairwise_singleton _ _,
      .cons ⟨[1], .cons stands .nil, List.pairwise_singleton _ _⟩ .nil⟩
  merges m hm := by cases hm
  tables t ht := by cases ht

/-- What is known of the one cell of the sheet is known of all of them. -/
theorem forall_cells_long {p : Element → Prop} (h : p longCell) :
    ∀ row ∈ longSheet.rows, ∀ cell ∈ cellsOf row, p cell := by
  intro row hrow cell hcell
  obtain rfl := List.mem_singleton.mp hrow
  obtain rfl := List.mem_singleton.mp hcell
  exact h

theorem numeric_long : Numeric longSheet where
  rows row hrow text carried := by
    obtain rfl := List.mem_singleton.mp hrow
    obtain rfl := Option.some.inj carried
    exact spellsInteger_of_parseInteger (show parseInteger "1" = .ok 1 from rfl)
  counts t ht := by cases ht
  places := forall_cells_long fun _ c hc => by
    have zero : c ∈ zeros := by
      rwa [← String.toList_ofList (l := zeros)]
    rw [List.eq_of_mem_replicate zero]
    decide

end Small

/-- The small workbook with a sheet of rows and cells without references, and the one with a sheet that holds a place
behind the pool. -/
theorem Check.accepts_iff_orderly_small :
    Numeric Small.bareSheet ∧ Orderly Small.bareOne.pool.size Small.bareSheet ∧
      (∀ f, report Small.bareOne = .error f → f.TooLong) ∧ ¬ Orderly Small.bookTwo.pool.size Small.two := by
  obtain ⟨bare, fails⟩ := accepts_iff_orderly Small.bareOne
  refine ⟨Small.numeric_bare, bare.mp Small.report_bare _ List.mem_cons_self,
    fails (List.forall_mem_singleton.mpr Small.numeric_bare), fun orderly => ?_⟩
  obtain ⟨r, hr, none⟩ := (accepts_iff_orderly Small.bookTwo).1.mpr (List.forall_mem_singleton.mpr orderly)
  have missing : (report Small.bookTwo).toOption.map Report.hasErrors = some true := by decide +kernel
  rw [hr] at missing
  exact absurd (none.symm.trans (Option.some.inj missing)) (by decide)

/-- An empty reference does not read and is no error, and a place with too many digits is one that the pool may have
but no report is made of it. -/
theorem Check.report_empty_reference :
    (Workbook.load (Small.containerOf Small.bareParts) = .ok Small.bare ∧
      Small.bare.openSheet (.name "One") = .ok (Small.bareSheet, Small.bareOne) ∧
      Small.bareOne.opened = [Small.bareSheet] ∧ Numeric Small.bareSheet ∧
      (∃ r, report Small.bareOne = .ok r ∧ r.hasErrors = false) ∧
      (∃ row ∈ Small.bareSheet.rows, ∃ cell ∈ cellsOf row, cell.attribute? "r" = some "") ∧
      CellRef.parse "" = .error (.reference .cell "")) ∧
    Small.longBook.opened = [Small.longSheet] ∧ Numeric Small.longSheet ∧ Ordered Small.longSheet ∧
      (∀ row ∈ Small.longSheet.rows, ∀ cell ∈ cellsOf row, cell.attribute? "t" = some "s" →
        ∃ ds, Text.Figures (heldText cell) ds ∧ Text.ofDigits ds < Small.longBook.pool.size) ∧
      ¬ ∃ r, report Small.longBook = .ok r ∧ r.hasErrors = false := by
  refine ⟨⟨Small.load_bare, Small.open_bare, rfl, Small.numeric_bare, Small.report_bare,
    Small.exists_empty_reference, rfl⟩, rfl, Small.numeric_long, Small.ordered_long,
    Small.forall_cells_long fun _ => ?_, fun clean => ?_⟩
  · rw [Small.heldText_long]
    refine ⟨_, Small.figures_zeros, ?_⟩
    rw [Small.ofDigits_replicate_zero]
    exact Nat.one_pos
  · have passes := exists_report_iff.mp clean _ List.mem_cons_self
    obtain ⟨ds, figures, short, -⟩ :=
      (passes_checkSheet_iff_orderly.mp passes).places _ List.mem_cons_self _ List.mem_cons_self rfl
    have length := congrArg List.length figures.values
    rw [Small.heldText_long, List.length_map, List.length_map, Small.zeros, List.length_replicate] at length
    omega

end Gridfill

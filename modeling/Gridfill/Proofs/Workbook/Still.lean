import Gridfill.Proofs.Pool.Writing
import Gridfill.Proofs.Sheet.Still
import Gridfill.Proofs.Workbook.Backed

/-!
# Substitutions that fill nothing

When no placeholder of a sheet in canonical form has a value, a substitution in it goes through, counts the placeholders
and changes nothing (`substitute_unresolved`). Rows, cells and columns are taken out and put back on the way, which keeps
what they mean, and everything about them when they declare no namespaces and are written with those in scope.
-/

namespace Gridfill

open Markup (Element)

namespace Workbook

/-! ### Pools that can be written -/

/-- After a substitution each entry of the pool can be written: it has been. -/
theorem Stages.writable {w w' ready dropped : Workbook} {key : SheetKey} {data : Bindings} {sheet : Sheet}
    {o : Outcome} {strings : Element} (h : Stages w key data sheet ready o dropped strings w') :
    ∀ e ∈ w'.pool.entries, ∃ m, Pool.itemOf e = .ok m := by
  obtain ⟨-, items, -, written, -, -⟩ := Pool.writeTo_cases h.strings_eq
  rw [h.eq]
  intro e he
  obtain ⟨before, hb, rfl⟩ := List.mem_map.mp he
  obtain ⟨m, -, hm⟩ := exists_of_mem_right written.flip hb
  obtain ⟨text, markup⟩ := before
  cases markup with
  | none => exact ⟨m, hm⟩
  | some _ => exact ⟨_, rfl⟩

/-- In a workbook under work each entry of the pool can be written: its markup was read, or a substitution has written
it. -/
theorem Live.writable {w : Workbook} (h : w.Live) : ∀ e ∈ w.pool.entries, ∃ m, Pool.itemOf e = .ok m := by
  induction h with
  | load h =>
      rw [(ofPackage_eq_ok_iff.mp h).pool, Pool.ofRoot, Pool.entries_foldl_addRead]
      intro e he
      obtain ⟨m, -, rfl⟩ := List.mem_map.mp he
      exact ⟨m, rfl⟩
  | openSheet _ h ih =>
      rw [eq_of_openSheet h]
      exact ih
  | substitute _ h ih =>
      obtain ⟨_, _, _, _, _, stages, -⟩ := exists_stages h
      exact stages.writable

theorem exists_writeTo {p : Pool} (writable : ∀ e ∈ p.entries, ∃ m, Pool.itemOf e = .ok m)
    (size : p.size < Text.integerBound) (root : Element) :
    ∃ root', p.writeTo root = .ok (root', p.movedTo root) := by
  have items : ∃ items, p.entries.mapM Pool.itemOf = .ok items := by
    clear size
    simp only [mapM_eq_ok_iff]
    generalize p.entries = entries at writable
    induction entries with
    | nil => exact ⟨[], .nil⟩
    | cons e es ih =>
        obtain ⟨m, hm⟩ := writable e List.mem_cons_self
        obtain ⟨ms, hms⟩ := ih fun f hf => writable f (List.mem_cons_of_mem e hf)
        exact ⟨m :: ms, .cons hm hms⟩
  obtain ⟨items, hitems⟩ := items
  have count : writeInteger (p.size : Int) = .ok (toString (p.size : Int)) := writeInteger_eq_ok_iff.mpr ⟨size, rfl⟩
  exact ⟨_, bind_eq_ok_iff.mpr ⟨items, hitems, bind_eq_ok_iff.mpr ⟨_, count, rfl⟩⟩⟩

/-! ### A sheet without anything to fill -/

/-- The placeholders in the cells of a sheet, by the pool as it is. -/
def placeholderCount (pool : Pool) (sheet : Sheet) : Nat :=
  (((sheet.rows.flatMap cellsOf).map (Cell.shownText pool)).map Placeholder.count).sum

/-- No cell of the sheet shows a placeholder that resolves, and filling the columns of its tables leaves their names. -/
structure Still (pool : Pool) (sheet : Sheet) (data : Bindings) : Prop where
  cells : ∀ cell ∈ sheet.rows.flatMap cellsOf, textResolves data (Cell.shownText pool cell) = false
  names : ∀ t ∈ sheet.tables, ∀ name ∈ t.columnNames, Header.Stays data name

theorem growDimension_zero (root : Element) : Shift.growDimension 0 0 root = .ok root := by
  unfold Shift.growDimension
  split
  · rfl
  · rw [if_pos ⟨Int.le_refl 0, Int.le_refl 0⟩]

theorem fillSheet_of_still {w : Workbook} {sheet : Sheet} {data : Bindings} (canonical : sheet.Canonical)
    (still : Still w.pool sheet data) :
    w.fillSheet sheet data =
      .ok ⟨sheet.back, w.document, w.pool, Expand.Stats.zero.skip (placeholderCount w.pool sheet)⟩ := by
  have rows : Expand.run sheet w.document w.pool data = .ok _ := Expand.run_of_still canonical still.cells
  have tables := Header.fillTables_of_stays canonical.tables still.names
  exact bind_eq_ok_iff.mpr ⟨_, rows, bind_eq_ok_iff.mpr ⟨_, tables, bind_eq_ok_iff.mpr
    ⟨_, growDimension_zero sheet.rowsBack, rfl⟩⟩⟩

/-- Putting the parts of a canonical sheet back leaves what its documents mean. -/
theorem meaning_back {sheet : Sheet} (canonical : sheet.Canonical) :
    sheet.back.root.meaning = sheet.root.meaning ∧
      List.Forall₂ (fun t t' => t'.path = t.path ∧ t'.root.meaning = t.root.meaning) sheet.tables sheet.back.tables := by
  refine ⟨meaning_rowsBack canonical, List.forall₂_map_right_iff.mpr (List.forall₂_same.mpr fun t ht => ?_)⟩
  exact meaning_columnsBack canonical ht

/-- A substitution in a canonical sheet without anything to fill goes through, counts the placeholders and puts the parts
of the sheet back. -/
theorem substitute_of_still {w ready : Workbook} {key : SheetKey} {data : Bindings} {sheet : Sheet}
    (sound : w.pool.Sound) (hopen : w.openSheet key = .ok (sheet, ready))
    (writable : ∀ e ∈ w.pool.entries, ∃ m, Pool.itemOf e = .ok m) (hsize : w.pool.size < Text.integerBound)
    (canonical : sheet.Canonical) (still : Still w.pool sheet data) :
    ∃ w', w.substitute key data = (w', .ok ⟨0, 0, 0, placeholderCount w.pool sheet⟩) ∧
      w'.openSheet key = .ok (sheet.back, w') ∧ w'.document = w.document ∧
      w'.pool = w.pool.movedTo w.stringsRoot ∧
      w'.calcChain = w.calcChain ∧ w'.relationships = w.relationships ∧
      Package.AgreeOutside (w.path :: w.stringsPath :: sheet.parts) w.package w'.package := by
  have same := eq_of_openSheet hopen
  have pool : ready.pool = w.pool := by rw [same]
  rw [← pool] at still writable hsize ⊢
  have filled := fillSheet_of_still canonical still
  have stays : Drops (ready.putOutcome ⟨sheet.back, ready.document, ready.pool,
      Expand.Stats.zero.skip (placeholderCount ready.pool sheet)⟩) false _ := .kept fun moves => by cases moves
  obtain ⟨strings, hstrings⟩ := exists_writeTo writable hsize ready.stringsRoot
  have stages : ∃ w', Stages w key data sheet ready _ _ strings w' := ⟨_, hopen, filled, stays, hstrings, rfl⟩
  obtain ⟨w', stages⟩ := stages
  have goes := stages.substitute_eq
  obtain ⟨sheet₀, ready₀, o, h⟩ := substitute_cases sound goes
  obtain ⟨rfl, rfl⟩ : sheet = sheet₀ ∧ ready = ready₀ := Prod.mk.inj (Except.ok.inj (hopen.symm.trans h.open_eq))
  obtain rfl := Except.ok.inj (filled.symm.trans h.fill_eq)
  have paths : sheet.back.tables.map (·.path) = sheet.tables.map (·.path) := by
    rw [Sheet.back, List.map_map]
    exact List.map_congr_left fun t ht => (meaning_columnsBack canonical ht).1
  refine ⟨w', ?_, h.openSheet_eq sound, ?_, ?_, ?_, ?_, fun name hn => ?_⟩
  · rw [goes]
    simp only [Expand.Stats.skip, Expand.Stats.zero, Nat.zero_add]
  · rw [stages.eq, same]
    rfl
  · rw [stages.eq, same]
    rfl
  · rw [stages.eq, same]
    rfl
  · rw [stages.eq, same]
    rfl
  · have start : ready.package = w.package := by rw [same]
    rw [stages.eq, ← start]
    refine (Package.leaves_writeDocuments ready.package fun hd => hn ?_).find
    rw [names_documents stages rfl paths] at hd
    simp only [Sheet.parts, List.mem_cons] at hd ⊢
    rcases hd with own | document | strings | table
    · exact .inr (.inr (.inl own))
    · exact .inl document
    · exact .inr (.inl strings)
    · exact .inr (.inr (.inr table))

/-- A substitution in a canonical sheet whose placeholders have no values goes through. It reports the placeholders of
the cells as left and nothing else. The sheet found afterwards and its tables mean what they meant, and are as they were
when the rows, cells and columns are at home; the pool has the same texts in the same places, with markup that means what
it meant, and is as it was when its markup is at home; the document of the workbook, the order of calculation and the
relationships are as they were, and so are all parts but those of the documents that are written. -/
theorem substitute_unresolved {w ready : Workbook} {key : SheetKey} {data : Bindings} {sheet : Sheet} (live : w.Live)
    (hopen : w.openSheet key = .ok (sheet, ready)) (hsize : w.pool.size < Text.integerBound)
    (canonical : sheet.Canonical)
    (hcells : ∀ cell ∈ sheet.rows.flatMap cellsOf, ∀ s, Cell.shownText w.pool cell = some s →
      ∀ p ∈ Placeholder.scan s, p.Unresolved data)
    (hnames : ∀ t ∈ sheet.tables, ∀ name ∈ t.columnNames, ∀ p ∈ Placeholder.scan name, p.Unresolved data) :
    ∃ w' sheet', w.substitute key data = (w', .ok ⟨0, 0, 0, placeholderCount w.pool sheet⟩) ∧
      w'.openSheet key = .ok (sheet', w') ∧ sheet'.root.meaning = sheet.root.meaning ∧
      List.Forall₂ (fun t t' => t'.path = t.path ∧ t'.root.meaning = t.root.meaning) sheet.tables sheet'.tables ∧
      (sheet.atHome = true → sheet' = sheet) ∧ w'.document = w.document ∧ w.pool.SameMeaning w'.pool ∧
      (w.pool.atHome w.stringsRoot = true → w'.pool = w.pool) ∧
      w'.calcChain = w.calcChain ∧ w'.relationships = w.relationships ∧
      Package.AgreeOutside (w.path :: w.stringsPath :: sheet.parts) w.package w'.package := by
  have still : Still w.pool sheet data := by
    refine ⟨fun cell hc => textResolves_of_unresolved (hcells cell hc), fun t ht name hname => ?_⟩
    refine Header.stays_of_still (textResolves_of_unresolved fun s hs p hp => hnames t ht name hname p ?_)
    rwa [Option.some.inj hs]
  obtain ⟨w', goes, opened, document, pool, kept⟩ :=
    substitute_of_still live.sound hopen live.writable hsize canonical still
  obtain ⟨meaning, tables⟩ := meaning_back canonical
  exact ⟨w', sheet.back, goes, opened, meaning, tables, back_eq_self canonical, document,
    pool ▸ w.pool.sameMeaning_movedTo w.stringsRoot, fun home => pool.trans (Pool.movedTo_eq_self home), kept⟩

end Workbook

/-! ### Small sheets in canonical form -/

namespace Small

open Markup (Document ofList_append)
open CellRef (numbered)
open Expand (currentNumber)

/-- Is the content of the element nothing but elements of a tag? -/
def holdsOnly (e : Element) (tag : Markup.Tag) : Bool := e.content.all fun n => n.element?.any (·.tag = tag)

theorem holdsOnly_of_all {e : Element} {tag : Markup.Tag} (h : holdsOnly e tag = true) : e.HoldsOnly tag := by
  intro n hn
  have hn := List.all_eq_true.mp h n hn
  cases n with
  | element c => exact ⟨c, rfl, of_decide_eq_true hn⟩
  | comment _ _ => cases hn
  | instruction _ _ _ => cases hn
  | entity _ _ => cases hn

/-- Is the attribute written with the value? -/
def writes (e : Element) (label value : String) : Bool :=
  (e.attributes.find? fun a => a.name.tag = ⟨none, label⟩).any fun a => a.value = value && a.written = none

theorem writes_of_writes {e : Element} {label value : String} (h : writes e label value = true) :
    e.Writes label value := by
  obtain ⟨⟨name, own, written⟩, found, h⟩ := (Option.any_eq_true _ _).mp h
  simp only [Bool.and_eq_true, decide_eq_true_eq] at h
  obtain ⟨rfl, rfl⟩ := h
  exact ⟨name, found⟩

/-- Whether a sheet without tables whose cells stand in the first row is in canonical form can be computed. -/
theorem canonical_of_checks {s : Sheet} (tables : s.tables = [])
    (content : (s.data?.all (holdsOnly · Vocabulary.worksheetRow)) = true)
    (rows : (s.rows.all fun row => writes row "r" "1" && holdsOnly row Vocabulary.cell &&
      (cellsOf row).all fun cell => [1, 2].any fun c => writes cell "r" (numbered c 1).text) = true) : s.Canonical where
  rows row hrow := by
    have checks := List.all_eq_true.mp rows row hrow
    simp only [Bool.and_eq_true, List.all_eq_true] at checks
    obtain ⟨⟨number, holds⟩, cells⟩ := checks
    have bound : (1 : Int).natAbs < Text.integerBound := (Text.decimal_length_le_iff 1).mp (by decide)
    refine ⟨1, bound, writes_of_writes number, Element.content_of_holdsOnly (holdsOnly_of_all holds),
      fun cell hc => ?_⟩
    obtain ⟨c, hc, written⟩ := List.any_eq_true.mp (cells cell hc)
    have small : 1 ≤ c ∧ c ≤ 2 := by
      rcases List.mem_pair.mp hc with rfl | rfl
      · exact ⟨by decide, by decide⟩
      · exact ⟨by decide, by decide⟩
    have valid : (numbered c 1).Valid :=
      CellRef.valid_numbered small.1 (Nat.le_trans small.2 (by decide)) (Int.le_refl 1) bound
    exact ⟨c, valid, writes_of_writes written⟩
  content sheetData hdata := by
    rw [hdata, Option.all_some] at content
    have := Element.content_of_holdsOnly (holdsOnly_of_all content)
    rwa [Sheet.rows, hdata]
  tables t ht := by
    rw [tables] at ht
    cases ht

theorem canonical_one : one.Canonical := canonical_of_checks rfl (by decide +kernel) (by decide +kernel)

section
set_option maxRecDepth 8000

def declaringDocument : Document where
  text := "<worksheet xmlns=\"http://schemas.openxmlformats.org/spreadsheetml/2006/main\"><sheetData><row " ++
    "xmlns=\"http://schemas.openxmlformats.org/spreadsheetml/2006/main\" r=\"1\"><c r=\"A1\" t=\"s\"><v>0</v></c>" ++
    "</row></sheetData></worksheet>"
  chars := _
  text_eq := ofList_append (ofList_append rfl rfl) rfl
  tagged := by decide
  reads := by decide +kernel

end

/-- The parts of a workbook with a row that declares again what is in scope. -/
def declaringParts : List (String × Document) :=
  [("_rels/.rels", rootDocument), ("book.xml", bookDocument), ("_rels/book.xml.rels", linksDocument),
    ("texts.xml", textsDocument), ("one.xml", declaringDocument), ("two.xml", twoDocument)]

def declaring : Workbook :=
  { book with
    package := .ofEntries (containerOf declaringParts)
    document := bookDocument.root
    relationships := linksDocument.root }

/-- The sheet with that row. -/
def declaringSheet : Sheet := ⟨⟨1, "One", "one.xml", some "a"⟩, declaringDocument.root, []⟩

def declaringOne : Workbook := { declaring with opened := [declaringSheet] }

theorem declaring_distinct : (declaringParts.map (·.1)).Nodup := by decide

theorem load_declaring : Workbook.load (containerOf declaringParts) = .ok declaring :=
  loaded_book declaring_distinct ⟨_, rfl⟩

theorem open_declaring : declaring.openSheet (.name "One") = .ok (declaringSheet, declaringOne) :=
  openSheet_containerOf declaring_distinct rfl rfl rfl (by simp [declaringParts]) (by decide +kernel)

/-- A sheet with a row of a given number and without cells. -/
def rowSheet (number : Nat) : Sheet where
  info := ⟨1, "Data", "sheet1.xml", none⟩
  root := Expand.plainElement "worksheet" []
    [Expand.plainElement "sheetData" [] [Expand.plainElement "row" [("r", toString (number : Int))] []]]
  tables := []

/-- A row whose number has too many digits cannot be filled. -/
theorem substitute_rowSheet {number : Nat} (h : Text.integerBound ≤ number) (data : Bindings) :
    ((openedBook (rowSheet number) []).substitute (.name "Data") data).2.toBool = false := by
  generalize hsub : (openedBook (rowSheet number) []).substitute (.name "Data") data = r
  obtain ⟨w', _ | stats⟩ := r
  · rfl
  exfalso
  obtain ⟨filled, sheet', by_⟩ :=
    Workbook.exists_filledBy (.ofTexts []) (openSheet_openedBook (rowSheet number) []) hsub
  have first : (rowSheet number).rows[0]? = some (Expand.plainElement "row" [("r", toString (number : Int))] []) := rfl
  obtain ⟨_, before, m, _, _, _, _, reached⟩ := Expand.exists_rowReached (Pool.sound_of_built (.ofTexts [])) by_.run first
  have own : currentNumber (Expand.plainElement "row" [("r", toString (number : Int))] []) before = .ok m :=
    reached.step.number_eq
  have written : (Expand.plainElement "row" [("r", toString (number : Int))] []).attributeOr "r" "" =
      toString (number : Int) := rfl
  have digits : (toString (number : Int)).toList = Text.decimal number := Text.toList_toString_ofNat number
  unfold currentNumber at own
  rw [written] at own
  simp only at own
  split at own
  · next empty =>
    rw [empty] at digits
    exact Text.decimal_ne_nil number digits.symm
  · obtain ⟨k, hk, -⟩ := bind_eq_ok_iff.mp own
    have read := parseInteger_eq_ok_iff.mp hk
    rw [digits] at read
    exact absurd (Text.eq_of_readInteger_decimal read).2 (Nat.not_lt.mpr h)

/-- The root of a document with a text whose entry is written with a prefix, though none is needed there. -/
def prefixedRoot : Element :=
  let short : Markup.Binding := ⟨none, Vocabulary.main⟩
  let long : Markup.Binding := ⟨some "x", Vocabulary.main⟩
  let item : Element := { Expand.plainElement "si" [] [Expand.plainElement "t" [] []] with name := ⟨some long, "si"⟩ }
  { Expand.plainElement "sst" [] [item] with bindings := [short, long] }

/-- The workbook with that document. -/
def prefixedBook : Workbook :=
  { openedBook one [] with stringsRoot := prefixedRoot, pool := .ofRoot prefixedRoot }

/-- The bindings that the entries of a pool are written with. -/
def spaces (p : Pool) : List (Option (Option Markup.Binding)) := p.entries.map fun e => e.markup.map (·.name.space)

theorem spaces_congr {p q : Pool} (h : p.entries.map (·.markup) = q.entries.map (·.markup)) : spaces p = spaces q := by
  have own := congrArg (List.map (Option.map fun m : Element => m.name.space)) h
  rwa [List.map_map, List.map_map] at own

theorem canonical_declaring : declaringSheet.Canonical := canonical_of_checks rfl (by decide +kernel) (by decide +kernel)

end Small

/-- Without values the two placeholders of the small sheet are left, and the sheet is as it was. -/
theorem Workbook.substitute_unresolved_one : ∃ w' sheet',
    Small.book.substitute (.name "One") (.ofValues []) = (w', .ok ⟨0, 0, 0, 2⟩) ∧
      w'.openSheet (.name "One") = .ok (sheet', w') ∧ sheet' = Small.one ∧ w'.document = Small.book.document ∧ w'.pool = Small.book.pool := by
  have unbound (p : Placeholder) : p.Unresolved (.ofValues []) := fun v hv => by cases hv
  have size : Small.book.pool.size < Text.integerBound := by
    have two : Small.book.pool.size = 2 := by decide +kernel
    rw [two]
    exact (Text.decimal_length_le_iff 2).mp (by decide)
  obtain ⟨w', sheet', goes, opened, -, -, kept, document, -, pool, -⟩ := substitute_unresolved (.load Small.load_entries)
    Small.open_one size Small.canonical_one (fun _ _ _ _ p _ => unbound p) fun _ _ _ _ p _ => unbound p
  have count : placeholderCount Small.book.pool Small.one = 2 := by decide +kernel
  rw [count] at goes
  exact ⟨w', sheet', goes, opened, kept (by decide +kernel), document, pool (by decide +kernel)⟩

/-- A row that declares again what is in scope loses the declaration, an entry of the pool loses a prefix that it does not
need, and a row whose number has too many digits cannot be filled at all. -/
theorem Workbook.unresolved_changes_declarations :
    (Workbook.load (Small.containerOf Small.declaringParts) = .ok Small.declaring ∧
      Small.declaring.openSheet (.name "One") = .ok (Small.declaringSheet, Small.declaringOne) ∧
      Small.declaringSheet.Canonical ∧ (∀ p : Placeholder, p.Unresolved (.ofValues [])) ∧
      ∃ w' stats sheet', Small.declaring.substitute (.name "One") (.ofValues []) = (w', .ok stats) ∧
        w'.openSheet (.name "One") = .ok (sheet', w') ∧ sheet'.root ≠ Small.declaringSheet.root) ∧
    (Small.prefixedBook.openSheet (.name "One") = .ok (Small.one, Small.prefixedBook) ∧ Small.one.Canonical ∧
      ∃ w' stats, Small.prefixedBook.substitute (.name "One") (.ofValues []) = (w', .ok stats) ∧
        w'.pool.entries.map (·.markup) ≠ Small.prefixedBook.pool.entries.map (·.markup)) ∧
    ∃ row, (Small.rowSheet Text.integerBound).rows = [row] ∧
      row.Writes "r" (toString (Text.integerBound : Int)) ∧ row.content = [] ∧
      ((Small.openedBook (Small.rowSheet Text.integerBound) []).substitute (.name "Data")
        (.ofValues [])).2.toBool = false := by
  have unbound (p : Placeholder) : p.Unresolved (.ofValues []) := fun v hv => by cases hv
  have live := Live.load Small.load_declaring
  have still : Still Small.declaringOne.pool Small.declaringSheet (.ofValues []) :=
    ⟨fun _ _ => textResolves_of_unresolved fun _ _ p _ => unbound p,
      fun _ _ _ _ => Header.stays_of_still (textResolves_of_unresolved fun _ _ p _ => unbound p)⟩
  have goes : (Small.declaringOne.substitute (.name "One") (.ofValues [])).2.toBool = true := by decide +kernel
  obtain ⟨stats, hsub⟩ := exists_substitute Small.open_declaring goes
  obtain ⟨sheet, ready, o, h⟩ := substitute_cases live.sound hsub
  obtain ⟨rfl, rfl⟩ : Small.declaringSheet = sheet ∧ Small.declaringOne = ready :=
    Prod.mk.inj (Except.ok.inj (Small.open_declaring.symm.trans h.open_eq))
  obtain rfl := Except.ok.inj ((fillSheet_of_still Small.canonical_declaring still).symm.trans h.fill_eq)
  have opened : Small.prefixedBook.openSheet (.name "One") = .ok (Small.one, Small.prefixedBook) :=
    bind_eq_ok_iff.mpr ⟨Small.one.info, rfl, rfl⟩
  have goes' : (Small.prefixedBook.substitute (.name "One") (.ofValues [])).2.toBool = true := by decide +kernel
  obtain ⟨stats', hsub'⟩ := exists_substitute opened goes'
  refine ⟨⟨Small.load_declaring, Small.open_declaring, Small.canonical_declaring, unbound, _, stats, _, hsub,
    h.openSheet_eq live.sound, fun same => ?_⟩, ⟨opened, Small.canonical_one, _, stats', hsub', fun same => ?_⟩,
    _, rfl, ⟨.bare "r", List.find?_cons_of_pos (by decide)⟩, rfl, Small.substitute_rowSheet (Nat.le_refl _) _⟩
  · have before : (Small.declaringSheet.root.descendants [Vocabulary.sheetData, Vocabulary.worksheetRow]).map
        (·.bindings.length) = [1] := by decide +kernel
    have after : (Small.declaringSheet.back.root.descendants [Vocabulary.sheetData, Vocabulary.worksheetRow]).map
        (·.bindings.length) = [0] := by decide +kernel
    have same : Small.declaringSheet.back.root = Small.declaringSheet.root := same
    rw [same, before] at after
    cases after
  · have differ : Small.spaces (Small.prefixedBook.substitute (.name "One") (.ofValues [])).1.pool ≠
        Small.spaces Small.prefixedBook.pool := by decide +kernel
    exact differ (Small.spaces_congr same)

end Gridfill

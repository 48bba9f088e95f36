import Gridfill.Proofs.Markup.Encoding
import Gridfill.Proofs.Outcome
import Gridfill.Proofs.Pool.Soundness
import Gridfill.Workbook.Basic

/-!
# Workbooks and their opened sheets

What is known of a workbook that was loaded, what opening a sheet changes, and what a sheet changes that is
put in the place of an opened one. At the end stands a small workbook, with the container that it is loaded
from.
-/

namespace Gridfill

open Archive (Entry)
open Markup (Document ofList_append)

namespace Workbook

/-- The pool of a workbook that was loaded came about by reading. -/
theorem built_of_load {entries : List Archive.Entry} {w : Workbook} (h : load entries = .ok w) :
    w.pool.Built := by
  obtain ⟨root, -, h⟩ := bind_eq_ok_iff.mp h
  simp only at h
  split at h
  · cases h
  · obtain ⟨document, -, h⟩ := bind_eq_ok_iff.mp h
    obtain ⟨relationships, -, h⟩ := bind_eq_ok_iff.mp h
    split at h
    · cases h
    · obtain ⟨stringsRoot, -, h⟩ := bind_eq_ok_iff.mp h
      obtain ⟨sheets, -, h⟩ := bind_eq_ok_iff.mp h
      rw [← Except.ok.inj h]
      exact .ofRoot stringsRoot

/-! ### Opened sheets -/

section
variable {w w' : Workbook} {key : SheetKey} {sheet : Sheet}

/-- Opening a sheet gives the sheet opened before, or reads it and keeps it behind the others. -/
theorem openSheet_cases (h : w.openSheet key = .ok (sheet, w')) :
    (∃ info, w.findInfo key = .ok info ∧ info.path = sheet.info.path) ∧
    ((w' = w ∧ w.openedAt? sheet.info.path = some sheet) ∨
      (w' = { w with opened := w.opened ++ [sheet] } ∧ w.openedAt? sheet.info.path = none ∧
        w.package.readDocument sheet.info.path = .ok sheet.root)) := by
  obtain ⟨info, hinfo, h⟩ := bind_eq_ok_iff.mp h
  split at h
  · next s hs =>
    injection Except.ok.inj h with h1 h2
    subst h1 h2
    have path : s.info.path = info.path := by simpa using List.find?_some hs
    exact ⟨⟨info, hinfo, path.symm⟩, Or.inl ⟨rfl, by rw [path]; exact hs⟩⟩
  · next hn =>
    obtain ⟨s, hs, h⟩ := bind_eq_ok_iff.mp h
    injection Except.ok.inj h with h1 h2
    subst h1 h2
    obtain ⟨root, hroot, hs⟩ := bind_eq_ok_iff.mp hs
    obtain ⟨tables, -, hs⟩ := bind_eq_ok_iff.mp hs
    rw [← Except.ok.inj hs]
    exact ⟨⟨info, hinfo, rfl⟩, Or.inr ⟨rfl, hn, hroot⟩⟩

/-- A sheet that was opened is found again. -/
theorem openSheet_of_openedAt? {info : SheetInfo} (hinfo : w.findInfo key = .ok info)
    (h : w.openedAt? info.path = some sheet) : w.openSheet key = .ok (sheet, w) := by
  refine bind_eq_ok_iff.mpr ⟨info, hinfo, ?_⟩
  rw [h]
  rfl

theorem mem_opened_of_openSheet (h : w.openSheet key = .ok (sheet, w')) : sheet ∈ w'.opened := by
  rcases (openSheet_cases h).2 with ⟨rfl, hs⟩ | ⟨rfl, -⟩
  · exact List.mem_of_find?_eq_some hs
  · exact List.mem_append_right _ (List.mem_singleton_self sheet)

theorem openedAt?_of_openSheet (h : w.openSheet key = .ok (sheet, w')) :
    w'.openedAt? sheet.info.path = some sheet := by
  rcases (openSheet_cases h).2 with ⟨rfl, hs⟩ | ⟨rfl, hn, -⟩
  · exact hs
  · show (w.opened ++ [sheet]).find? _ = _
    rw [List.find?_append, show w.opened.find? _ = none from hn, Option.none_or]
    exact List.find?_cons_of_pos (by simp)

/-- Opening a sheet changes nothing but the list of opened sheets. -/
theorem eq_of_openSheet (h : w.openSheet key = .ok (sheet, w')) :
    w' = { w with opened := w'.opened } := by
  rcases (openSheet_cases h).2 with ⟨rfl, -⟩ | ⟨rfl, -⟩
  · rfl
  · rfl

/-- Opening a sheet again changes nothing. -/
theorem openSheet_again (h : w.openSheet key = .ok (sheet, w')) : w'.openSheet key = .ok (sheet, w') := by
  obtain ⟨⟨info, hinfo, path⟩, -⟩ := openSheet_cases h
  have same : w'.findInfo key = w.findInfo key := by
    rw [eq_of_openSheet h]
    rfl
  exact openSheet_of_openedAt? (same.trans hinfo) (path ▸ openedAt?_of_openSheet h)

/-- An opened sheet is either the one that was put, or one of another part that was there. -/
theorem mem_putSheet {s : Sheet} (h : s ∈ (w.putSheet sheet).opened) :
    s = sheet ∨ s ∈ w.opened ∧ s.info.path ≠ sheet.info.path := by
  obtain ⟨r, hr, hs⟩ := List.mem_map.mp h
  split at hs
  · exact Or.inl hs.symm
  · next hne =>
    subst hs
    exact Or.inr ⟨hr, hne⟩

/-- The sheet that is put is the opened sheet of its part, and those of other parts stay. -/
theorem openedAt?_putSheet (w : Workbook) (sheet : Sheet) (path : String) :
    (w.putSheet sheet).openedAt? path =
      (w.openedAt? path).map fun s => if s.info.path = sheet.info.path then sheet else s := by
  have keeps (s : Sheet) :
      (if s.info.path = sheet.info.path then sheet else s).info.path = s.info.path := by
    split
    · next e => exact e.symm
    · rfl
  show (w.opened.map _).find? _ = (w.opened.find? _).map _
  rw [List.find?_map]
  simp only [Function.comp_def, keeps]

end

end Workbook

/-! ### A small workbook -/

theorem Package.readDocument_of_find? {p : Package} {name : String} {d : Document}
    (h : p.find? name = some d.text.toUTF8) : p.readDocument name = .ok d.root := by
  rw [Package.readDocument, Package.read, h]
  show readXml _ _ = _
  rw [readXml, d.readBytes?_eq]

namespace Small

section
set_option maxRecDepth 8000

def rootDocument : Document where
  text := "<Relationships xmlns=\"http://schemas.openxmlformats.org/package/2006/relationships\"><Relationship " ++
    "Type=\"http://schemas.openxmlformats.org/officeDocument/2006/relationships/officeDocument\" " ++
    "Target=\"book.xml\"/></Relationships>"
  chars := _
  text_eq := ofList_append (ofList_append rfl rfl) rfl
  tagged := by decide
  reads := by decide +kernel

def bookDocument : Document where
  text := "<workbook xmlns=\"http://schemas.openxmlformats.org/spreadsheetml/2006/main\" " ++
    "xmlns:r=\"http://schemas.openxmlformats.org/officeDocument/2006/relationships\"><sheets>" ++
    "<sheet name=\"One\" sheetId=\"1\" r:id=\"a\"/><sheet name=\"Two\" sheetId=\"2\" r:id=\"b\"/></sheets></workbook>"
  chars := _
  text_eq := ofList_append (ofList_append rfl rfl) rfl
  tagged := by decide
  reads := by decide +kernel

def linksDocument : Document where
  text := "<Relationships xmlns=\"http://schemas.openxmlformats.org/package/2006/relationships\"><Relationship " ++
    "Type=\"http://schemas.openxmlformats.org/officeDocument/2006/relationships/sharedStrings\" " ++
    "Target=\"texts.xml\"/><Relationship Id=\"a\" Target=\"one.xml\"/><Relationship Id=\"b\" " ++
    "Target=\"two.xml\"/></Relationships>"
  chars := _
  text_eq := ofList_append (ofList_append (ofList_append rfl rfl) rfl) rfl
  tagged := by decide
  reads := by decide +kernel

def textsDocument : Document where
  text := "<sst xmlns=\"http://schemas.openxmlformats.org/spreadsheetml/2006/main\"><si><t>${x}</t></si>" ++
    "<si><t>a ${x}</t></si></sst>"
  chars := _
  text_eq := ofList_append rfl rfl
  tagged := by decide
  reads := by decide +kernel

def oneDocument : Document where
  text := "<worksheet xmlns=\"http://schemas.openxmlformats.org/spreadsheetml/2006/main\"><sheetData><row r=\"1\">" ++
    "<c r=\"A1\" t=\"s\"><v>0</v></c><c r=\"B1\" t=\"s\"><v>1</v></c></row></sheetData></worksheet>"
  chars := _
  text_eq := ofList_append rfl rfl
  tagged := by decide
  reads := by decide +kernel

def twoDocument : Document where
  text := "<worksheet xmlns=\"http://schemas.openxmlformats.org/spreadsheetml/2006/main\"><sheetData><row r=\"1\">" ++
    "<c r=\"A1\" t=\"s\"><v>0</v></c><c r=\"B1\" t=\"s\"><v>2</v></c></row></sheetData></worksheet>"
  chars := _
  text_eq := ofList_append rfl rfl
  tagged := by decide
  reads := by decide +kernel

end

/-- The parts of the small workbook: two sheets that show a placeholder at one place of the pool. -/
def parts : List (String × Document) :=
  [("_rels/.rels", rootDocument), ("book.xml", bookDocument), ("_rels/book.xml.rels", linksDocument),
    ("texts.xml", textsDocument), ("one.xml", oneDocument), ("two.xml", twoDocument)]

/-- The container of the small workbook. -/
def entries : List Entry := parts.map fun p => ⟨p.1, .stored, p.2.text.toUTF8⟩

/-- The small workbook. -/
def book : Workbook where
  package := .ofEntries entries
  path := "book.xml"
  document := bookDocument.root
  relationshipsPath := "_rels/book.xml.rels"
  relationships := linksDocument.root
  stringsPath := "texts.xml"
  stringsRoot := textsDocument.root
  calcChain := none
  sheets := [⟨1, "One", "one.xml", some "a"⟩, ⟨2, "Two", "two.xml", some "b"⟩]
  opened := []
  pool := .ofRoot textsDocument.root

/-- Its sheets. -/
def one : Sheet := ⟨⟨1, "One", "one.xml", some "a"⟩, oneDocument.root, []⟩

def two : Sheet := ⟨⟨2, "Two", "two.xml", some "b"⟩, twoDocument.root, []⟩

theorem read_part {name : String} {d : Document} (i : Nat) (hi : parts[i]? = some (name, d)) :
    book.package.readDocument name = .ok d.root := by
  have h := List.mem_of_getElem? hi
  apply Package.readDocument_of_find?
  simp only [parts, List.mem_cons, Prod.mk.injEq, List.not_mem_nil, or_false] at h
  rcases h with ⟨rfl, rfl⟩ | ⟨rfl, rfl⟩ | ⟨rfl, rfl⟩ | ⟨rfl, rfl⟩ | ⟨rfl, rfl⟩ | ⟨rfl, rfl⟩
  all_goals simp [book, Package.find?, Package.ofEntries, entries, parts, Listing.put, List.lookup_cons]

/-- The relationships of the package lead to the workbook's document, which lists two sheets. -/
theorem target_rootDocument : ((findRelationship rootDocument.root Vocabulary.documentType).bind
    (·.attribute? "Target")).getD "" = "book.xml" := by decide +kernel

theorem sheets_bookDocument : (bookDocument.root.descendants [Vocabulary.sheets, Vocabulary.sheet]).mapM
    (Workbook.sheetInfo "" linksDocument.root) = .ok book.sheets :=
  toOption_eq_some_iff.mp (by decide +kernel)

/-- Its relationships lead to the texts, and to no order of calculation. -/
theorem strings_linksDocument : (findRelationship linksDocument.root Vocabulary.sharedStringsType).map (fun r =>
    PartName.resolve "" (r.attributeOr "Target" "")) = some "texts.xml" := by decide +kernel

theorem chain_linksDocument : findRelationship linksDocument.root Vocabulary.calcChainType = none :=
  Option.isNone_iff_eq_none.mp (by decide +kernel)

/-- The container is loaded as the small workbook. -/
theorem load_entries : Workbook.load entries = .ok book := by
  have path : PartName.resolve "" "book.xml" = "book.xml" := by decide
  have links : PartName.relationships "book.xml" = "_rels/book.xml.rels" := by decide
  have directory : PartName.directory "book.xml" = "" := by decide
  obtain ⟨texts, htexts, stringsPath⟩ := Option.map_eq_some_iff.mp strings_linksDocument
  refine bind_eq_ok_iff.mpr ⟨rootDocument.root, read_part 0 rfl, ?_⟩
  simp only [target_rootDocument, path, links, directory]
  rw [if_neg (by decide)]
  refine bind_eq_ok_iff.mpr ⟨bookDocument.root, read_part 1 rfl, ?_⟩
  refine bind_eq_ok_iff.mpr ⟨linksDocument.root, read_part 2 rfl, ?_⟩
  simp only [htexts, stringsPath, chain_linksDocument]
  refine bind_eq_ok_iff.mpr ⟨textsDocument.root, read_part 3 rfl, ?_⟩
  exact bind_eq_ok_iff.mpr ⟨book.sheets, sheets_bookDocument, rfl⟩

/-- A sheet without tables is opened as the document of its part. -/
theorem load_sheet {info : SheetInfo} {d : Document} (i : Nat) (hi : parts[i]? = some (info.path, d))
    (tables : d.root.descendants [Vocabulary.tableParts, Vocabulary.tablePart] = []) :
    Sheet.load book.package info = .ok ⟨info, d.root, []⟩ := by
  refine bind_eq_ok_iff.mpr ⟨d.root, read_part i hi, ?_⟩
  rw [Sheet.openTables, tables]
  rfl

theorem load_one : Sheet.load book.package one.info = .ok one := by
  refine load_sheet 4 rfl ?_
  rw [← List.isEmpty_iff]
  decide +kernel

theorem load_two : Sheet.load book.package two.info = .ok two := by
  refine load_sheet 5 rfl ?_
  rw [← List.isEmpty_iff]
  decide +kernel

/-- The small workbook with one of its sheets opened. -/
def bookOne : Workbook := { book with opened := [one] }

def bookTwo : Workbook := { book with opened := [two] }

theorem open_one : book.openSheet (.name "One") = .ok (one, bookOne) := by
  refine bind_eq_ok_iff.mpr ⟨one.info, rfl, ?_⟩
  show (Sheet.load book.package one.info >>= fun sheet => _) = _
  rw [load_one]
  rfl

theorem open_two : book.openSheet (.name "Two") = .ok (two, bookTwo) := by
  refine bind_eq_ok_iff.mpr ⟨two.info, rfl, ?_⟩
  show (Sheet.load book.package two.info >>= fun sheet => _) = _
  rw [load_two]
  rfl

end Small
end Gridfill

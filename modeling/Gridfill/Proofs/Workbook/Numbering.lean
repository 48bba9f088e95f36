import Gridfill.Proofs.Workbook.Run

/-!
# Containers that do not load

Loading goes from the relationships of a package to its document, to the relationships of that and to the texts, and
then takes the entries in the list of sheets (`Linked`). What is missing or cannot be read on the way fails as a fault
of the container, and so does a sheet without a target. Only the number of a sheet fails on its own: when it does not
read as an integer, that failure is what loading fails with (`load_fails`).
-/

namespace Gridfill

open Archive (Entry)
open Markup (Element)

/-- A document that cannot be had fails as a fault of the container. -/
theorem Package.load_of_readDocument {p : Package} {name : String} {f : Failure}
    (h : p.readDocument name = .error f) : ∃ fault, f = .load fault := by
  rcases bind_eq_error_iff.mp h with h | ⟨bytes, -, h⟩
  · rw [read] at h
    split at h
    · cases h
    · exact ⟨_, (Except.error.inj h).symm⟩
  · rw [readXml] at h
    split at h
    · cases h
    · exact ⟨_, (Except.error.inj h).symm⟩

theorem parseInteger_eq_error_iff {text : String} {f : Failure} : parseInteger text = .error f ↔
    ∃ fault, Text.readInteger text.toList = .error fault ∧ f = .integer text fault := by
  rw [parseInteger]
  cases Text.readInteger text.toList with
  | ok n => exact ⟨fun h => (by cases h), fun ⟨_, h, _⟩ => by cases h⟩
  | error fault =>
      constructor
      · exact fun h => ⟨fault, rfl, (Except.error.inj h).symm⟩
      · rintro ⟨_, h, rfl⟩
        cases h
        rfl

namespace Workbook

/-! ### Up to the list of sheets -/

/-- The documents that loading has read when it comes to the list of sheets. -/
structure Linked (p : Package) (path : String) (document relationships : Element) : Prop where
  path_eq : ∃ root, p.readDocument Vocabulary.rootRelationshipsPart = .ok root ∧ documentTarget root ≠ "" ∧
    path = PartName.resolve "" (documentTarget root)
  document_eq : p.readDocument path = .ok document
  relationships_eq : p.readDocument (PartName.relationships path) = .ok relationships
  strings : ∃ r root, findRelationship relationships Vocabulary.sharedStringsType = some r ∧
    p.readDocument (PartName.resolve (PartName.directory path) (r.attributeOr "Target" "")) = .ok root

/-- A package that does not load has a fault, or the entries in its list of sheets cannot be taken. -/
theorem ofPackage_error_cases {p : Package} {f : Failure} (h : ofPackage p = .error f) :
    (∃ fault, f = .load fault) ∨ ∃ path document relationships, Linked p path document relationships ∧
      (document.descendants [Vocabulary.sheets, Vocabulary.sheet]).mapM
        (sheetInfo (PartName.directory path) relationships) = .error f := by
  rcases bind_eq_error_iff.mp h with h | ⟨root, hroot, h⟩
  · exact .inl (Package.load_of_readDocument h)
  simp only at h
  split at h
  · exact .inl ⟨_, (Except.error.inj h).symm⟩
  · next target =>
    rcases bind_eq_error_iff.mp h with h | ⟨document, hdocument, h⟩
    · exact .inl (Package.load_of_readDocument h)
    rcases bind_eq_error_iff.mp h with h | ⟨relationships, hrelationships, h⟩
    · exact .inl (Package.load_of_readDocument h)
    split at h
    · exact .inl ⟨_, (Except.error.inj h).symm⟩
    · next strings hstrings =>
      rcases bind_eq_error_iff.mp h with h | ⟨texts, htexts, h⟩
      · exact .inl (Package.load_of_readDocument h)
      rcases bind_eq_error_iff.mp h with h | ⟨_, -, h⟩
      · exact .inr ⟨_, document, relationships, ⟨⟨root, hroot, target, rfl⟩, hdocument, hrelationships,
          strings, texts, hstrings, htexts⟩, h⟩
      · cases h

/-- When the entries in the list of sheets cannot be taken, the package does not load. -/
theorem Linked.ofPackage_eq_error {p : Package} {path : String} {document relationships : Element} {f : Failure}
    (h : Linked p path document relationships)
    (fails : (document.descendants [Vocabulary.sheets, Vocabulary.sheet]).mapM
      (sheetInfo (PartName.directory path) relationships) = .error f) : ofPackage p = .error f := by
  obtain ⟨⟨root, hroot, target, rfl⟩, hdocument, hrelationships, r, texts, hr, htexts⟩ := h
  have same : ((findRelationship root Vocabulary.documentType).bind (·.attribute? "Target")).getD "" =
      documentTarget root := rfl
  refine bind_eq_error_iff.mpr (.inr ⟨root, hroot, ?_⟩)
  simp only [same]
  rw [if_neg target]
  refine bind_eq_error_iff.mpr (.inr ⟨document, hdocument, ?_⟩)
  refine bind_eq_error_iff.mpr (.inr ⟨relationships, hrelationships, ?_⟩)
  simp only [hr]
  exact bind_eq_error_iff.mpr (.inr ⟨texts, htexts, bind_eq_error_iff.mpr (.inl fails)⟩)

/-! ### The list of sheets -/

/-- The target of an entry in the list of sheets. -/
def sheetTarget (relationships entry : Element) : String :=
  (targetOf relationships (entry.get? Vocabulary.relationshipId)).getD ""

/-- The number of an entry in the list of sheets, as it is written. -/
def sheetNumber (entry : Element) : String := entry.attributeOr "sheetId" "0"

section
variable {directory : String} {relationships entry : Element}

theorem sheetInfo_of_target_eq (h : sheetTarget relationships entry = "") :
    sheetInfo directory relationships entry =
      .error (.load (.sheetWithoutTarget (entry.attribute? "name") (entry.get? Vocabulary.relationshipId))) :=
  if_pos h

theorem sheetInfo_of_target_ne (h : sheetTarget relationships entry ≠ "") :
    sheetInfo directory relationships entry = parseInteger (sheetNumber entry) >>= fun id =>
      .ok ⟨id, entry.attributeOr "name" "", PartName.resolve directory (sheetTarget relationships entry),
        entry.get? Vocabulary.relationshipId⟩ :=
  if_neg h

theorem exists_sheetInfo_iff :
    (∃ info, sheetInfo directory relationships entry = .ok info) ↔
      sheetTarget relationships entry ≠ "" ∧ ∃ n, Text.readInteger (sheetNumber entry).toList = .ok n := by
  by_cases target : sheetTarget relationships entry = ""
  · rw [sheetInfo_of_target_eq target]
    exact ⟨fun ⟨_, h⟩ => (by cases h), fun h => absurd target h.1⟩
  · rw [sheetInfo_of_target_ne target]
    constructor
    · rintro ⟨info, h⟩
      obtain ⟨n, hn, -⟩ := bind_eq_ok_iff.mp h
      exact ⟨target, n, parseInteger_eq_ok_iff.mp hn⟩
    · rintro ⟨-, n, hn⟩
      exact ⟨_, bind_eq_ok_iff.mpr ⟨n, parseInteger_eq_ok_iff.mpr hn, rfl⟩⟩

theorem sheetInfo_eq_error_iff {f : Failure} :
    sheetInfo directory relationships entry = .error f ↔
      (sheetTarget relationships entry = "" ∧
        f = .load (.sheetWithoutTarget (entry.attribute? "name") (entry.get? Vocabulary.relationshipId))) ∨
      sheetTarget relationships entry ≠ "" ∧ ∃ fault,
        Text.readInteger (sheetNumber entry).toList = .error fault ∧ f = .integer (sheetNumber entry) fault := by
  by_cases target : sheetTarget relationships entry = ""
  · rw [sheetInfo_of_target_eq target]
    constructor
    · exact fun h => .inl ⟨target, (Except.error.inj h).symm⟩
    · rintro (⟨-, rfl⟩ | ⟨ne, -⟩)
      · rfl
      · exact absurd target ne
  · rw [sheetInfo_of_target_ne target, bind_eq_error_iff, parseInteger_eq_error_iff]
    constructor
    · rintro (⟨fault, unread, rfl⟩ | ⟨_, -, h⟩)
      · exact .inr ⟨target, fault, unread, rfl⟩
      · cases h
    · rintro (⟨eq, -⟩ | ⟨-, fault, unread, rfl⟩)
      · exact absurd eq target
      · exact .inl ⟨fault, unread, rfl⟩

end

/-- The first entry in the list of sheets that cannot be taken has a target, and its number does not read as an
integer. -/
def Misnumbered (p : Package) (number : String) (fault : Text.IntegerFault) : Prop :=
  ∃ path document relationships before entry after, Linked p path document relationships ∧
    document.descendants [Vocabulary.sheets, Vocabulary.sheet] = before ++ entry :: after ∧
    (∀ e ∈ before, sheetTarget relationships e ≠ "" ∧ ∃ n, Text.readInteger (sheetNumber e).toList = .ok n) ∧
    sheetTarget relationships entry ≠ "" ∧ sheetNumber entry = number ∧
    Text.readInteger number.toList = .error fault

/-- A container fails to load as the number of one of its sheets, which does not read as an integer; when there is no
such number, it loads or fails as a fault of the container. -/
theorem load_fails (entries : List Entry) :
    (∀ number fault, load entries = .error (.integer number fault) ↔ Misnumbered (.ofEntries entries) number fault) ∧
      ((∀ number fault, ¬ Misnumbered (.ofEntries entries) number fault) →
        (∃ w, load entries = .ok w) ∨ ∃ fault, load entries = .error (.load fault)) := by
  have fails : ∀ f, load entries = .error f → (∃ fault, f = .load fault) ∨
      ∃ number fault, f = .integer number fault ∧ Misnumbered (.ofEntries entries) number fault := by
    intro f h
    rcases ofPackage_error_cases h with loads | ⟨path, document, relationships, linked, h⟩
    · exact .inl loads
    · obtain ⟨before, entry, after, split, taken, h⟩ := mapM_eq_error_iff.mp h
      rcases sheetInfo_eq_error_iff.mp h with ⟨-, rfl⟩ | ⟨target, fault, unread, rfl⟩
      · exact .inl ⟨_, rfl⟩
      · exact .inr ⟨_, fault, rfl, path, document, relationships, before, entry, after, linked, split,
          fun e he => exists_sheetInfo_iff.mp (taken e he), target, rfl, unread⟩
  refine ⟨fun number fault => ⟨fun h => ?_, fun h => ?_⟩, fun none => ?_⟩
  · rcases fails _ h with ⟨_, eq⟩ | ⟨_, _, eq, misnumbered⟩
    · cases eq
    · cases eq
      exact misnumbered
  · obtain ⟨path, document, relationships, before, entry, after, linked, split, taken, target, rfl, unread⟩ := h
    refine linked.ofPackage_eq_error (mapM_eq_error_iff.mpr ⟨before, entry, after, split, ?_, ?_⟩)
    · exact fun e he => exists_sheetInfo_iff.mpr (taken e he)
    · exact sheetInfo_eq_error_iff.mpr (.inr ⟨target, fault, unread, rfl⟩)
  · cases h : load entries with
    | ok w => exact .inl ⟨w, rfl⟩
    | error f =>
        rcases fails f h with ⟨fault, rfl⟩ | ⟨number, fault, rfl, misnumbered⟩
        · exact .inr ⟨fault, rfl⟩
        · exact absurd misnumbered (none number fault)

end Workbook

/-! ### A sheet without a number -/

namespace Small

open Markup (Document ofList_append)

section
set_option maxRecDepth 8000

def numberlessDocument : Document where
  text := "<workbook xmlns=\"http://schemas.openxmlformats.org/spreadsheetml/2006/main\" " ++
    "xmlns:r=\"http://schemas.openxmlformats.org/officeDocument/2006/relationships\"><sheets>" ++
    "<sheet name=\"One\" sheetId=\"1\" r:id=\"a\"/><sheet name=\"Two\" sheetId=\"x\" r:id=\"b\"/></sheets></workbook>"
  chars := _
  text_eq := ofList_append (ofList_append rfl rfl) rfl
  tagged := by decide
  reads := by decide +kernel

end

/-- The parts of a workbook with a sheet whose number is no integer. -/
def numberlessParts : List (String × Document) :=
  [("_rels/.rels", rootDocument), ("book.xml", numberlessDocument), ("_rels/book.xml.rels", linksDocument),
    ("texts.xml", textsDocument), ("one.xml", oneDocument), ("two.xml", twoDocument)]

theorem linked_numberlessParts : Workbook.Linked (.ofEntries (containerOf numberlessParts)) "book.xml"
    numberlessDocument.root linksDocument.root := by
  have distinct : (numberlessParts.map (·.1)).Nodup := by decide
  have target : Workbook.documentTarget rootDocument.root = "book.xml" := target_rootDocument
  have path : PartName.resolve "" "book.xml" = "book.xml" := by decide
  have links : PartName.relationships "book.xml" = "_rels/book.xml.rels" := by decide
  have directory : PartName.directory "book.xml" = "" := by decide
  obtain ⟨texts, htexts, place⟩ := Option.map_eq_some_iff.mp strings_linksDocument
  refine ⟨⟨rootDocument.root, ?_, ?_, ?_⟩, ?_, ?_, texts, textsDocument.root, htexts, ?_⟩
  · exact readDocument_containerOf distinct List.mem_cons_self
  · rw [target]
    decide
  · rw [target, path]
  · exact readDocument_containerOf distinct (by simp [numberlessParts])
  · rw [links]
    exact readDocument_containerOf distinct (by simp [numberlessParts])
  · rw [directory, place]
    exact readDocument_containerOf distinct (by simp [numberlessParts])

end Small

/-- A container whose second sheet has the number `x` fails to load as this number, and one with numbers has no such
sheet. -/
theorem Workbook.load_fails_small :
    Misnumbered (.ofEntries (Small.containerOf Small.numberlessParts)) "x" .malformed ∧
      load (Small.containerOf Small.numberlessParts) = .error (.integer "x" .malformed) ∧
      (∀ number fault, ¬ Misnumbered (.ofEntries Small.entries) number fault) ∧
      ((∃ w, load Small.entries = .ok w) ∨ ∃ fault, load Small.entries = .error (.load fault)) := by
  have listed : (Small.numberlessDocument.root.descendants [Vocabulary.sheets, Vocabulary.sheet]).map (fun e =>
      (sheetTarget Small.linksDocument.root e, sheetNumber e)) = [("one.xml", "1"), ("two.xml", "x")] := by
    decide +kernel
  obtain ⟨first, rest, split, hfirst, hrest⟩ := List.map_eq_cons_iff.mp listed
  obtain ⟨second, rest, rfl, hsecond, hrest⟩ := List.map_eq_cons_iff.mp hrest
  obtain rfl := List.map_eq_nil_iff.mp hrest
  obtain ⟨firstTarget, firstNumber⟩ := Prod.mk.inj hfirst
  obtain ⟨secondTarget, secondNumber⟩ := Prod.mk.inj hsecond
  have misnumbered : Misnumbered (.ofEntries (Small.containerOf Small.numberlessParts)) "x" .malformed := by
    refine ⟨"book.xml", _, _, [first], second, [], Small.linked_numberlessParts, split, fun e he => ?_, ?_,
      secondNumber, rfl⟩
    · obtain rfl := List.mem_singleton.mp he
      rw [firstTarget, firstNumber]
      exact ⟨by decide, 1, rfl⟩
    · rw [secondTarget]
      decide
  have numbered : ∀ number fault, ¬ Misnumbered (.ofEntries Small.entries) number fault := by
    intro number fault h
    have fails := ((load_fails Small.entries).1 number fault).mpr h
    rw [Small.load_entries] at fails
    cases fails
  exact ⟨misnumbered, ((load_fails _).1 _ _).mpr misnumbered, numbered, (load_fails _).2 numbered⟩

end Gridfill

import Gridfill.Proofs.Package.Writing
import Gridfill.Proofs.Workbook.Filled

/-!
# Runs of substitutions

What a substitution that goes through does to a workbook, stage by stage (`Stages`): the sheet is opened and
filled, the order of calculation is dropped if cells have moved (`Drops`), and the documents of the sheet, the
workbook and the pool are written. A run is any sequence of openings and of substitutions that go through, and
remembers the sheets that were filled (`Run`).
-/

namespace Gridfill

open Markup (Element)

/-- Did the pass move cells? -/
def Expand.Stats.moved (s : Expand.Stats) : Bool := s.rowsInserted ≠ 0 || s.columnsInserted ≠ 0

/-- The package with documents written, one after the other. -/
def Package.writeDocuments (p : Package) (documents : List (String × Element)) : Package :=
  documents.foldl (fun p d => p.writeDocument d.1 d.2) p

/-- The names of the parts that a sheet was read from. -/
def Sheet.parts (s : Sheet) : List String := s.info.path :: s.tables.map (·.path)

namespace Workbook

/-- The documents that are written after a sheet was filled, `strings` being that of the pool. -/
def documents (w : Workbook) (sheet : Sheet) (strings : Element) : List (String × Element) :=
  (sheet.info.path, sheet.root) :: (w.path, w.document) :: (w.stringsPath, strings) ::
    sheet.tables.map fun t => (t.path, t.root)

/-! ### The stages of a substitution -/

/-- How the content type of a part goes. -/
inductive DropsOverride (p : Package) (part : String) : Package → Prop where
  | absent (h : p.has Vocabulary.contentTypesPart = false) : DropsOverride p part p
  | present {types : Element} (h : p.readDocument Vocabulary.contentTypesPart = .ok types) :
      DropsOverride p part (p.writeDocument Vocabulary.contentTypesPart (withoutOverride types part))

/-- How the order of calculation goes, `moved` being whether cells have moved. -/
inductive Drops (w : Workbook) (moved : Bool) : Workbook → Prop where
  | kept (h : moved = true → ∀ part, w.calcChain = some part → part = "") : Drops w moved w
  | dropped {part : String} {package : Package} (moves : moved = true) (chain : w.calcChain = some part)
      (named : part ≠ "")
      (override : DropsOverride ((w.package.remove part).writeDocument w.relationshipsPath
        (withoutCalcChain w.relationships)) part package) :
      Drops w moved
        { w with package := package, relationships := withoutCalcChain w.relationships, calcChain := none }

/-- What a substitution that goes through has done: the sheet that was opened, the outcome of filling it, the
workbook without the order of calculation, the document of the pool and the workbook at the end. -/
structure Stages (w : Workbook) (key : SheetKey) (data : Bindings) (sheet : Sheet) (ready : Workbook)
    (o : Outcome) (dropped : Workbook) (strings : Element) (w' : Workbook) : Prop where
  open_eq : w.openSheet key = .ok (sheet, ready)
  fill_eq : ready.fillSheet sheet data = .ok o
  drops : Drops (ready.putOutcome o) o.stats.moved dropped
  strings_eq : dropped.pool.writeTo dropped.stringsRoot = .ok (strings, dropped.pool.movedTo dropped.stringsRoot)
  eq : w' = { dropped with
    package := dropped.package.writeDocuments (dropped.documents o.sheet strings)
    stringsRoot := strings
    pool := dropped.pool.movedTo dropped.stringsRoot }

theorem drops_of_dropCalcChain {w w' : Workbook} (h : w.dropCalcChain = (w', .ok ())) : Drops w true w' := by
  unfold dropCalcChain at h
  split at h
  · next hn =>
    obtain rfl := (Prod.mk.inj h).1
    exact .kept fun _ part hc => by rw [hn] at hc; cases hc
  · next part hpart =>
    split at h
    · next he =>
      obtain rfl := (Prod.mk.inj h).1
      exact .kept fun _ other ho => Option.some.inj (ho.symm.trans hpart) ▸ he
    · next hne =>
      simp only at h
      split at h
      · split at h
        · cases h
        · next types htypes =>
          obtain rfl := (Prod.mk.inj h).1
          exact .dropped rfl hpart hne (.present htypes)
      · next hn =>
        obtain rfl := (Prod.mk.inj h).1
        exact .dropped rfl hpart hne (.absent (Bool.eq_false_iff.mpr hn))

theorem flush_cases {w w' : Workbook} {sheet : Sheet} (h : w.flush sheet = (w', .ok ())) :
    ∃ strings, w.pool.writeTo w.stringsRoot = .ok (strings, w.pool.movedTo w.stringsRoot) ∧
      w' = { w with
        package := w.package.writeDocuments (w.documents sheet strings)
        stringsRoot := strings
        pool := w.pool.movedTo w.stringsRoot } := by
  unfold flush at h
  simp only at h
  split at h
  · cases h
  · next strings moved hstrings =>
    obtain rfl := (Pool.writeTo_cases hstrings).1
    refine ⟨strings, hstrings, (Prod.mk.inj h).1.symm.trans ?_⟩
    simp only [Package.writeDocuments, documents, List.foldl_cons, List.foldl_map]

/-- A substitution that goes through has gone through each of its stages. -/
theorem exists_stages {w w' : Workbook} {key : SheetKey} {data : Bindings} {stats : Expand.Stats}
    (h : w.substitute key data = (w', .ok stats)) :
    ∃ sheet ready o dropped strings, Stages w key data sheet ready o dropped strings w' ∧ stats = o.stats := by
  unfold substitute at h
  split at h
  · cases h
  · next sheet ready hopen =>
    split at h
    · cases h
    · next o hfill =>
      simp only at h
      split at h
      · cases h
      · next dropped hdropped =>
        split at h
        · cases h
        · next written hwritten =>
          injection h with hw hstats
          obtain rfl := Except.ok.inj hstats
          subst hw
          obtain ⟨strings, hstrings, rfl⟩ := flush_cases hwritten
          refine ⟨sheet, ready, o, dropped, strings, ⟨hopen, hfill, ?_, hstrings, rfl⟩, rfl⟩
          split at hdropped
          · next moved =>
            have : o.stats.moved = true := moved
            rw [this]
            exact drops_of_dropCalcChain hdropped
          · next still =>
            obtain rfl := (Prod.mk.inj hdropped).1
            exact .kept fun moved => absurd moved still

theorem Drops.dropCalcChain_eq {w w' : Workbook} {moved : Bool} (h : Drops w moved w') :
    (if moved then w.dropCalcChain else (w, .ok ())) = (w', .ok ()) := by
  cases h with
  | kept h =>
      cases moved with
      | false => rfl
      | true =>
          rw [if_pos rfl, dropCalcChain]
          split
          · rfl
          · next part hpart => rw [if_pos (h rfl part hpart)]
  | dropped moves chain named override =>
      rw [if_pos moves, dropCalcChain, chain]
      simp only
      rw [if_neg named]
      cases override with
      | absent h => rw [if_neg (by rw [h]; exact Bool.false_ne_true)]
      | present h =>
          rw [if_pos (Package.has_of_readDocument h), h]

/-- A substitution goes through when each of its stages does. -/
theorem Stages.substitute_eq {w w' ready dropped : Workbook} {key : SheetKey} {data : Bindings} {sheet : Sheet}
    {o : Outcome} {strings : Element} (h : Stages w key data sheet ready o dropped strings w') :
    w.substitute key data = (w', .ok o.stats) := by
  have flushed : dropped.flush o.sheet = (w', .ok ()) := by
    rw [flush, h.strings_eq, h.eq]
    simp only [Package.writeDocuments, documents, List.foldl_cons, List.foldl_map]
  have chain := h.drops.dropCalcChain_eq
  unfold Expand.Stats.moved at chain
  rw [substitute, h.open_eq]
  simp only [h.fill_eq]
  rw [chain]
  simp only [flushed]

/-- A substitution that moves cells goes through when the content types read and the pool can be written. -/
theorem exists_stages_of_moved {w ready : Workbook} {key : SheetKey} {data : Bindings} {sheet : Sheet} {o : Outcome}
    {part : String} {types strings : Element} (hopen : w.openSheet key = .ok (sheet, ready))
    (hfill : ready.fillSheet sheet data = .ok o) (moved : o.stats.moved = true)
    (chain : ready.calcChain = some part) (named : part ≠ "")
    (htypes : ready.package.readDocument Vocabulary.contentTypesPart = .ok types)
    (other : Vocabulary.contentTypesPart ∉ [part, ready.relationshipsPath])
    (hstrings : o.pool.writeTo ready.stringsRoot = .ok (strings, o.pool.movedTo ready.stringsRoot)) :
    ∃ dropped w', Stages w key data sheet ready o dropped strings w' := by
  have unchained : Package.AgreeOutside [part, ready.relationshipsPath] ready.package
      ((ready.package.remove part).writeDocument ready.relationshipsPath (withoutCalcChain ready.relationships)) :=
    ((Package.AgreeOutside.refl _ _).remove List.mem_cons_self).writeDocument (by simp) _
  have there := (unchained.readDocument other).trans htypes
  have drops : Drops (ready.putOutcome o) o.stats.moved _ := .dropped moved chain named (.present there)
  exact ⟨_, _, hopen, hfill, drops, hstrings, rfl⟩

/-- Dropping the order of calculation leaves everything but the package, the relationships and the order. -/
theorem Drops.eq_with {w w' : Workbook} {moved : Bool} (h : Drops w moved w') :
    w' = { w with package := w'.package, relationships := w'.relationships, calcChain := w'.calcChain } := by
  cases h <;> rfl

/-- The filled sheet stands in the place of the one that was opened. -/
theorem Stages.openedAt?_eq {w w' ready dropped : Workbook} {key : SheetKey} {data : Bindings} {sheet : Sheet}
    {o : Outcome} {strings : Element} (h : Stages w key data sheet ready o dropped strings w') (path : String) :
    w'.openedAt? path = (ready.putSheet o.sheet).openedAt? path := by
  rw [h.eq, h.drops.eq_with]
  rfl

/-- The parts that a substitution writes. -/
theorem names_documents {w w' ready dropped : Workbook} {key : SheetKey} {data : Bindings} {sheet : Sheet}
    {o : Outcome} {strings : Element} (h : Stages w key data sheet ready o dropped strings w')
    (info : o.sheet.info = sheet.info) (paths : o.sheet.tables.map (·.path) = sheet.tables.map (·.path)) :
    (dropped.documents o.sheet strings).map (·.1) =
      sheet.info.path :: w.path :: w.stringsPath :: sheet.tables.map (·.path) := by
  have same := h.drops.eq_with
  have opened := eq_of_openSheet h.open_eq
  have path : dropped.path = w.path := by
    rw [same]
    show ready.path = _
    rw [opened]
  have stringsPath : dropped.stringsPath = w.stringsPath := by
    rw [same]
    show ready.stringsPath = _
    rw [opened]
  simp only [documents, List.map_cons, List.map_map, info, path, stringsPath, ← paths]
  rfl

/-! ### Opening -/

theorem mem_sheets_of_findInfo {w : Workbook} {key : SheetKey} {info : SheetInfo} (h : w.findInfo key = .ok info) :
    info ∈ w.sheets := by
  unfold findInfo at h
  split at h
  · next found =>
    obtain rfl := Except.ok.inj h
    exact List.mem_of_find?_eq_some found
  · split at h
    · split at h
      · obtain ⟨id, -, h⟩ := bind_eq_ok_iff.mp h
        split at h
        · next found =>
          obtain rfl := Except.ok.inj h
          exact List.mem_of_find?_eq_some found
        · cases h
      · cases h
    · cases h

/-- A sheet that is asked for was opened before, or it is read from the package. -/
theorem opened_or_load_of_openSheet {w w' : Workbook} {key : SheetKey} {sheet : Sheet}
    (h : w.openSheet key = .ok (sheet, w')) :
    (sheet ∈ w.opened ∧ w' = w) ∨
      (sheet.info ∈ w.sheets ∧ w.openedAt? sheet.info.path = none ∧ Sheet.load w.package sheet.info = .ok sheet ∧
        w' = { w with opened := w.opened ++ [sheet] }) := by
  obtain ⟨info, hinfo, h⟩ := bind_eq_ok_iff.mp h
  split at h
  · next s hs =>
    injection Except.ok.inj h with h1 h2
    subst h1 h2
    exact .inl ⟨List.mem_of_find?_eq_some hs, rfl⟩
  · next hn =>
    obtain ⟨s, hs, h⟩ := bind_eq_ok_iff.mp h
    injection Except.ok.inj h with h1 h2
    subst h1 h2
    have own : s.info = info := by
      obtain ⟨root, -, hs⟩ := bind_eq_ok_iff.mp hs
      obtain ⟨tables, -, hs⟩ := bind_eq_ok_iff.mp hs
      rw [← Except.ok.inj hs]
    rw [own]
    exact .inr ⟨mem_sheets_of_findInfo hinfo, hn, hs, rfl⟩

/-! ### Runs -/

/-- A substitution that went through: the sheet that it filled, as it was before, and its report. -/
structure Filling where
  sheet : Sheet
  stats : Expand.Stats

/-- The workbooks that come about from one by opening sheets and by substitutions that go through, with the
substitutions in their order. -/
inductive Run (w₀ : Workbook) : List Filling → Workbook → Prop where
  | start : Run w₀ [] w₀
  | openSheet {fs : List Filling} {w w' : Workbook} {key : SheetKey} {sheet : Sheet} (run : Run w₀ fs w)
      (h : w.openSheet key = .ok (sheet, w')) : Run w₀ fs w'
  | substitute {fs : List Filling} {w w' ready : Workbook} {key : SheetKey} {data : Bindings}
      {stats : Expand.Stats} {sheet : Sheet} (run : Run w₀ fs w) (hopen : w.openSheet key = .ok (sheet, ready))
      (h : w.substitute key data = (w', .ok stats)) : Run w₀ (fs ++ [⟨sheet, stats⟩]) w'

theorem Run.live {w₀ w : Workbook} {fs : List Filling} (h : Run w₀ fs w) (h₀ : w₀.Live) : w.Live := by
  induction h with
  | start => exact h₀
  | openSheet _ h ih => exact ih.openSheet h
  | substitute _ _ h ih => exact ih.substitute h

/-! ### Loading -/

/-- The target of the relationship from a package to its document, as its relationships have it. -/
def documentTarget (root : Element) : String :=
  ((findRelationship root Vocabulary.documentType).bind (·.attribute? "Target")).getD ""

/-- What a workbook that was loaded from a package is made of. -/
structure Loaded (p : Package) (w : Workbook) : Prop where
  package : w.package = p
  path : ∃ root, p.readDocument Vocabulary.rootRelationshipsPart = .ok root ∧ documentTarget root ≠ "" ∧
    w.path = PartName.resolve "" (documentTarget root)
  document : p.readDocument w.path = .ok w.document
  relationshipsPath : w.relationshipsPath = PartName.relationships w.path
  relationships : p.readDocument w.relationshipsPath = .ok w.relationships
  stringsPath : ∃ r, findRelationship w.relationships Vocabulary.sharedStringsType = some r ∧
    w.stringsPath = PartName.resolve w.directory (r.attributeOr "Target" "")
  stringsRoot : p.readDocument w.stringsPath = .ok w.stringsRoot
  calcChain : w.calcChain = (findRelationship w.relationships Vocabulary.calcChainType).map fun r =>
    PartName.resolve w.directory (r.attributeOr "Target" "")
  sheets : (w.document.descendants [Vocabulary.sheets, Vocabulary.sheet]).mapM
    (sheetInfo w.directory w.relationships) = .ok w.sheets
  opened : w.opened = []
  pool : w.pool = .ofRoot w.stringsRoot

theorem ofPackage_eq_ok_iff {p : Package} {w : Workbook} : ofPackage p = .ok w ↔ Loaded p w := by
  constructor
  · intro h
    obtain ⟨root, hroot, h⟩ := bind_eq_ok_iff.mp h
    simp only at h
    split at h
    · cases h
    · next hne =>
      obtain ⟨document, hdocument, h⟩ := bind_eq_ok_iff.mp h
      obtain ⟨relationships, hrelationships, h⟩ := bind_eq_ok_iff.mp h
      split at h
      · cases h
      · next strings hstrings =>
        obtain ⟨stringsRoot, hroot', h⟩ := bind_eq_ok_iff.mp h
        obtain ⟨sheets, hsheets, h⟩ := bind_eq_ok_iff.mp h
        obtain rfl := Except.ok.inj h
        exact ⟨rfl, ⟨root, hroot, hne, rfl⟩, hdocument, rfl, hrelationships, ⟨strings, hstrings, rfl⟩, hroot',
          rfl, hsheets, rfl, rfl⟩
  · rintro ⟨rfl, ⟨root, hroot, hne, hpath⟩, hdocument, hlinks, hrelationships, ⟨strings, hstrings, hplace⟩, hroot',
      hchain, hsheets, hopened, hpool⟩
    refine bind_eq_ok_iff.mpr ⟨root, hroot, ?_⟩
    have target : ((findRelationship root Vocabulary.documentType).bind (·.attribute? "Target")).getD "" =
        documentTarget root := rfl
    simp only [target]
    rw [if_neg hne, ← hpath]
    refine bind_eq_ok_iff.mpr ⟨w.document, hdocument, ?_⟩
    rw [← hlinks]
    refine bind_eq_ok_iff.mpr ⟨w.relationships, hrelationships, ?_⟩
    simp only [hstrings]
    rw [show PartName.directory w.path = w.directory from rfl, ← hplace]
    refine bind_eq_ok_iff.mpr ⟨w.stringsRoot, hroot', bind_eq_ok_iff.mpr ⟨w.sheets, hsheets, ?_⟩⟩
    rw [← hchain, ← hopened, ← hpool]
    rfl

end Workbook

/-! ### Small workbooks with an order of calculation -/

namespace Small

open Archive (Entry)
open Markup (Document ofList_append)

/-- The container with documents as its parts. -/
def containerOf (parts : List (String × Document)) : List Entry :=
  parts.map fun p => ⟨p.1, .stored, p.2.text.toUTF8⟩

theorem names_containerOf (parts : List (String × Document)) :
    (containerOf parts).map (·.name) = parts.map (·.1) := by
  rw [containerOf, List.map_map]
  rfl

theorem readDocument_containerOf {parts : List (String × Document)} (distinct : (parts.map (·.1)).Nodup)
    {name : String} {d : Document} (h : (name, d) ∈ parts) :
    (Package.ofEntries (containerOf parts)).readDocument name = .ok d.root := by
  have entry : (⟨name, .stored, d.text.toUTF8⟩ : Entry) ∈ containerOf parts := List.mem_map.mpr ⟨_, h, rfl⟩
  exact Package.readDocument_of_find? (Package.find?_ofEntries_of_mem (names_containerOf parts ▸ distinct) entry)

section
set_option maxRecDepth 8000

def typesDocument : Document where
  text := "<Types xmlns=\"http://schemas.openxmlformats.org/package/2006/content-types\">" ++
    "<Override PartName=\"/chain.xml\"/></Types>"
  chars := _
  text_eq := ofList_append rfl rfl
  tagged := by decide
  reads := by decide +kernel

def chainDocument : Document where
  text := "<calcChain/>"
  chars := _
  text_eq := rfl
  tagged := by decide
  reads := by decide +kernel

def chainedLinks : Document where
  text := "<Relationships xmlns=\"http://schemas.openxmlformats.org/package/2006/relationships\"><Relationship " ++
    "Type=\"http://schemas.openxmlformats.org/officeDocument/2006/relationships/sharedStrings\" " ++
    "Target=\"texts.xml\"/><Relationship Id=\"a\" Target=\"one.xml\"/><Relationship Id=\"b\" " ++
    "Target=\"two.xml\"/><Relationship " ++
    "Type=\"http://schemas.openxmlformats.org/officeDocument/2006/relationships/calcChain\" " ++
    "Target=\"chain.xml\"/></Relationships>"
  chars := _
  text_eq := ofList_append (ofList_append (ofList_append (ofList_append (ofList_append rfl rfl) rfl) rfl) rfl) rfl
  tagged := by decide
  reads := by decide +kernel

def hollowLinks : Document where
  text := "<Relationships xmlns=\"http://schemas.openxmlformats.org/package/2006/relationships\"><Relationship " ++
    "Type=\"http://schemas.openxmlformats.org/officeDocument/2006/relationships/sharedStrings\" " ++
    "Target=\"/\"/><Relationship Id=\"a\" Target=\"one.xml\"/><Relationship Id=\"b\" " ++
    "Target=\"two.xml\"/></Relationships>"
  chars := _
  text_eq := ofList_append (ofList_append (ofList_append rfl rfl) rfl) rfl
  tagged := by decide
  reads := by decide +kernel

end

/-- The parts of a workbook with an order of calculation. -/
def chainedParts : List (String × Document) :=
  [("[Content_Types].xml", typesDocument), ("_rels/.rels", rootDocument), ("book.xml", bookDocument),
    ("_rels/book.xml.rels", chainedLinks), ("texts.xml", textsDocument), ("one.xml", oneDocument),
    ("two.xml", twoDocument), ("chain.xml", chainDocument)]

/-- The parts of a workbook that has its texts in a part without a name. -/
def hollowParts : List (String × Document) :=
  [("_rels/.rels", rootDocument), ("book.xml", bookDocument), ("_rels/book.xml.rels", hollowLinks),
    ("", textsDocument), ("one.xml", oneDocument), ("two.xml", twoDocument)]

/-- The workbook with an order of calculation. -/
def chained : Workbook :=
  { book with
    package := .ofEntries (containerOf chainedParts)
    document := bookDocument.root
    relationships := chainedLinks.root
    calcChain := some "chain.xml" }

/-- The workbook with its texts in a part without a name. -/
def hollow : Workbook :=
  { book with
    package := .ofEntries (containerOf hollowParts)
    document := bookDocument.root
    relationships := hollowLinks.root
    stringsPath := "" }

/-- A container of documents is loaded when its documents are found and say so. -/
theorem loaded_containerOf {parts : List (String × Document)} (book links : Document) (stringsPath : String)
    (distinct : (parts.map (·.1)).Nodup) (hroot : ("_rels/.rels", rootDocument) ∈ parts)
    (hbook : ("book.xml", book) ∈ parts) (hlinks : ("_rels/book.xml.rels", links) ∈ parts)
    (htexts : (stringsPath, textsDocument) ∈ parts)
    (strings : (findRelationship links.root Vocabulary.sharedStringsType).map (fun r =>
      PartName.resolve "" (r.attributeOr "Target" "")) = some stringsPath) {sheets : List SheetInfo}
    (hsheets : ((book.root.descendants [Vocabulary.sheets, Vocabulary.sheet]).mapM
      (Workbook.sheetInfo "" links.root)).toOption = some sheets) {chain : Option String}
    (hchain : (findRelationship links.root Vocabulary.calcChainType).map (fun r =>
      PartName.resolve "" (r.attributeOr "Target" "")) = chain) :
    Workbook.load (containerOf parts) = .ok
      { Small.book with
        package := .ofEntries (containerOf parts), document := book.root, relationships := links.root
        stringsPath := stringsPath, calcChain := chain, sheets := sheets } := by
  have target : Workbook.documentTarget rootDocument.root = "book.xml" := target_rootDocument
  have path : PartName.resolve "" "book.xml" = "book.xml" := by decide
  have relationships : PartName.relationships "book.xml" = "_rels/book.xml.rels" := by decide
  have directory : PartName.directory "book.xml" = "" := by decide
  obtain ⟨texts, htexts', place⟩ := Option.map_eq_some_iff.mp strings
  have root := readDocument_containerOf distinct hroot
  have document := readDocument_containerOf distinct hbook
  have linked := readDocument_containerOf distinct hlinks
  have pool := readDocument_containerOf distinct htexts
  refine Workbook.ofPackage_eq_ok_iff.mpr ⟨rfl, ⟨rootDocument.root, root, ?_, ?_⟩, document, relationships.symm,
    linked, ⟨texts, htexts', ?_⟩, pool, ?_, ?_, rfl, rfl⟩
  · rw [target]
    decide
  · rw [target, path]
    rfl
  · show stringsPath = PartName.resolve (PartName.directory "book.xml") _
    rw [directory, place]
  · show chain = Option.map (fun r => PartName.resolve (PartName.directory "book.xml") _) _
    rw [directory, hchain]
  · show List.mapM (Workbook.sheetInfo (PartName.directory "book.xml") links.root) _ = .ok sheets
    rw [directory]
    exact toOption_eq_some_iff.mp hsheets

/-- A container with the documents of the small workbook is loaded as this workbook, whatever its sheets are. -/
theorem loaded_book {parts : List (String × Document)} (distinct : (parts.map (·.1)).Nodup)
    (common : [("_rels/.rels", rootDocument), ("book.xml", bookDocument), ("_rels/book.xml.rels", linksDocument),
      ("texts.xml", textsDocument)] <+: parts) :
    Workbook.load (containerOf parts) = .ok
      { book with
        package := .ofEntries (containerOf parts), document := bookDocument.root,
        relationships := linksDocument.root } :=
  loaded_containerOf bookDocument linksDocument "texts.xml" distinct (common.subset (by simp))
    (common.subset (by simp)) (common.subset (by simp)) (common.subset (by simp)) strings_linksDocument
    (toOption_eq_some_iff.mpr sheets_bookDocument) (by rw [chain_linksDocument]; rfl)

theorem chained_distinct : (chainedParts.map (·.1)).Nodup := by decide

theorem hollow_distinct : (hollowParts.map (·.1)).Nodup := by decide

theorem load_chained : Workbook.load (containerOf chainedParts) = .ok chained :=
  loaded_containerOf bookDocument chainedLinks "texts.xml" chained_distinct (by simp [chainedParts])
    (by simp [chainedParts]) (by simp [chainedParts]) (by simp [chainedParts]) (by decide +kernel)
    (by decide +kernel) (by decide +kernel)

theorem load_hollow : Workbook.load (containerOf hollowParts) = .ok hollow :=
  loaded_containerOf bookDocument hollowLinks "" hollow_distinct (by simp [hollowParts]) (by simp [hollowParts])
    (by simp [hollowParts]) (by simp [hollowParts]) (by decide +kernel) (by decide +kernel) (by decide +kernel)

/-- A sheet without tables is read as the document of its part. -/
theorem load_containerOf {parts : List (String × Document)} (distinct : (parts.map (·.1)).Nodup) {info : SheetInfo}
    {d : Document} (hd : (info.path, d) ∈ parts)
    (tables : (d.root.descendants [Vocabulary.tableParts, Vocabulary.tablePart]).isEmpty = true) :
    Sheet.load (.ofEntries (containerOf parts)) info = .ok ⟨info, d.root, []⟩ := by
  refine bind_eq_ok_iff.mpr ⟨d.root, readDocument_containerOf distinct hd, ?_⟩
  rw [Sheet.openTables, List.isEmpty_iff.mp tables]
  rfl

theorem openSheet_containerOf {parts : List (String × Document)} (distinct : (parts.map (·.1)).Nodup)
    {w : Workbook} {key : SheetKey} {info : SheetInfo} {d : Document}
    (package : w.package = .ofEntries (containerOf parts)) (closed : w.openedAt? info.path = none)
    (found : w.findInfo key = .ok info) (hd : (info.path, d) ∈ parts)
    (tables : (d.root.descendants [Vocabulary.tableParts, Vocabulary.tablePart]).isEmpty = true) :
    w.openSheet key = .ok (⟨info, d.root, []⟩, { w with opened := w.opened ++ [⟨info, d.root, []⟩] }) := by
  refine bind_eq_ok_iff.mpr ⟨info, found, ?_⟩
  rw [closed]
  show (Sheet.load w.package info >>= fun sheet => _) = _
  rw [package, load_containerOf distinct hd tables]
  rfl

end Small

end Gridfill

import Gridfill.Proofs.Workbook.InStep

/-!
# Workbooks that are written and loaded again

After any run of substitutions the workbook that is loaded from the written container has the sheets and the texts
of the one in memory, and each of its sheets is read as the sheet that is held in memory, or that would be read
(`reload_after_run`). What is left to the reader of documents is that it reads again what was printed.
-/

namespace Gridfill

open Archive (Entry Method)
open Markup (Element ReadsAgain SameTree)

/-- What a sheet is read as depends on the contents of the parts alone. -/
theorem Sheet.load_congr {p q : Package} (h : ∀ name, q.find? name = p.find? name) (info : SheetInfo) :
    load q info = load p info := by
  have reads : q.readDocument = p.readDocument := by
    funext name
    rw [Package.readDocument, Package.read, h, Package.readDocument, Package.read]
  have tables : openTable q = openTable p := by
    funext path links entry
    simp only [openTable, reads]
  simp only [load, openTables, reads, tables]

namespace Workbook

/-- The live documents of a workbook with the names of their parts. -/
def liveDocuments (w : Workbook) : List (String × Element) :=
  (w.path, w.document) :: (w.relationshipsPath, w.relationships) :: (w.stringsPath, w.stringsRoot) ::
    w.opened.flatMap fun s => (s.info.path, s.root) :: s.tables.map fun t => (t.path, t.root)

/-- A sheet as it is in one workbook and as it is in another that was loaded from what the first has written. -/
structure SheetAgain (w w₁ : Workbook) (s s₁ : Sheet) : Prop where
  info : s₁.info = s.info
  root : SameTree s₁.root s.root
  tables : tableInfos s₁ = tableInfos s
  placeholders : sheetPlaceholders w₁.pool s₁ = sheetPlaceholders w.pool s

theorem findInfo_congr {w w₁ : Workbook} (h : w₁.sheets = w.sheets) (key : SheetKey) :
    w₁.findInfo key = w.findInfo key := by
  unfold findInfo
  rw [h]

theorem openSheet_of_error {w : Workbook} {key : SheetKey} {f : Failure} (h : w.findInfo key = .error f) :
    w.openSheet key = .error f := by
  rw [openSheet, h]
  rfl

/-- A sheet that was not opened is read. -/
theorem openSheet_of_none {w : Workbook} {key : SheetKey} {info : SheetInfo} (hinfo : w.findInfo key = .ok info)
    (h : w.openedAt? info.path = none) :
    w.openSheet key = (Sheet.load w.package info >>= fun s => .ok (s, { w with opened := w.opened ++ [s] })) := by
  simp only [openSheet, hinfo, bind, Except.bind, h]
  rfl

/-! ### The live documents after a substitution -/

section
variable {w w' ready dropped : Workbook} {key : SheetKey} {data : Bindings} {sheet : Sheet} {o : Outcome}
  {strings : Element}

theorem Stages.liveDocuments_eq (h : Stages w key data sheet ready o dropped strings w') :
    w'.liveDocuments = (ready.path, o.workbook) :: (ready.relationshipsPath, dropped.relationships) ::
      (ready.stringsPath, strings) :: (ready.putSheet o.sheet).opened.flatMap fun s =>
        (s.info.path, s.root) :: s.tables.map fun t => (t.path, t.root) := by
  rw [h.eq, h.drops.eq_with]
  rfl

/-- The document of the texts is written for the pool of the outcome. -/
theorem Stages.writeTo_eq (h : Stages w key data sheet ready o dropped strings w') :
    o.pool.writeTo ready.stringsRoot = .ok (strings, o.pool.movedTo ready.stringsRoot) := by
  have written := h.strings_eq
  rw [h.drops.eq_with] at written
  exact written

/-- Once cells have moved, the content types in the package are without the order of calculation. -/
theorem Stages.find?_contentTypes (h : Stages w key data sheet ready o dropped strings w')
    (moved : o.stats.moved = true) {part : String} {types : Element} (chain : ready.calcChain = some part)
    (named : part ≠ "") (reads : ready.package.readDocument Vocabulary.contentTypesPart = .ok types)
    (other : Vocabulary.contentTypesPart ∉ [part, ready.relationshipsPath])
    (free : Vocabulary.contentTypesPart ∉ (dropped.documents o.sheet strings).map (·.1)) :
    w'.package.find? Vocabulary.contentTypesPart = some (withoutOverride types part).toBytes := by
  have unchained : Package.AgreeOutside [part, ready.relationshipsPath] ready.package
      ((ready.package.remove part).writeDocument ready.relationshipsPath (withoutCalcChain ready.relationships)) :=
    ((Package.AgreeOutside.refl _ _).remove List.mem_cons_self).writeDocument (by simp) _
  have there := (unchained.readDocument other).trans reads
  have left : w'.package.find? Vocabulary.contentTypesPart = dropped.package.find? Vocabulary.contentTypesPart := by
    rw [h.eq]
    exact (Package.leaves_writeDocuments dropped.package free).find
  rw [left]
  cases h.drops with
  | kept still => exact absurd (still moved part chain) named
  | @dropped part' _ _ chain' _ override =>
      obtain rfl : part = part' := Option.some.inj (chain.symm.trans chain')
      cases override with
      | absent none => exact absurd ((Package.has_of_readDocument there).symm.trans none) (by decide)
      | present types' =>
          obtain rfl := Except.ok.inj (there.symm.trans types')
          exact Package.find?_write _ _ _

/-- Once cells have moved, the relationships to the order of calculation are gone. -/
theorem Stages.relationships_of_moved (h : Stages w key data sheet ready o dropped strings w')
    (moved : o.stats.moved = true) {part : String} (chain : ready.calcChain = some part) (named : part ≠ "") :
    dropped.relationships = withoutCalcChain ready.relationships := by
  cases h.drops with
  | kept still => exact absurd (still moved part chain) named
  | dropped => rfl

end

/-! ### Reading again -/

section
variable {w₀ w : Workbook}

/-- A live document that stands in its part is read again from any package with the same parts. -/
theorem exists_readDocument_of_holds {q : Package} (same : ∀ name, q.find? name = w.package.find? name)
    (reads : ∀ d ∈ w.liveDocuments, d.1 ∈ w.package.written → ReadsAgain d.2) {name : String} {root : Element}
    (hd : (name, root) ∈ w.liveDocuments) (held : w.package.Holds name root) :
    ∃ e, q.readDocument name = .ok e ∧ SameTree e root := by
  have still : q.readDocument name = w.package.readDocument name := by
    rw [Package.readDocument, Package.read, same, Package.readDocument, Package.read]
  rw [still]
  rcases held with held | ⟨written, held⟩
  · exact ⟨root, held, .refl root⟩
  · obtain ⟨e, he, tree⟩ := reads _ hd written
    exact ⟨e, (Package.readDocument_eq_ok_iff held).mpr he, tree⟩

/-- The package that was read from what a workbook in step has written makes a workbook again. -/
theorem InStep.exists_loaded (h : InStep w₀ w) (loaded : Loaded w₀.package w₀) {q : Package}
    (same : ∀ name, q.find? name = w.package.find? name)
    (reads : ∀ d ∈ w.liveDocuments, d.1 ∈ w.package.written → ReadsAgain d.2) :
    ∃ w₁, ofPackage q = .ok w₁ ∧ w₁.sheets = w.sheets ∧ w₁.pool.texts = w.pool.texts ∧ w₁.opened = [] ∧
      q = w₁.package := by
  have again {name : String} {root : Element} (hd : (name, root) ∈ w.liveDocuments)
      (held : w.package.Holds name root) := exists_readDocument_of_holds same reads hd held
  obtain ⟨document, hdocument, tree⟩ := again (by simp [liveDocuments]) (h.path.symm ▸ h.document)
  obtain ⟨links, hlinks, linksTree⟩ := again (by simp [liveDocuments]) (h.relationshipsPath.symm ▸ h.links)
  obtain ⟨strings, hstrings, stringsTree⟩ := again (by simp [liveDocuments]) (h.stringsPath.symm ▸ h.strings)
  rw [h.path] at hdocument
  rw [h.relationshipsPath] at hlinks
  rw [h.stringsPath] at hstrings
  have root : q.readDocument Vocabulary.rootRelationshipsPart =
      w₀.package.readDocument Vocabulary.rootRelationshipsPart := by
    have part := (same _).trans (h.linkParts Vocabulary.rootRelationshipsPart List.mem_cons_self)
    rw [Package.readDocument, Package.read, part, Package.readDocument, Package.read]
  have target : ∃ r, findRelationship links Vocabulary.sharedStringsType = some r ∧
      w₀.stringsPath = PartName.resolve w₀.directory (r.attributeOr "Target" "") := by
    obtain ⟨r, hr, place⟩ := loaded.stringsPath
    have held : findRelationship w.relationships Vocabulary.sharedStringsType = some r := by
      rcases h.chain with ⟨same, -⟩ | ⟨same, -⟩
      · rw [same, hr]
      · rw [same, findRelationship_withoutCalcChain _ (by decide), hr]
    have targets := map_findRelationship linksTree Vocabulary.sharedStringsType (·.attributeOr "Target" "")
      fun r => r.attributeOr_tidy "Target" ""
    rw [held] at targets
    obtain ⟨r', hr', target⟩ := Option.map_eq_some_iff.mp targets
    exact ⟨r', hr', by rw [place, target]⟩
  have listed : (document.descendants [Vocabulary.sheets, Vocabulary.sheet]).mapM
      (sheetInfo w₀.directory links) = .ok w.sheets := by
    rw [sheets_eq tree linksTree, h.listed, h.sheets]
  let w₁ : Workbook :=
    { package := q, path := w₀.path, document, relationshipsPath := w₀.relationshipsPath, relationships := links
      stringsPath := w₀.stringsPath, stringsRoot := strings
      calcChain := (findRelationship links Vocabulary.calcChainType).map fun r =>
        PartName.resolve w₀.directory (r.attributeOr "Target" "")
      sheets := w.sheets, opened := [], pool := .ofRoot strings }
  have path : ∃ r, q.readDocument Vocabulary.rootRelationshipsPart = .ok r ∧ documentTarget r ≠ "" ∧
      w₀.path = PartName.resolve "" (documentTarget r) := root ▸ loaded.path
  have made : Loaded q w₁ := ⟨rfl, path, hdocument, loaded.relationshipsPath, hlinks, target, hstrings, rfl, listed,
    rfl, rfl⟩
  exact ⟨w₁, ofPackage_eq_ok_iff.mpr made, rfl, (Pool.texts_ofRoot_eq stringsTree).trans h.texts, rfl, rfl⟩

/-- A sheet that is held in memory is read again as it is. -/
theorem InStep.exists_load_opened (h : InStep w₀ w) {q : Package} (same : ∀ name, q.find? name = w.package.find? name)
    (reads : ∀ d ∈ w.liveDocuments, d.1 ∈ w.package.written → ReadsAgain d.2) {s : Sheet} (hs : s ∈ w.opened) :
    ∃ s₁, Sheet.load q s.info = .ok s₁ ∧ s₁.tidy = s.tidy := by
  obtain ⟨-, -, backed⟩ := h.opened s hs
  refine backed.exists_load (fun name root held hd => ?_) ?_
  · refine exists_readDocument_of_holds same reads ?_ held
    have mem : (name, root) ∈ w.opened.flatMap fun s =>
        (s.info.path, s.root) :: s.tables.map fun t => (t.path, t.root) := List.mem_flatMap.mpr ⟨s, hs, hd⟩
    exact List.mem_cons_of_mem _ (List.mem_cons_of_mem _ (List.mem_cons_of_mem _ mem))
  · rw [Package.readDocument, Package.read, same, Package.readDocument, Package.read]

end

/-- A sheet that is the same but for empty texts is the same to all who ask. -/
theorem sheetAgain_of_tidy {w w₁ : Workbook} {s s₁ : Sheet} (texts : w₁.pool.texts = w.pool.texts)
    (h : s₁.tidy = s.tidy) : SheetAgain w w₁ s s₁ :=
  ⟨(Sheet.mk.inj h).1, (Sheet.mk.inj h).2.1, tableInfos_eq h, sheetPlaceholders_eq texts h⟩

/-- A workbook that has been loaded from the parts of one in step reads the sheets that the other has or reads, and
fails where the other does. -/
theorem InStep.openSheet_again {w₀ w w₁ : Workbook} (h : InStep w₀ w) (apart : PartsApart w₀)
    (same : ∀ name, w₁.package.find? name = w.package.find? name) (sheets : w₁.sheets = w.sheets)
    (texts : w₁.pool.texts = w.pool.texts) (opened : w₁.opened = [])
    (reads : ∀ d ∈ w.liveDocuments, d.1 ∈ w.package.written → ReadsAgain d.2) (key : SheetKey) :
    (∀ f, w.openSheet key = .error f → w₁.openSheet key = .error f) ∧
      ∀ s ready, w.openSheet key = .ok (s, ready) →
        ∃ s₁ ready₁, w₁.openSheet key = .ok (s₁, ready₁) ∧ SheetAgain w w₁ s s₁ := by
  have find := findInfo_congr sheets key
  cases hinfo : w.findInfo key with
  | error f =>
      have fails := openSheet_of_error hinfo
      have fails₁ := openSheet_of_error (find.trans hinfo)
      exact ⟨fun g hg => fails₁.trans (fails.symm.trans hg), fun s ready hs => by cases fails.symm.trans hs⟩
  | ok info =>
      have free : w₁.openedAt? info.path = none := by
        rw [openedAt?, opened]
        rfl
      have opens := openSheet_of_none (find.trans hinfo) free
      cases hopened : w.openedAt? info.path with
      | some s =>
          have goes := openSheet_of_openedAt? hinfo hopened
          have mem := List.mem_of_find?_eq_some hopened
          have path : s.info.path = info.path := by simpa using List.find?_some hopened
          have listed : info ∈ w₀.sheets := h.sheets ▸ mem_sheets_of_findInfo hinfo
          obtain rfl := apart.eq_of_path_eq (h.opened s mem).1 listed path
          obtain ⟨s₁, hs₁, tidied⟩ := h.exists_load_opened same reads mem
          refine ⟨fun f hf => (by cases goes.symm.trans hf), fun s' ready hs' => ?_⟩
          obtain ⟨rfl, rfl⟩ := Prod.mk.inj (Except.ok.inj (goes.symm.trans hs'))
          exact ⟨s₁, _, opens.trans (bind_eq_ok_iff.mpr ⟨s₁, hs₁, rfl⟩), sheetAgain_of_tidy texts tidied⟩
      | none =>
          have goes := openSheet_of_none hinfo hopened
          rw [← Sheet.load_congr same] at goes
          cases hload : Sheet.load w₁.package info with
          | error f =>
              rw [hload] at goes opens
              exact ⟨fun g hg => opens.trans (goes.symm.trans hg), fun s ready hs => by cases goes.symm.trans hs⟩
          | ok s₁ =>
              rw [hload] at goes opens
              refine ⟨fun f hf => (by cases goes.symm.trans hf), fun s ready hs => ?_⟩
              obtain ⟨rfl, rfl⟩ := Prod.mk.inj (Except.ok.inj (goes.symm.trans hs))
              exact ⟨s₁, _, opens, sheetAgain_of_tidy texts rfl⟩

end Workbook

/-! ### Small workbooks -/

namespace Small

open Markup (Document ofList_append)

section
set_option maxRecDepth 8000

def typedLinks : Document where
  text := "<Relationships xmlns=\"http://schemas.openxmlformats.org/package/2006/relationships\"><Relationship " ++
    "Type=\"http://schemas.openxmlformats.org/officeDocument/2006/relationships/sharedStrings\" " ++
    "Target=\"texts.xml\"/><Relationship Id=\"a\" Target=\"one.xml\"/><Relationship Id=\"b\" " ++
    "Target=\"[Content_Types].xml\"/><Relationship " ++
    "Type=\"http://schemas.openxmlformats.org/officeDocument/2006/relationships/calcChain\" " ++
    "Target=\"chain.xml\"/></Relationships>"
  chars := _
  text_eq := ofList_append (ofList_append (ofList_append (ofList_append (ofList_append rfl rfl) rfl) rfl) rfl) rfl
  tagged := by decide
  reads := by decide +kernel

end

/-- The parts of a workbook that has the content types as its second sheet. -/
def typedParts : List (String × Document) :=
  [("[Content_Types].xml", typesDocument), ("_rels/.rels", rootDocument), ("book.xml", bookDocument),
    ("_rels/book.xml.rels", typedLinks), ("texts.xml", textsDocument), ("one.xml", oneDocument),
    ("chain.xml", chainDocument)]

/-- The workbook with the content types as its second sheet. -/
def typed : Workbook :=
  { chained with
    package := .ofEntries (containerOf typedParts)
    document := bookDocument.root
    relationships := typedLinks.root
    sheets := [⟨1, "One", "one.xml", some "a"⟩, ⟨2, "Two", "[Content_Types].xml", some "b"⟩] }

theorem typed_distinct : (typedParts.map (·.1)).Nodup := by decide

theorem load_typed : Workbook.load (containerOf typedParts) = .ok typed :=
  loaded_containerOf bookDocument typedLinks "texts.xml" typed_distinct (by simp [typedParts]) (by simp [typedParts])
    (by simp [typedParts]) (by simp [typedParts]) (by decide +kernel) (by decide +kernel) (by decide +kernel)

/-- The parts of sheets are their own, when their documents list no tables. -/
theorem sheetParts_containerOf {parts : List (String × Document)} (distinct : (parts.map (·.1)).Nodup) {w : Workbook}
    (package : w.package = .ofEntries (containerOf parts))
    (plain : ∀ info ∈ w.sheets, ∃ p ∈ parts, p.1 = info.path ∧
      (p.2.root.descendants [Vocabulary.tableParts, Vocabulary.tablePart]).isEmpty = true) :
    w.sheetParts = w.sheets.map (·.path) := by
  rw [Workbook.sheetParts, package, List.map_eq_flatMap]
  refine List.flatMap_congr fun info hi => ?_
  obtain ⟨⟨path, d⟩, hd, e, tables⟩ := plain info hi
  exact (Sheet.backed_of_load (load_containerOf distinct (e ▸ hd) tables)).2.2.symm

theorem sheetParts_small : chained.sheetParts = ["one.xml", "two.xml"] ∧
    hollow.sheetParts = ["one.xml", "two.xml"] ∧ typed.sheetParts = ["one.xml", "[Content_Types].xml"] :=
  ⟨sheetParts_containerOf chained_distinct rfl (by decide +kernel),
    sheetParts_containerOf hollow_distinct rfl (by decide +kernel),
    sheetParts_containerOf typed_distinct rfl (by decide +kernel)⟩

theorem allParts_small : chained.allParts.Nodup ∧ hollow.allParts.Nodup ∧ typed.allParts.Nodup := by
  have targets : chained.chainTargets = ["chain.xml"] ∧ hollow.chainTargets = [] ∧
      typed.chainTargets = ["chain.xml"] := by decide +kernel
  obtain ⟨chainedSheets, hollowSheets, typedSheets⟩ := sheetParts_small
  simp only [Workbook.allParts, Workbook.documentParts, chainedSheets, hollowSheets, typedSheets, targets]
  decide

/-- One more part leaves the others apart. -/
theorem allParts_bookAnd {name : String} (new : name ∉ parts.map (·.1)) : (bookAnd name).allParts.Nodup := by
  have sheets : (bookAnd name).sheetParts = ["one.xml", "two.xml"] := by
    refine sheetParts_containerOf (partsAnd_distinct new) rfl fun info hinfo => ?_
    have plain : ∀ info ∈ book.sheets, ∃ p ∈ parts, p.1 = info.path ∧
        (p.2.root.descendants [Vocabulary.tableParts, Vocabulary.tablePart]).isEmpty = true := by decide +kernel
    obtain ⟨p, hp, listed⟩ := plain info hinfo
    exact ⟨p, List.mem_append_left _ hp, listed⟩
  have targets : (bookAnd name).chainTargets = [] := by
    show { book with document := bookDocument.root, relationships := linksDocument.root }.chainTargets = []
    decide +kernel
  simp only [Workbook.allParts, Workbook.documentParts, sheets, targets]
  show (book.path :: book.relationshipsPath :: book.stringsPath :: _ ++ book.linkParts ++ []).Nodup
  decide

/-- The sheet that the content types are. -/
def types : Sheet := ⟨⟨2, "Two", "[Content_Types].xml", some "b"⟩, typesDocument.root, []⟩

def typedTwo : Workbook := { typed with opened := [types] }

def typedBoth : Workbook := { typedTwo with opened := [types, one] }

theorem open_typed : typed.openSheet (.name "Two") = .ok (types, typedTwo) ∧
    typedTwo.openSheet (.name "One") = .ok (one, typedBoth) :=
  ⟨openSheet_containerOf typed_distinct rfl rfl rfl (by simp [typedParts]) (by decide +kernel),
    openSheet_containerOf typed_distinct rfl rfl rfl (by simp [typedParts]) (by decide +kernel)⟩

theorem exists_stages_typed : ∃ o dropped strings w', o.stats.moved = true ∧
    Workbook.Stages typedTwo (.name "One") texts one typedBoth o dropped strings w' :=
  exists_stages_of_texts typed_distinct List.mem_cons_self rfl
    (by simp only [typedBoth, typedTwo, typed, chainedOne, chained])
    (by simp only [typedBoth, typedTwo, typed, chainedOne]) (by simp only [typedBoth, typedTwo, typed, chainedOne])
    rfl rfl open_typed.2

/-- Without the order of calculation the content types are another tree, also when they are read again. -/
theorem not_sameTree_types {e : Markup.Element}
    (h : Markup.readBytes? (Workbook.withoutOverride typesDocument.root "chain.xml").toBytes = some e) :
    ¬ SameTree e typesDocument.root := by
  have reads : (Workbook.withoutOverride typesDocument.root "chain.xml").isReadAgain = true := by decide +kernel
  have fewer : ((Workbook.withoutOverride typesDocument.root "chain.xml").childrenWith
      Vocabulary.contentOverride).length ≠ (typesDocument.root.childrenWith Vocabulary.contentOverride).length := by
    decide +kernel
  obtain ⟨e', he', tree⟩ := Markup.readsAgain_of_isReadAgain reads
  obtain rfl := Option.some.inj (h.symm.trans he')
  intro same
  have count := congrArg (fun t => (t.childrenWith Vocabulary.contentOverride).length) (tree.symm.trans same)
  simp only [Markup.Element.childrenWith_tidy, List.length_map] at count
  exact fewer count

/-- When the package has lost the order of calculation, the sheet that the content types are is read as another. -/
theorem not_sameTree_again {w w₁ ready₁ : Workbook} {s₁ : Sheet}
    (same : ∀ name, w₁.package.find? name = w.package.find? name)
    (there : w.package.find? Vocabulary.contentTypesPart =
      some (Workbook.withoutOverride typesDocument.root "chain.xml").toBytes)
    (opened : w₁.opened = []) (found : w₁.findInfo (.name "Two") = .ok types.info)
    (hopen : w₁.openSheet (.name "Two") = .ok (s₁, ready₁)) : ¬ SameTree s₁.root types.root := by
  have free : w₁.openedAt? types.info.path = none := by
    rw [Workbook.openedAt?, opened]
    rfl
  rw [Workbook.openSheet_of_none found free] at hopen
  obtain ⟨s, hs, hopen⟩ := bind_eq_ok_iff.mp hopen
  obtain ⟨rfl, -⟩ := Prod.mk.inj (Except.ok.inj hopen)
  have read : w₁.package.readDocument Vocabulary.contentTypesPart = .ok s.root := (Sheet.load_eq_ok_iff.mp hs).2.1
  exact not_sameTree_types ((Package.readDocument_eq_ok_iff ((same _).trans there)).mp read)

end Small

/-! ### Loading what was written -/

namespace Workbook

/-- Generating and loading loses nothing. After any run of openings and substitutions the container is written, and
the workbook that is loaded from it has the same sheets and the same texts in their order; every sheet, whether it
was filled, opened or never asked for, is read as the sheet of the workbook in memory. The parts that were filled
need names for their entries, the names of all entries have to fit into their headers, and no sheet or table may stand
in the part of the content types once the order of calculation is dropped. -/
theorem reload_after_run {entries : List Entry} {w₀ w : Workbook} {fs : List Filling}
    (distinct : (entries.map (·.name)).Nodup) (hload : load entries = .ok w₀) (apart : PartsApart w₀)
    (run : Run w₀ fs w) (named : ∀ name ∈ filledParts w₀ fs, Archive.cutName name ≠ "")
    (fits : ∀ e ∈ entries, w.package.has e.name = true → Archive.fitsHeader e.name = true)
    (types : ∀ c ∈ lostParts w₀ fs, c ≠ "" → Vocabulary.contentTypesPart ∉ w₀.sheetParts)
    (reads : ∀ d ∈ w.liveDocuments, d.1 ∈ w.package.written → ReadsAgain d.2) (method : Method) :
    ∃ out w₁, w.generate method = .ok out ∧ load out = .ok w₁ ∧ w₁.sheets = w.sheets ∧
      w₁.pool.texts = w.pool.texts ∧ ∀ key,
        (∀ f, w.openSheet key = .error f → w₁.openSheet key = .error f) ∧
        ∀ s ready, w.openSheet key = .ok (s, ready) →
          ∃ s₁ ready₁, w₁.openSheet key = .ok (s₁, ready₁) ∧ SheetAgain w w₁ s s₁ := by
  have since := (carried_of_run distinct hload run).package
  have inStep := inStep_of_run hload apart run types
  have same := since.find?_ofEntries distinct method
  have loaded := ofPackage_eq_ok_iff.mp hload
  obtain ⟨w₁, hw₁, sheets, texts, opened, package⟩ := inStep.exists_loaded (loaded.package.symm ▸ loaded) same reads
  exact ⟨_, w₁, since.pack_eq method (cutName_ne_of_named hload named) fits, hw₁, sheets, texts,
    inStep.openSheet_again apart (package ▸ same) sheets texts opened reads⟩

end Workbook

/-- Three containers whose workbooks are not read again as they are in memory: one cannot be written, as its texts are
in a part without a name, and one as the name of a part does not fit; in the third the content types are a sheet, and
they lose the order of calculation in the package only. -/
theorem Workbook.reload_after_run_fails :
    (Workbook.load (Small.containerOf Small.hollowParts) = .ok Small.hollow ∧
      ((Small.containerOf Small.hollowParts).map (·.name)).Nodup ∧
      Small.hollow.allParts.Nodup ∧
      ∃ w' stats, Small.hollow.substitute (.name "One") (.ofValues []) = (w', .ok stats) ∧
        w'.generate .deflated = .error .noEntryName) ∧
    (Workbook.load (Small.containerOf (Small.partsAnd Small.overlongName)) = .ok (Small.bookAnd Small.overlongName) ∧
      ((Small.containerOf (Small.partsAnd Small.overlongName)).map (·.name)).Nodup ∧
      (Small.bookAnd Small.overlongName).allParts.Nodup ∧
      (Small.bookAnd Small.overlongName).generate .deflated = .error .entryNameTooLong) ∧
    (Workbook.load (Small.containerOf Small.typedParts) = .ok Small.typed ∧
      ((Small.containerOf Small.typedParts).map (·.name)).Nodup ∧
      Small.typed.allParts.Nodup ∧
      Small.typed.openSheet (.name "Two") = .ok (Small.types, Small.typedTwo) ∧
      ∃ w' stats out, Small.typedTwo.substitute (.name "One") Small.texts = (w', .ok stats) ∧
        w'.openSheet (.name "Two") = .ok (Small.types, w') ∧ w'.generate .deflated = .ok out ∧
        ∀ w₁ s₁ ready₁, Workbook.load out = .ok w₁ → w₁.sheets = w'.sheets →
          w₁.openSheet (.name "Two") = .ok (s₁, ready₁) → ¬ SameTree s₁.root Small.types.root) := by
  refine ⟨?_, ?_, ?_⟩
  · obtain ⟨w', stats, goes, fails⟩ := Small.exists_nameless
    exact ⟨Small.load_hollow, Small.names_containerOf Small.hollowParts ▸ Small.hollow_distinct,
      Small.allParts_small.2.1, w', stats, goes, fails .deflated⟩
  · have new := Small.overlongName_notMem
    exact ⟨Small.load_partsAnd new, Small.names_containerOf (Small.partsAnd _) ▸ Small.partsAnd_distinct new,
      Small.allParts_bookAnd new, Small.generate_partsAnd new Small.fitsHeader_overlongName .deflated⟩
  · have names : ((Small.containerOf Small.typedParts).map (·.name)).Nodup :=
      Small.names_containerOf Small.typedParts ▸ Small.typed_distinct
    obtain ⟨o, dropped, strings, w', moved, stages⟩ := Small.exists_stages_typed
    have live := (Live.load Small.load_typed).openSheet Small.open_typed.1 |>.openSheet Small.open_typed.2
    obtain ⟨info, paths, -⟩ := follows_of_fillSheet live.sound stages.fill_eq
    have run : Run Small.typed [⟨Small.one, o.stats⟩] w' := by
      rw [← List.nil_append [_]]
      exact .substitute (.openSheet .start Small.open_typed.1) stages.open_eq stages.substitute_eq
    have since := (carried_of_run names Small.load_typed run).package
    have named : ∀ name ∈ filledParts Small.typed [⟨Small.one, o.stats⟩], Archive.cutName name ≠ "" := by
      show ∀ name ∈ ["book.xml", "texts.xml", "one.xml"], _
      decide
    have packed := since.pack_eq .deflated (cutName_ne_of_named Small.load_typed named) fun e he _ =>
      Small.fits_containerOf (by decide) e he
    have sheets' : w'.sheets = Small.typed.sheets := by
      rw [stages.eq, stages.drops.eq_with]
      rfl
    have found : w'.findInfo (.name "Two") = .ok Small.types.info := (findInfo_congr sheets' _).trans rfl
    have kept : w'.openedAt? Small.types.info.path = some Small.types := by
      rw [stages.openedAt?_eq, openedAt?_putSheet]
      show some (if Small.types.info.path = o.sheet.info.path then o.sheet else Small.types) = _
      rw [info, if_neg (by decide)]
    have there : w'.package.find? Vocabulary.contentTypesPart =
        some (withoutOverride Small.typesDocument.root "chain.xml").toBytes := by
      refine stages.find?_contentTypes moved rfl (by decide) ?_ (by decide) ?_
      · exact Small.readDocument_containerOf Small.typed_distinct List.mem_cons_self
      · rw [names_documents stages info paths]
        decide
    refine ⟨Small.load_typed, names, Small.allParts_small.2.2, Small.open_typed.1, w', o.stats, _, stages.substitute_eq,
      openSheet_of_openedAt? found kept, packed, fun w₁ s₁ ready₁ hload sheets hopen => ?_⟩
    have loaded := ofPackage_eq_ok_iff.mp hload
    exact Small.not_sameTree_again (fun name => loaded.package ▸ since.find?_ofEntries names .deflated name) there
      loaded.opened ((findInfo_congr sheets _).trans found) hopen

namespace Small

/-- What the texts make of the documents is printed as something that reads as they do. -/
theorem readsAgain_chained {o : Workbook.Outcome} {dropped w' : Workbook} {strings : Markup.Element}
    (h : Workbook.Stages chained (.name "One") texts one chainedOne o dropped strings w')
    (moved : o.stats.moved = true) : ∀ d ∈ w'.liveDocuments, ReadsAgain d.2 := by
  have document : (chainedOne.fillSheet one texts).toOption.map (·.workbook.isReadAgain) = some true := by
    decide +kernel
  have root : (chainedOne.fillSheet one texts).toOption.map (·.sheet.root.isReadAgain) = some true := by
    decide +kernel
  have texts : (chainedOne.fillSheet one texts).toOption.map (fun o =>
      (o.pool.writeTo chainedOne.stringsRoot).toOption.all (·.1.isReadAgain)) = some true := by decide +kernel
  have links : (Workbook.withoutCalcChain chainedOne.relationships).isReadAgain = true := by decide +kernel
  rw [h.fill_eq] at document root texts
  replace document : o.workbook.isReadAgain = true := Option.some.inj document
  replace root : o.sheet.root.isReadAgain = true := Option.some.inj root
  replace texts : (o.pool.writeTo chainedOne.stringsRoot).toOption.all (·.1.isReadAgain) = true :=
    Option.some.inj texts
  have written : (o.pool.writeTo chainedOne.stringsRoot).toOption =
      some (strings, o.pool.movedTo chainedOne.stringsRoot) := toOption_eq_some_iff.mpr h.writeTo_eq
  rw [written, Option.all_some] at texts
  have live := (Workbook.Live.load load_chained).openSheet open_chainedOne
  obtain ⟨info, paths, -⟩ := Workbook.follows_of_fillSheet live.sound h.fill_eq
  have opened : (chainedOne.putSheet o.sheet).opened = [o.sheet] := by
    show [if one.info.path = o.sheet.info.path then o.sheet else one] = _
    rw [info, if_pos rfl]
  have tables : o.sheet.tables = [] := List.map_eq_nil_iff.mp paths
  have relationships := h.relationships_of_moved moved rfl (by decide)
  intro d hd
  simp only [h.liveDocuments_eq, relationships, opened, tables, List.flatMap_cons, List.flatMap_nil, List.map_nil,
    List.append_nil, List.mem_cons, List.not_mem_nil, or_false] at hd
  rcases hd with e | e | e | e
  all_goals rw [e]
  · exact Markup.readsAgain_of_isReadAgain document
  · exact Markup.readsAgain_of_isReadAgain links
  · exact Markup.readsAgain_of_isReadAgain texts
  · exact Markup.readsAgain_of_isReadAgain root

end Small

/-- A container whose order of calculation was dropped, as the texts moved a cell of the first sheet, is loaded
again with both sheets as they were. -/
theorem Workbook.reload_after_run_small : ∃ w' stats out w₁,
    Workbook.load (Small.containerOf Small.chainedParts) = .ok Small.chained ∧
      Small.chained.allParts.Nodup ∧
      Small.chained.substitute (.name "One") Small.texts = (w', .ok stats) ∧ stats.moved = true ∧
      w'.generate .deflated = .ok out ∧ Workbook.load out = .ok w₁ ∧ w₁.sheets = w'.sheets ∧
      w₁.pool.texts = w'.pool.texts ∧ ∀ key s ready, w'.openSheet key = .ok (s, ready) →
        ∃ s₁ ready₁, w₁.openSheet key = .ok (s₁, ready₁) ∧ Workbook.SheetAgain w' w₁ s s₁ := by
  obtain ⟨o, dropped, strings, w', moved, stages⟩ := Small.exists_stages_chained
  have run : Run Small.chained [⟨Small.one, o.stats⟩] w' := by
    rw [← List.nil_append [_]]
    exact .substitute .start stages.open_eq stages.substitute_eq
  obtain ⟨out, w₁, hout, hload, sheets, texts, again⟩ := reload_after_run
    (Small.names_containerOf Small.chainedParts ▸ Small.chained_distinct) Small.load_chained
    (partsApart_of_nodup Small.allParts_small.1) run
    (by
      show ∀ name ∈ ["book.xml", "texts.xml", "one.xml"], _
      decide)
    (fun e he _ => Small.fits_containerOf (by decide) e he)
    (fun _ _ _ => by
      rw [Small.sheetParts_small.1]
      decide)
    (fun d hd _ => Small.readsAgain_chained stages moved d hd) .deflated
  exact ⟨w', o.stats, out, w₁, Small.load_chained, Small.allParts_small.1, stages.substitute_eq, moved, hout, hload,
    sheets, texts, fun key => (again key).2⟩

end Gridfill

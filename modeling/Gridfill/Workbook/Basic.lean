import Gridfill.Sheet.Expand
import Gridfill.Sheet.Header

/-!
# Workbooks

A workbook is a package whose relationships have been followed: from the package to the workbook's
own document, from there to the pool of texts, the order of calculation and the sheets, and from a
sheet to its tables. Sheets are opened when they are first asked for, and an opened sheet is kept.
-/

namespace Gridfill

open Archive (Entry Method)
open Markup (Element)

/-- A template held in memory. -/
structure Workbook where
  package : Package
  /-- The part with the workbook's own document. -/
  path : String
  document : Element
  relationshipsPath : String
  relationships : Element
  stringsPath : String
  stringsRoot : Element
  /-- The part with the order of calculation. -/
  calcChain : Option String
  sheets : List SheetInfo
  /-- The sheets opened so far, in the order of opening. -/
  opened : List Sheet
  pool : Pool

namespace Workbook

/-! ### Loading -/

/-- The sheet behind one entry in the list of sheets. -/
def sheetInfo (directory : String) (relationships : Element) (entry : Element) :
    Except Failure SheetInfo := do
  let relationship := entry.get? Vocabulary.relationshipId
  let target := (targetOf relationships relationship).getD ""
  if target = "" then
    .error (.load (.sheetWithoutTarget (entry.attribute? "name") relationship))
  else
    let id ← parseInteger (entry.attributeOr "sheetId" "0")
    return ⟨id, entry.attributeOr "name" "", PartName.resolve directory target, relationship⟩

/-- The workbook in a package. -/
def ofPackage (package : Package) : Except Failure Workbook := do
  let root ← package.readDocument Vocabulary.rootRelationshipsPart
  let target := ((findRelationship root Vocabulary.documentType).bind (·.attribute? "Target")).getD ""
  if target = "" then .error (.load .noDocument)
  else
    let path := PartName.resolve "" target
    let directory := PartName.directory path
    let document ← package.readDocument path
    let relationshipsPath := PartName.relationships path
    let relationships ← package.readDocument relationshipsPath
    match findRelationship relationships Vocabulary.sharedStringsType with
    | none => .error (.load (.noStrings relationshipsPath))
    | some strings =>
      let stringsPath := PartName.resolve directory (strings.attributeOr "Target" "")
      let stringsRoot ← package.readDocument stringsPath
      let calcChain := (findRelationship relationships Vocabulary.calcChainType).map fun r =>
        PartName.resolve directory (r.attributeOr "Target" "")
      let entries := document.descendants [Vocabulary.sheets, Vocabulary.sheet]
      let sheets ← entries.mapM (sheetInfo directory relationships)
      return {
        package, path, document, relationshipsPath, relationships, stringsPath, stringsRoot
        calcChain, sheets
        opened := []
        pool := Pool.ofRoot stringsRoot }

/-- The workbook in a container. -/
def load (entries : List Entry) : Except Failure Workbook := ofPackage (Package.ofEntries entries)

/-- The directory of the workbook's own document. -/
def directory (w : Workbook) : String := PartName.directory w.path

/-! ### Sheets -/

/-- The sheet that a key asks for: the first that matches. Figures that name no sheet are taken as the
number of one. -/
def findInfo (w : Workbook) (key : SheetKey) : Except Failure SheetInfo :=
  match w.sheets.find? (·.matchesKey key) with
  | some info => .ok info
  | none =>
    match key with
    | .name s =>
      if Text.isDigitRun s.toList then do
        let id ← parseInteger s
        match w.sheets.find? (·.matchesKey (.number id)) with
        | some info => return info
        | none => .error (.sheetNotFound (.number id))
      else .error (.sheetNotFound key)
    | key => .error (.sheetNotFound key)

/-- The opened sheet of a part. -/
def openedAt? (w : Workbook) (path : String) : Option Sheet :=
  w.opened.find? fun s => s.info.path = path

/-- The sheet that a key asks for, opened, and the workbook with it. -/
def openSheet (w : Workbook) (key : SheetKey) : Except Failure (Sheet × Workbook) := do
  let info ← w.findInfo key
  match w.openedAt? info.path with
  | some sheet => return (sheet, w)
  | none =>
    let sheet ← Sheet.load w.package info
    return (sheet, { w with opened := w.opened ++ [sheet] })

/-- The workbook with an opened sheet changed. -/
def putSheet (w : Workbook) (sheet : Sheet) : Workbook :=
  { w with opened := w.opened.map fun s => if s.info.path = sheet.info.path then sheet else s }

/-! ### Placeholders -/

/-- The placeholders of a cell that holds a place in the pool. -/
def cellPlaceholders (pool : Pool) (cell : Element) : Except Failure (List Placeholder) :=
  match Cell.valueText cell with
  | none => .ok []
  | some text =>
    if Text.isDigitRun (Text.strip text.toList) then do
      let i ← parseInteger text
      return (pool.at? i).elim [] Placeholder.scan
    else .ok []

/-- Goes through cells and gathers the placeholders of each by the reference of the cell. -/
def gatherPlaceholders (pool : Pool) :
    List Element → Listing (List Placeholder) → Except Failure (Listing (List Placeholder))
  | [], found => .ok found
  | cell :: cells, found => do
    match ← cellPlaceholders pool cell with
    | [] => gatherPlaceholders pool cells found
    | ps => gatherPlaceholders pool cells (found.put (cell.attributeOr "r" "") ps)

/-- The placeholders of a sheet by the reference of the cell, in the order of the cells. -/
def sheetPlaceholders (pool : Pool) (sheet : Sheet) :
    Except Failure (Listing (List Placeholder)) :=
  let cells := sheet.rows.flatMap (·.childrenWith Vocabulary.cell)
  gatherPlaceholders pool (cells.filter fun c => c.attribute? "t" = some "s") []

/-- What the tables of a sheet say about themselves. -/
def tableInfos (sheet : Sheet) : Except Failure (List TableInfo) := sheet.tables.mapM Table.info

/-! ### Writing -/

/-- The entries of the container that the workbook is written as. -/
def generate (w : Workbook) (method : Method) : Except Failure (List Entry) :=
  w.package.pack method

end Workbook
end Gridfill

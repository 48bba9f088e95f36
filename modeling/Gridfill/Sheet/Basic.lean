import Gridfill.Package.Basic
import Gridfill.Package.PartName
import Gridfill.Sheet.Key
import Gridfill.Sheet.Table

/-!
# Sheets

A sheet as the workbook lists it, and a sheet that has been opened: the root of its document and its
tables, which are found through the relationships of the sheet.
-/

namespace Gridfill

open Markup (Element)

/-- A sheet as the workbook lists it. -/
structure SheetInfo where
  id : Int
  name : String
  path : String
  relationship : Option String
deriving DecidableEq, Repr

/-- Does the key ask for the sheet? -/
def SheetInfo.matchesKey (info : SheetInfo) : SheetKey → Bool
  | .number id => info.id = id
  | .name s => info.name = s
  | _ => false

/-- An opened sheet. -/
structure Sheet where
  info : SheetInfo
  root : Element
  tables : List Table

namespace Sheet

/-- The name of the sheet. -/
def name (s : Sheet) : String := s.info.name

/-- The element that holds the rows of the sheet. -/
def data? (s : Sheet) : Option Element := s.root.child? Vocabulary.sheetData

/-- The rows of the sheet. -/
def rows (s : Sheet) : List Element := s.data?.elim [] (·.childrenWith Vocabulary.worksheetRow)

/-! ### Opening -/

/-- The table behind one entry in the list of tables of a sheet. -/
def openTable (package : Package) (path : String) (relationships : Element) (entry : Element) :
    Except Failure Table := do
  let id := entry.get? Vocabulary.relationshipId
  let target := (targetOf relationships id).getD ""
  if target = "" then
    .error (.load (.tableWithoutTarget id (PartName.relationships path)))
  else
    let part := PartName.resolve (PartName.directory path) target
    return ⟨part, ← package.readDocument part⟩

/-- The tables of a sheet. -/
def openTables (package : Package) (path : String) (root : Element) : Except Failure (List Table) :=
  match root.descendants [Vocabulary.tableParts, Vocabulary.tablePart] with
  | [] => .ok []
  | entries => do
    let relationships ← package.readDocument (PartName.relationships path)
    entries.mapM (openTable package path relationships)

/-- Opens a sheet: reads its document and its tables. -/
def load (package : Package) (info : SheetInfo) : Except Failure Sheet := do
  let root ← package.readDocument info.path
  return ⟨info, root, ← openTables package info.path root⟩

end Sheet
end Gridfill

import Gridfill.Service.Request
import Gridfill.Service.Settings
import Gridfill.Workbook.Session

/-!
# The template store

Templates are uploaded, looked at, filled and deleted. The store keeps the content of each template as
it was uploaded and, in a listing of its own, the name of its file. Every call works on a workbook loaded
afresh, so filling a template does not change it. A template is known by the identifier that its upload
gave it.
-/

namespace Gridfill

open Archive (Entry)

/-- An uploaded file: its size and the entries of the container in it. -/
structure Upload where
  size : Nat
  entries : Except Failure (List Entry)

/-- The templates: their contents and the names of their files, each by identifier. -/
structure Store where
  contents : Listing Upload
  filenames : Listing String

/-- What is shown of a sheet. -/
structure SheetSummary where
  id : Int
  name : String
  tables : List TableInfo
  placeholders : Listing (List Placeholder)

/-- What is shown of a template. -/
structure Summary where
  id : String
  filename : Option String
  sheets : List SheetSummary

/-- A filled template. -/
structure Rendered where
  mediaType : String
  disposition : String
  entries : List Entry

/-- The media type of workbooks. -/
def workbookMediaType : String :=
  "application/vnd.openxmlformats-officedocument.spreadsheetml.sheet"

namespace Store

/-- The store without templates. -/
def empty : Store := ⟨[], []⟩

/-- The content of a template, which has to be known. -/
def content (s : Store) (id : String) : Except Failure Upload :=
  match s.contents.lookup id with
  | some content => .ok content
  | none => .error (.refused .unknownTemplate)

/-- The name of the file of a template, which has to be there. -/
def filename (s : Store) (id : String) : Except Failure String :=
  match s.filenames.lookup id with
  | some filename => .ok filename
  | none => .error (.unknownKey id)

/-- The store with a template under an identifier. -/
def keep (s : Store) (id : String) (content : Upload) (filename : String) : Store :=
  ⟨s.contents.put id content, s.filenames.put id filename⟩

/-- The store without the template of an identifier. -/
def forget (s : Store) (id : String) : Store := ⟨s.contents.erase id, s.filenames.erase id⟩

/-! ### Summaries -/

/-- What is shown of the sheet with a number, and the workbook with the sheet opened. -/
def summarizeSheet (w : Workbook) (info : SheetInfo) : Except Failure (SheetSummary × Workbook) := do
  let (sheet, w) ← w.openSheet (.number info.id)
  let placeholders ← Workbook.sheetPlaceholders w.pool sheet
  let tables ← Workbook.tableInfos sheet
  return (⟨info.id, info.name, tables, placeholders⟩, w)

/-- What is shown of sheets. -/
def summarizeSheets : Workbook → List SheetInfo → Except Failure (List SheetSummary)
  | _, [] => .ok []
  | w, info :: infos => do
    let (summary, w) ← summarizeSheet w info
    let rest ← summarizeSheets w infos
    return summary :: rest

/-- What is shown of a template. -/
def summarize (id : String) (filename : Option String) (content : Upload) : Except Failure Summary := do
  let w ← Workbook.load (← content.entries)
  return ⟨id, filename, ← summarizeSheets w w.sheets⟩

/-! ### Calls -/

/-- A failure to load a template or to read a reference refuses an upload. -/
def uploadFailure : Failure → Failure
  | .load fault => .refused (.unloadable (Failure.load fault).message)
  | .reference kind text => .refused (.unloadable (Failure.reference kind text).message)
  | f => f

/-- Does the file name end like that of a workbook? -/
def isWorkbookName (filename : String) : Bool :=
  ".xlsx".toList.isSuffixOf (filename.toList.map Char.toLower)

/-- The identifier of a template. -/
def makeId (stem filename : String) : String := stem ++ "_" ++ filename

/-- The name of the file that is uploaded, which has to be that of a workbook. -/
def acceptName : Option String → Except Failure String
  | none => .error (.refused .noFilename)
  | some filename =>
    if filename = "" then .error (.refused .noFilename)
    else if isWorkbookName filename then .ok filename
    else .error (.refused .wrongExtension)

/-- What is shown of the content that is uploaded, which has to be a template within the limit. -/
def acceptContent (settings : Except Failure Settings) (id filename : String) (content : Upload) :
    Except Failure Summary := do
  let settings ← settings
  if settings.maxUploadBytes < content.size then
    .error (.refused (.tooLarge settings.maxUploadBytes))
  else
    match summarize id (some filename) content with
    | .ok summary => .ok summary
    | .error f => .error (uploadFailure f)

/-- Keeps a template under an identifier made from a fresh stem and its file name. -/
def upload (settings : Except Failure Settings) (s : Store) (stem : String) (filename : Option String)
    (content : Upload) : Store × Except Failure Summary :=
  match acceptName filename with
  | .error f => (s, .error f)
  | .ok filename =>
    let id := makeId stem filename
    match acceptContent settings id filename content with
    | .error f => (s, .error f)
    | .ok summary => (s.keep id content filename, .ok summary)

/-- Shows a template. -/
def show? (s : Store) (id : String) : Except Failure Summary := do
  let content ← s.content id
  summarize id (s.filenames.lookup id) content

/-- A failure to find a sheet, to load a template or to read a reference refuses a call to fill it. -/
def renderFailure : Failure → Failure
  | .sheetNotFound key => .refused (.unknownSheet (Failure.sheetNotFound key).message)
  | .load fault => .refused (.malformedTemplate (Failure.load fault).message)
  | .reference kind text => .refused (.malformedTemplate (Failure.reference kind text).message)
  | f => f

/-- Fills sheets one after the other. -/
def fillAll (settings : Settings) : Workbook → List SheetRequest → Except Failure Workbook
  | w, [] => .ok w
  | w, step :: steps =>
    match w.substitute (step.sheet.getD (.name settings.defaultSheet)) step.data with
    | (w, .ok _) => fillAll settings w steps
    | (_, .error f) => .error (renderFailure f)

/-- The name of the filled file: the name of the template without its extension, and a suffix. -/
def filledName (filename : String) : String :=
  let stem := match Text.cutAtLast '.' filename.toList with
    | (some before, _) => before
    | (none, all) => all
  String.ofList stem ++ "_filled.xlsx"

/-- The header that names the filled file; its characters must have eight bits. -/
def dispositionFor (filename : String) : Except Failure String :=
  let header := "attachment; filename=\"" ++ filledName filename ++ "\""
  let fits (c : Char) : Bool := c.toNat < 256
  match header.toList.dropWhile fits with
  | [] => .ok header
  | rest =>
    .error (.headerCharacter (rest.takeWhile fun c => !fits c) (header.toList.takeWhile fits).length)

/-- The entries of the container that a content is filled as. -/
def fillContent (settings : Settings) (content : Upload) (request : RenderRequest) :
    Except Failure (List Entry) := do
  let w ← Workbook.load (← content.entries)
  let w ← fillAll settings w request.steps
  if settings.validateOutput then
    let _ ← Check.report w
  w.generate settings.method

/-- The answer with the entries of a filled template, named after the file. -/
def answerWith (filename : String) (entries : List Entry) : Except Failure Rendered := do
  let disposition ← dispositionFor filename
  return ⟨workbookMediaType, disposition, entries⟩

/-- Fills a template. -/
def render (settings : Except Failure Settings) (s : Store) (id : String) (request : RenderRequest) :
    Except Failure Rendered := do
  let content ← s.content id
  let settings ← settings
  let entries ← fillContent settings content request
  let filename ← s.filename id
  answerWith filename entries

/-- Forgets a template. -/
def delete (s : Store) (id : String) : Store × Except Failure Unit :=
  match s.content id with
  | .error f => (s, .error f)
  | .ok _ => (s.forget id, .ok ())

end Store
end Gridfill

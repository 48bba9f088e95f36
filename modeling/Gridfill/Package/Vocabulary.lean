import Gridfill.Failure
import Gridfill.Markup.Basic

/-!
# Vocabulary

The namespaces of the documents in a package, the tags of the elements that matter, and the types of
the relationships that are followed.
-/

namespace Gridfill.Vocabulary

open Markup (Tag)

/-- The namespace of sheets, tables and texts. -/
def main : String := "http://schemas.openxmlformats.org/spreadsheetml/2006/main"

/-- The namespace of references to relationships. -/
def reference : String := "http://schemas.openxmlformats.org/officeDocument/2006/relationships"

/-- The namespace of relationships. -/
def relationship : String := "http://schemas.openxmlformats.org/package/2006/relationships"

/-- The namespace of content types. -/
def contentType : String := "http://schemas.openxmlformats.org/package/2006/content-types"

/-- The namespaces and the short forms by which they are known. -/
def namespaces : List (String × String) :=
  [("main", main), ("r", reference), ("rel", relationship), ("ct", contentType),
   ("mc", "http://schemas.openxmlformats.org/markup-compatibility/2006"),
   ("x14ac", "http://schemas.microsoft.com/office/spreadsheetml/2009/9/ac")]

/-- The tag with a label in the namespace known by a short form. -/
def tag? (short label : String) : Except Failure Tag :=
  match namespaces.lookup short with
  | some uri => .ok ⟨some uri, label⟩
  | none => .error (.unknownKey short)

/-- A tag of sheets, tables and texts. -/
def inMain (label : String) : Tag := ⟨some main, label⟩

def worksheetRow : Tag := inMain "row"
def cell : Tag := inMain "c"
def cellValue : Tag := inMain "v"
def inlineText : Tag := inMain "is"
def sheetData : Tag := inMain "sheetData"
def mergeCells : Tag := inMain "mergeCells"
def mergeCell : Tag := inMain "mergeCell"
def dimension : Tag := inMain "dimension"
def tableParts : Tag := inMain "tableParts"
def tablePart : Tag := inMain "tablePart"
def autoFilter : Tag := inMain "autoFilter"
def tableColumns : Tag := inMain "tableColumns"
def tableColumn : Tag := inMain "tableColumn"
def sheets : Tag := inMain "sheets"
def sheet : Tag := inMain "sheet"
def definedNames : Tag := inMain "definedNames"
def definedName : Tag := inMain "definedName"
def stringItem : Tag := inMain "si"
def stringText : Tag := inMain "t"
def stringRun : Tag := inMain "r"

/-- A relationship among the relationships of a part. -/
def relationshipItem : Tag := ⟨some relationship, "Relationship"⟩

/-- The content type of a single part. -/
def contentOverride : Tag := ⟨some contentType, "Override"⟩

/-- The attribute that names a relationship. -/
def relationshipId : Tag := ⟨some reference, "id"⟩

/-- The type of the relationship to the workbook. -/
def documentType : String := reference ++ "/officeDocument"

/-- The type of the relationship to the shared texts. -/
def sharedStringsType : String := reference ++ "/sharedStrings"

/-- The type of the relationship to the order of calculation. -/
def calcChainType : String := reference ++ "/calcChain"

/-- The part with the content types. -/
def contentTypesPart : String := "[Content_Types].xml"

/-- The part with the relationships of the package itself. -/
def rootRelationshipsPart : String := "_rels/.rels"

end Gridfill.Vocabulary

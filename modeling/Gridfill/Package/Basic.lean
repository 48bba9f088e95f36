import Gridfill.Archive.Entry
import Gridfill.Listing
import Gridfill.Markup.Encoding
import Gridfill.Package.Vocabulary

/-!
# Packages

A package holds the contents of parts by name, in the order in which the names came in, and remembers
the entries of the container that it was read from. Written back, the parts of the source come first,
in their order and stored as they were unless they have been written since; parts that came later
follow.
-/

namespace Gridfill

open Archive (Entry Method)
open Markup (Element)

/-- An entry of the container that a package was read from. -/
structure SourceEntry where
  name : String
  method : Method
deriving DecidableEq, Repr

/-- Parts by name. -/
structure Package where
  /-- The entries of the source. -/
  source : List SourceEntry
  /-- The contents by name, each name once. -/
  parts : Listing ByteArray
  /-- The names that were not there when they were written, in order of writing. -/
  added : List String
  /-- The names that have been written since reading. -/
  written : List String

/-- The root of the document in the given bytes, `part` being the name to blame. -/
def readXml (bytes : ByteArray) (part : String) : Except Failure Element :=
  match Markup.readBytes? bytes with
  | some e => .ok e
  | none => .error (.load (.unreadablePart part))

namespace Package

/-! ### Reading -/

/-- The package that the entries of a container make. -/
def ofEntries (entries : List Entry) : Package where
  source := entries.map fun e => ⟨e.name, e.method⟩
  parts := entries.foldl (fun ps e => ps.put e.name e.content) []
  added := []
  written := []

/-- The names of the parts, in the order in which they came in. -/
def names (p : Package) : List String := p.parts.names

/-- The content of a part. -/
def find? (p : Package) (name : String) : Option ByteArray := p.parts.lookup name

/-- Is there a part of the name? -/
def has (p : Package) (name : String) : Bool := (p.find? name).isSome

/-- The content of a part that has to be there. -/
def read (p : Package) (name : String) : Except Failure ByteArray :=
  match p.find? name with
  | some content => .ok content
  | none => .error (.load (.missingPart name))

/-- The root of the document in a part. -/
def readDocument (p : Package) (name : String) : Except Failure Element := do
  readXml (← p.read name) name

/-! ### Writing -/

/-- The package with a part written. -/
def write (p : Package) (name : String) (content : ByteArray) : Package where
  source := p.source
  parts := p.parts.put name content
  added := if p.has name then p.added else p.added ++ [name]
  written := if name ∈ p.written then p.written else p.written ++ [name]

/-- The package with a document written as a part. -/
def writeDocument (p : Package) (name : String) (root : Element) : Package :=
  p.write name root.toBytes

/-- The package without a part. -/
def remove (p : Package) (name : String) : Package :=
  { p with
    parts := p.parts.erase name
    written := p.written.filter (· ≠ name) }

@[simp] theorem find?_write (p : Package) (name : String) (content : ByteArray) :
    (p.write name content).find? name = some content :=
  Listing.lookup_put name content p.parts

theorem find?_write_ne (p : Package) {name other : String} (content : ByteArray)
    (h : other ≠ name) : (p.write name content).find? other = p.find? other :=
  Listing.lookup_put_ne content p.parts h

@[simp] theorem find?_remove (p : Package) (name : String) : (p.remove name).find? name = none :=
  Listing.lookup_erase name p.parts

theorem find?_remove_ne (p : Package) {name other : String} (h : other ≠ name) :
    (p.remove name).find? other = p.find? other :=
  Listing.lookup_erase_ne p.parts h

/-- The entry that a name of the source is written back as. -/
def sourceEntry (p : Package) (method : Method) (s : SourceEntry) : Option Entry :=
  (p.find? s.name).map fun content => ⟨s.name, if s.name ∈ p.written then method else s.method, content⟩

/-- The entry that a name added later is written back as; names of the source are written already. -/
def addedEntry (p : Package) (method : Method) (name : String) : Option Entry :=
  if name ∈ p.source.map (·.name) then none
  else (p.find? name).map fun content => ⟨Archive.cutName name, method, content⟩

/-- The entries of the container that the package is written as; written parts are stored by
`method`. -/
def toEntries (p : Package) (method : Method) : List Entry :=
  p.source.filterMap (p.sourceEntry method) ++ p.added.filterMap (p.addedEntry method)

/-- An entry as it goes into a container: its name has to fit into its header, and one that is made anew
needs a name. -/
def putEntry (isNew : Bool) (e : Entry) : Except Failure Entry :=
  if isNew && Archive.cutName e.name = "" then .error .noEntryName
  else if Archive.fitsHeader e.name then .ok e
  else .error .entryNameTooLong

/-- The container that the package is written as. Entries of the source are carried over unless they
have been written. -/
def pack (p : Package) (method : Method) : Except Failure (List Entry) := do
  let first ← (p.source.filterMap (p.sourceEntry method)).mapM fun e => putEntry (e.name ∈ p.written) e
  let later ← (p.added.filterMap (p.addedEntry method)).mapM (putEntry true)
  return first ++ later

end Package

/-! ### Relationships -/

/-- The first relationship of a type. -/
def findRelationship (relationships : Element) (type : String) : Option Element :=
  (relationships.childrenWith Vocabulary.relationshipItem).find? fun r =>
    r.attribute? "Type" = some type

/-- The target of the relationship with an identifier: of several, the last. -/
def targetOf (relationships : Element) (id : Option String) : Option String :=
  match (relationships.childrenWith Vocabulary.relationshipItem).reverse.find? fun r =>
    r.attribute? "Id" = id with
  | some r => r.attribute? "Target"
  | none => none

end Gridfill

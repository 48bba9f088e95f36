import Gridfill.Sheet.Key
import Gridfill.Text.Integer
import Gridfill.Text.Utf8

/-!
# Failures

Every way in which an operation of the library can fail, as a cause, and the text that reports it.
Data that a template asks for and a caller does not supply is no failure: such placeholders stay.
-/

namespace Gridfill

/-- What a reference was expected to be. -/
inductive ReferenceKind where
  | cell
  | range
  | column
deriving DecidableEq, Repr

/-- The word for the kind of reference. -/
def ReferenceKind.word : ReferenceKind → String
  | .cell => "cell"
  | .range => "range"
  | .column => "column"

/-- Why a run of bytes is not a container of parts. -/
inductive ContainerFault where
  | noDirectory
  | severalDisks
  | directoryOffset
  | directoryCut
  | directoryMark
  | extraField (tag size : Nat)
  | wideField (field : String)
  | headerCut
  | headerMark
  | nameDiffers (listed : String) (found : List UInt8)
  | overlap (name : String)
  | checksum (name : String)
deriving DecidableEq, Repr

/-- Bytes between quotes, as messages show them. -/
def shownBytes (bs : List UInt8) : String :=
  let quote := Text.quoteFor (bs.map fun b => Char.ofNat b.toNat)
  let shown (b : UInt8) : List Char :=
    if b < 128 then Text.escaped quote (Char.ofNat b.toNat)
    else '\\' :: 'x' :: Text.hexDigits 2 b.toNat
  String.ofList ('b' :: quote :: bs.flatMap shown ++ [quote])

/-- The text that reports the fault. -/
def ContainerFault.message : ContainerFault → String
  | .noDirectory => "File is not a zip file"
  | .severalDisks => "zipfiles that span multiple disks are not supported"
  | .directoryOffset => "Bad offset for central directory"
  | .directoryCut => "Truncated central directory"
  | .directoryMark => "Bad magic number for central directory"
  | .extraField tag size =>
    "Corrupt extra field " ++ String.ofList (Text.hexDigits 4 tag) ++ " (size=" ++ toString size ++ ")"
  | .wideField field => "Corrupt zip64 extra field. " ++ field ++ " not found."
  | .headerCut => "Truncated file header"
  | .headerMark => "Bad magic number for file header"
  | .nameDiffers listed found =>
    "File name in directory " ++ Text.quoted listed ++ " and header " ++ shownBytes found ++ " differ."
  | .overlap name => "Overlapped entries: " ++ Text.quoted name ++ " (possible zip bomb)"
  | .checksum name => "Bad CRC-32 for file " ++ Text.quoted name

/-- Why a compressed run of bytes cannot be expanded. -/
inductive InflateFault where
  | blockType
  | storedLengths
  | tooManySymbols
  | codeLengths
  | lengthRepeat
  | noEndOfBlock
  | literalSet
  | distanceSet
  | literalCode
  | distanceCode
  | distanceTooFar
deriving DecidableEq, Repr

/-- The text that reports the fault. -/
def InflateFault.message : InflateFault → String
  | .blockType => "invalid block type"
  | .storedLengths => "invalid stored block lengths"
  | .tooManySymbols => "too many length or distance symbols"
  | .codeLengths => "invalid code lengths set"
  | .lengthRepeat => "invalid bit length repeat"
  | .noEndOfBlock => "invalid code -- missing end-of-block"
  | .literalSet => "invalid literal/lengths set"
  | .distanceSet => "invalid distances set"
  | .literalCode => "invalid literal/length code"
  | .distanceCode => "invalid distance code"
  | .distanceTooFar => "invalid distance too far back"

/-- Why the content of a listed entry cannot be had although the container is sound. -/
inductive EntryFault where
  | encrypted (name : String)
  | patched
  | stronglyEncrypted
  | version (tenths : Nat)
  | method
  | inflate (fault : InflateFault)
  | cut
  | nameBytes (fault : Text.Utf8Fault)
  | negativeOffset (offset : Int)
deriving DecidableEq, Repr

/-- The text that reports bytes that are not UTF-8. -/
def utf8Message (f : Text.Utf8Fault) : String :=
  let what := match f.found with
    | [b] => "byte 0x" ++ String.ofList (Text.hexDigits 2 b.toNat) ++ " in position " ++ toString f.place
    | bs => "bytes in position " ++ toString f.place ++ "-" ++ toString (f.place + bs.length - 1)
  "'utf-8' codec can't decode " ++ what ++ ": " ++ f.flaw.reason

/-- The text that reports the fault. -/
def EntryFault.message : EntryFault → String
  | .encrypted name =>
    "File " ++ Text.quoted name ++ " is encrypted, password required for extraction"
  | .patched => "compressed patched data (flag bit 5)"
  | .stronglyEncrypted => "strong encryption (flag bit 6)"
  | .version tenths => "zip file version " ++ toString (tenths / 10) ++ "." ++ toString (tenths % 10)
  | .method => "That compression method is not supported"
  | .inflate fault => "Error -3 while decompressing data: " ++ fault.message
  | .cut => ""
  | .nameBytes fault => utf8Message fault
  | .negativeOffset offset => "negative seek value " ++ toString offset

/-- Why a container does not hold a template. -/
inductive LoadFault where
  | container (fault : ContainerFault)
  | missingPart (part : String)
  | unreadablePart (part : String)
  | noDocument
  | noStrings (relationships : String)
  | sheetWithoutTarget (name relationship : Option String)
  | tableWithoutTarget (relationship : Option String) (relationships : String)
deriving DecidableEq, Repr

/-- The text that reports the fault. -/
def LoadFault.message : LoadFault → String
  | .container fault => "Not a valid .xlsx container: " ++ fault.message
  | .missingPart part => "Missing required part: " ++ part
  | .unreadablePart part => "Could not parse " ++ (if part = "" then "XML part" else part)
  | .noDocument => "No officeDocument relationship in _rels/.rels"
  | .noStrings relationships => "No sharedStrings relationship in " ++ relationships
  | .sheetWithoutTarget name relationship =>
    "Sheet " ++ Text.quotedOr "None" name ++ " has no relationship target for " ++
      Text.quotedOr "None" relationship
  | .tableWithoutTarget relationship relationships =>
    "Table part " ++ Text.quotedOr "None" relationship ++ " not found in " ++ relationships

/-- Why a call of the template service is refused. -/
inductive Refusal where
  | noFilename
  | wrongExtension
  | tooLarge (limit : Int)
  | unloadable (reason : String)
  | unknownTemplate
  | unknownSheet (reason : String)
  | malformedTemplate (reason : String)
deriving DecidableEq, Repr

/-- The status code that goes with the refusal. -/
def Refusal.status : Refusal → Nat
  | .unknownTemplate => 404
  | .unknownSheet _ => 404
  | _ => 400

/-- The text that reports the refusal. -/
def Refusal.message : Refusal → String
  | .noFilename => "No filename provided"
  | .wrongExtension => "Only .xlsx templates are supported"
  | .tooLarge limit => "Template exceeds " ++ toString limit ++ " bytes"
  | .unloadable reason => "Failed to load template: " ++ reason
  | .unknownTemplate => "Template not found"
  | .unknownSheet reason => reason
  | .malformedTemplate reason => "Malformed template: " ++ reason

/-- Every way in which an operation can fail. -/
inductive Failure where
  | reference (kind : ReferenceKind) (text : String)
  | load (fault : LoadFault)
  | entry (fault : EntryFault)
  | sheetNotFound (key : SheetKey)
  | nothingLoaded
  | nothingToCheck
  | nothingToList
  | integer (text : String) (fault : Text.IntegerFault)
  | forbiddenCharacter
  | indexOutOfRange
  | noEntryName
  | entryNameTooLong
  | unknownKey (key : String)
  | headerCharacter (found : List Char) (position : Nat)
  | invalidRequest
  | refused (refusal : Refusal)
deriving DecidableEq, Repr

/-- The text of a failure to read an integer. -/
def integerMessage (text : String) : Text.IntegerFault → String
  | .malformed =>
    "invalid literal for int() with base 10: " ++
      String.ofList ((Text.quotedChars text.toList).take 200)
  | .tooLong digits =>
    "Exceeds the limit (4300 digits) for integer string conversion: value has " ++ toString digits ++
      " digits; use sys.set_int_max_str_digits() to increase the limit"
  | .unwritable =>
    "Exceeds the limit (4300 digits) for integer string conversion; use sys.set_int_max_str_digits() " ++
      "to increase the limit"

/-- The text of a failure to write a header in eight-bit characters: it names the character that does
not fit, or the places of the first and last one of a run. -/
def headerMessage (found : List Char) (position : Nat) : String :=
  let what := match found with
    | [c] => "character '" ++ String.ofList (Text.escapedCode c) ++ "' in position " ++ toString position
    | cs => "characters in position " ++ toString position ++ "-" ++ toString (position + cs.length - 1)
  "'latin-1' codec can't encode " ++ what ++ ": ordinal not in range(256)"

/-- The text that reports the failure. -/
def Failure.message : Failure → String
  | .reference kind text => "Invalid " ++ kind.word ++ " reference: " ++ Text.quoted text
  | .load fault => fault.message
  | .entry fault => fault.message
  | .sheetNotFound key => "Sheet not found: " ++ key.shown
  | .nothingLoaded => "No template loaded"
  | .nothingToCheck => "'NoneType' object has no attribute 'loaded_sheets'"
  | .nothingToList => "'NoneType' object has no attribute 'part_names'"
  | .integer text fault => integerMessage text fault
  | .forbiddenCharacter =>
    "All strings must be XML compatible: Unicode or ASCII, no NULL bytes or control characters"
  | .indexOutOfRange => "list index out of range"
  | .noEntryName => "string index out of range"
  | .entryNameTooLong => "ushort format requires 0 <= number <= 65535"
  | .unknownKey key => Text.quoted key
  | .headerCharacter found position => headerMessage found position
  | .invalidRequest => ""
  | .refused refusal => refusal.message

/-- The integer that a text spells, or the failure that reports the text. -/
def parseInteger (text : String) : Except Failure Int :=
  match Text.readInteger text.toList with
  | .ok n => .ok n
  | .error fault => .error (.integer text fault)

/-- The decimal text of an integer. -/
def writeInteger (n : Int) : Except Failure String :=
  if n.natAbs < Text.integerBound then .ok (toString n)
  else .error (.integer (toString n) .unwritable)

end Gridfill

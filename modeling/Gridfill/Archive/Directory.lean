import Gridfill.Archive.Entry
import Gridfill.Archive.Inflate

/-!
# Reading containers

A container ends with a record that tells where its directory lies. The directory lists the entries;
each entry has a header of its own in front of its content. Bytes in front of the container do not
matter: all places are counted from where the container must begin for the end record to be right.

How contents in two of the ways of storing, `bzip2` and `lzma`, are expanded is left to the caller.
-/

namespace Gridfill.Archive

/-! ### The end record -/

/-- Where the directory lies. -/
structure EndRecord where
  place : Nat
  size : Nat
  offset : Nat
  isWide : Bool
deriving DecidableEq, Repr

/-- The mark of the end record. -/
def endMark : List UInt8 := [0x50, 0x4B, 5, 6]

/-- The number of places at which a mark may begin, followed by the last of them at which it does. -/
def lastPlace (mark : List UInt8) : Nat → List UInt8 → Option Nat → Option Nat
  | _, [], found => found
  | place, b :: bytes, found =>
    lastPlace mark (place + 1) bytes (if mark.isPrefixOf (b :: bytes) then some place else found)

/-- The place of the end record: at the very end, or in front of a comment. -/
def findEnd (bytes : List UInt8) : Option Nat :=
  let size := bytes.length
  if size < 22 then none
  else
    let tail := bytes.drop (size - 22)
    if endMark.isPrefixOf tail && tail.drop 20 = [0, 0] then some (size - 22)
    else
      let first := size - 65558
      match lastPlace endMark first (bytes.drop first) none with
      | some place => if size < place + 22 then none else some place
      | none => none

/-- The end record with the wide numbers in front of it, when there are any. -/
def widen (bytes : List UInt8) (record : EndRecord) : Except ContainerFault EndRecord :=
  if record.place < 20 || numberAt bytes (record.place - 20) 4 ≠ 0x07064B50 then .ok record
  else if numberAt bytes (record.place - 16) 4 ≠ 0 || 1 < numberAt bytes (record.place - 4) 4 then
    .error .severalDisks
  else if record.place < 76 || numberAt bytes (record.place - 76) 4 ≠ 0x06064B50 then .ok record
  else
    .ok { record with
      size := numberAt bytes (record.place - 36) 8
      offset := numberAt bytes (record.place - 28) 8
      isWide := true }

/-- The end record. -/
def readEnd (bytes : List UInt8) : Except ContainerFault EndRecord :=
  match findEnd bytes with
  | none => .error .noDirectory
  | some place =>
    widen bytes ⟨place, numberAt bytes (place + 12) 4, numberAt bytes (place + 16) 4, false⟩

/-! ### The directory -/

/-- An entry as the directory lists it. -/
structure DirectoryItem where
  /-- The name with everything behind a zero character. -/
  fullName : String
  name : String
  flags : Nat
  method : Nat
  checksum : Nat
  packed : Nat
  unpacked : Nat
  offset : Int
deriving DecidableEq, Repr

/-- The failure that a fault of the container is. -/
def containerFailure (f : ContainerFault) : Failure := .load (.container f)

/-- Takes a wide number from the front of an extra field. -/
def takeWide (field : String) (data : List UInt8) : Except ContainerFault (Nat × List UInt8) :=
  if data.length < 8 then .error (.wideField field) else .ok (numberAt data 0 8, data.drop 8)

/-- The listing with its wide numbers, those that have no room in their places. -/
def applyWide (l : DirectoryItem) (data : List UInt8) : Except ContainerFault DirectoryItem := do
  let (l, data) ← if l.unpacked = 0xFFFFFFFF then do
      let (n, data) ← takeWide "File size" data
      pure ({ l with unpacked := n }, data)
    else pure (l, data)
  let (l, data) ← if l.packed = 0xFFFFFFFF then do
      let (n, data) ← takeWide "Compress size" data
      pure ({ l with packed := n }, data)
    else pure (l, data)
  if l.offset = 0xFFFFFFFF then do
    let (n, _) ← takeWide "Header offset" data
    pure { l with offset := n }
  else pure l

/-- The listing after its extra fields. -/
def applyExtra : Nat → DirectoryItem → List UInt8 → Except ContainerFault DirectoryItem
  | 0, l, _ => .ok l
  | fuel + 1, l, extra =>
    if extra.length < 4 then .ok l
    else
      let tag := numberAt extra 0 2
      let size := numberAt extra 2 2
      if extra.length < size + 4 then .error (.extraField tag size)
      else do
        let l ← if tag = 1 then applyWide l ((extra.drop 4).take size) else .ok l
        applyExtra fuel l (extra.drop (size + 4))

/-- Reads the listings of a directory of `left` bytes. -/
def readListings (shift : Int) : Nat → Nat → List UInt8 → Except Failure (List DirectoryItem)
  | 0, _, _ => .ok []
  | fuel + 1, left, bytes =>
    if left = 0 then .ok []
    else if bytes.length < 46 then .error (containerFailure .directoryCut)
    else if numberAt bytes 0 4 ≠ 0x02014B50 then .error (containerFailure .directoryMark)
    else
      let nameSize := numberAt bytes 28 2
      let extraSize := numberAt bytes 30 2
      let commentSize := numberAt bytes 32 2
      let flags := numberAt bytes 8 2
      let nameBytes := (bytes.drop 46).take nameSize
      match decodeName (flags.testBit 11) nameBytes with
      | .error fault => .error (.entry (.nameBytes fault))
      | .ok fullName =>
        let version := numberAt bytes 6 1
        if 63 < version then .error (.entry (.version version))
        else
          let listing : DirectoryItem :=
            { fullName := fullName
              name := cutName fullName
              flags := flags
              method := numberAt bytes 10 2
              checksum := numberAt bytes 16 4
              packed := numberAt bytes 20 4
              unpacked := numberAt bytes 24 4
              offset := numberAt bytes 42 4 }
          let extra := (bytes.drop (46 + nameSize)).take extraSize
          match applyExtra (extra.length + 1) listing extra with
          | .error f => .error (containerFailure f)
          | .ok listing => do
            let used := 46 + nameSize + extraSize + commentSize
            let rest ← readListings shift fuel (left - used) (bytes.drop used)
            return { listing with offset := listing.offset + shift } :: rest

/-- Where the room of each entry ends: at the header of the next one, or at the directory. Of several
entries at one place only the first one listed has room. -/
def roomEnds (directory : Int) (listings : List DirectoryItem) : List (DirectoryItem × Int) :=
  let sorted := listings.mergeSort fun a b => b.offset ≤ a.offset
  sorted.zip (directory :: sorted.map (·.offset))

/-! ### Contents -/

/-- The content that stored data stands for, `size` being the size of the data and `full` that of the
content. -/
def expandData (expand : Method → List UInt8 → Except Failure ByteArray) (method : Method)
    (size full : Nat) (data : List UInt8) : Except Failure ByteArray :=
  match method with
  | .stored =>
    if data.length < size then .error (.entry .cut) else .ok (ByteArray.mk (data.take full).toArray)
  | .deflated =>
    match inflate data with
    | .error f => .error (.entry (.inflate f))
    | .ok out => .ok (out.extract 0 full)
  | method => (expand method data).map fun out => out.extract 0 full

section
variable (expand : Method → List UInt8 → Except Failure ByteArray)

/-- The content of an entry, `stop` being where its room ends. -/
def readContentOf (bytes : List UInt8) (l : DirectoryItem) (stop : Int) : Except Failure ByteArray :=
  let header := bytes.drop l.offset.toNat
  if l.offset < 0 then .error (.entry (.negativeOffset l.offset))
  else if header.length < 30 then .error (containerFailure .headerCut)
  else if numberAt header 0 4 ≠ 0x04034B50 then .error (containerFailure .headerMark)
  else
    let nameSize := numberAt header 26 2
    let dataPlace := 30 + nameSize + numberAt header 28 2
    let nameBytes := (header.drop 30).take nameSize
    if l.flags.testBit 5 then .error (.entry .patched)
    else if l.flags.testBit 6 then .error (.entry .stronglyEncrypted)
    else
      match decodeName ((numberAt header 6 2).testBit 11) nameBytes with
      | .error fault => .error (.entry (.nameBytes fault))
      | .ok name =>
        if name ≠ l.fullName then .error (containerFailure (.nameDiffers l.fullName nameBytes))
        else if stop < l.offset + dataPlace + l.packed then
          .error (containerFailure (.overlap l.fullName))
        else if l.flags.testBit 0 then .error (.entry (.encrypted l.name))
        else
          let data := (header.drop dataPlace).take l.packed
          match Method.ofCode? l.method with
          | none => .error (.entry .method)
          | some method =>
            match expandData expand method l.packed l.unpacked data with
            | .error f => .error f
            | .ok content =>
              if (checksum content.toList).toNat = l.checksum then .ok content
              else .error (containerFailure (.checksum l.name))

/-- The entries of the container that the bytes hold. -/
def read (bytes : ByteArray) : Except Failure (List Entry) := do
  let bytes := bytes.toList
  match readEnd bytes with
  | .error f => .error (containerFailure f)
  | .ok record =>
    let shift : Int := (record.place : Int) - record.size - record.offset - (if record.isWide then 76 else 0)
    let directory : Int := record.offset + shift
    if directory < 0 then .error (containerFailure .directoryOffset)
    else
      let listed := (bytes.drop directory.toNat).take record.size
      let listings ← readListings shift (record.size + 1) record.size listed
      let rooms := roomEnds directory listings
      listings.mapM fun l => do
        let last := (listings.reverse.find? (·.name = l.name)).getD l
        let stop := ((rooms.reverse.find? fun r => r.1 = last).map (·.2)).getD directory
        let content ← readContentOf expand bytes last stop
        return ⟨l.name, (Method.ofCode? l.method).getD .deflated, content⟩

end
end Gridfill.Archive

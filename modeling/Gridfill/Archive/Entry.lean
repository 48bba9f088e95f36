import Gridfill.Archive.Bits
import Gridfill.Text.Utf8

/-!
# The entries of containers

A container is a list of entries: a name, a content and the way in which the content is stored. One
name may occur several times; its content is then that of the last entry.
-/

namespace Gridfill.Archive

/-- The ways in which the content of an entry is stored. -/
inductive Method where
  | stored
  | deflated
  | bzip2
  | lzma
deriving DecidableEq, Repr

/-- The word for the way of storing. -/
def Method.word : Method → String
  | .stored => "stored"
  | .deflated => "deflated"
  | .bzip2 => "bzip2"
  | .lzma => "lzma"

/-- The way of storing with the given number. -/
def Method.ofCode? : Nat → Option Method
  | 0 => some .stored
  | 8 => some .deflated
  | 12 => some .bzip2
  | 14 => some .lzma
  | _ => none

/-- The way of storing that a word asks for; any other word asks for compression. -/
def Method.ofWord (word : String) : Method := if word = "stored" then .stored else .deflated

/-- An entry of a container. -/
structure Entry where
  name : String
  method : Method
  content : ByteArray

/-- The content of the last entry with the given name. -/
def lastContent? (entries : List Entry) (name : String) : Option ByteArray :=
  (entries.reverse.find? (·.name = name)).map (·.content)

/-- The number of bytes of a container that holds the entries as they are: the records in front of
each, those of the directory and the record at the end. -/
def packedSize (entries : List Entry) : Nat :=
  entries.foldl (fun n e => n + (76 + 2 * e.name.utf8ByteSize + e.content.size)) 22

/-! ### Names -/

/-- The characters for the bytes from 128 on in names that are not in UTF-8. -/
def upperCharacters : List Nat :=
  [199, 252, 233, 226, 228, 224, 229, 231, 234, 235, 232, 239, 238, 236, 196, 197, 201, 230, 198,
   244, 246, 242, 251, 249, 255, 214, 220, 162, 163, 165, 8359, 402, 225, 237, 243, 250, 241, 209,
   170, 186, 191, 8976, 172, 189, 188, 161, 171, 187, 9617, 9618, 9619, 9474, 9508, 9569, 9570,
   9558, 9557, 9571, 9553, 9559, 9565, 9564, 9563, 9488, 9492, 9524, 9516, 9500, 9472, 9532, 9566,
   9567, 9562, 9556, 9577, 9574, 9568, 9552, 9580, 9575, 9576, 9572, 9573, 9561, 9560, 9554, 9555,
   9579, 9578, 9496, 9484, 9608, 9604, 9612, 9616, 9600, 945, 223, 915, 960, 931, 963, 181, 964,
   934, 920, 937, 948, 8734, 966, 949, 8745, 8801, 177, 8805, 8804, 8992, 8993, 247, 8776, 176,
   8729, 183, 8730, 8319, 178, 9632, 160]

/-- The character for a byte of a name that is not in UTF-8. -/
def legacyChar (b : UInt8) : Char :=
  Char.ofNat (if b < 128 then b.toNat else (upperCharacters[b.toNat - 128]?).getD 0)

/-- The name that bytes spell. -/
def decodeName (isUtf8 : Bool) (bytes : List UInt8) : Except Text.Utf8Fault String :=
  if isUtf8 then
    match Text.utf8Fault? bytes with
    | some fault => .error fault
    | none => .ok ((String.fromUTF8? (ByteArray.mk bytes.toArray)).getD "")
  else .ok (String.ofList (bytes.map legacyChar))

/-- The name up to the first zero character, where the name of an entry ends. -/
def cutName (name : String) : String := String.ofList (name.toList.takeWhile (· ≠ '\x00'))

/-- The header of an entry has two bytes for the length of its name, which is written in UTF-8. -/
def fitsHeader (name : String) : Bool := name.utf8ByteSize < 65536

end Gridfill.Archive

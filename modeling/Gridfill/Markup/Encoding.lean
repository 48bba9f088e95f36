import Gridfill.Markup.Reader

/-!
# The bytes of documents

From bytes to characters. A byte order mark tells UTF-8 and the two orders of UTF-16 apart; without
one, the first line of the document names its encoding, and UTF-8 is meant when it names none. Bytes
that the encoding does not allow make the document unreadable.
-/

namespace Gridfill.Markup

/-- The encodings that a document may name in its first line. -/
inductive Encoding where
  | utf8
  | ascii
  | latin1
deriving DecidableEq, Repr

/-- The encoding with the given name, whatever the case of its letters. -/
def Encoding.named? (name : String) : Option Encoding :=
  let n := name.toLower
  if ["utf-8", "utf8"].contains n then some .utf8
  else if ["ascii", "us-ascii", "us", "iso646-us", "ansi_x3.4-1968"].contains n then some .ascii
  else if ["iso-8859-1", "iso8859-1", "iso_8859-1", "latin1", "latin-1", "l1"].contains n then
    some .latin1
  else none

/-- The characters of bytes in an encoding. -/
def Encoding.decode? (bytes : ByteArray) : Encoding → Option (List Char)
  | .utf8 => (String.fromUTF8? bytes).map (·.toList)
  | .ascii =>
    if bytes.toList.all (· < 128) then some (bytes.toList.map fun b => Char.ofNat b.toNat) else none
  | .latin1 => some (bytes.toList.map fun b => Char.ofNat b.toNat)

/-- The sixteen-bit units of bytes, the more significant byte first or last. -/
def units16 (bigEndian : Bool) : List UInt8 → Option (List Nat)
  | [] => some []
  | [_] => none
  | a :: b :: rest =>
    let n := if bigEndian then a.toNat * 256 + b.toNat else b.toNat * 256 + a.toNat
    (units16 bigEndian rest).map (n :: ·)

/-- The characters of sixteen-bit units; characters beyond the first plane take a pair of them. -/
def charsOfUnits : List Nat → Option (List Char)
  | [] => some []
  | a :: rest =>
    if 0xD800 ≤ a && a < 0xDC00 then
      match rest with
      | b :: rest =>
        if 0xDC00 ≤ b && b < 0xE000 then
          (charsOfUnits rest).map (Char.ofNat (0x10000 + (a - 0xD800) * 1024 + (b - 0xDC00)) :: ·)
        else none
      | [] => none
    else if 0xDC00 ≤ a && a < 0xE000 then none
    else (charsOfUnits rest).map (Char.ofNat a :: ·)

/-- The characters of bytes in UTF-16. -/
def decodeUtf16? (bigEndian : Bool) (bytes : List UInt8) : Option (List Char) :=
  (units16 bigEndian bytes).bind charsOfUnits

/-- The encoding that the first line names, as far as the bytes can be read without knowing it. -/
def namedEncoding (bytes : List UInt8) : Option String :=
  let cs := (bytes.takeWhile fun b => b ≠ 62).map fun b => Char.ofNat b.toNat
  if hasDeclaration cs then (readSettings (cs.drop 5 ++ ['>'])).bind (·.1.encoding) else none

/-- The characters of the bytes of a document. -/
def decodeDocument? (bytes : ByteArray) : Option (List Char) :=
  match bytes.toList.take 4 with
  | 0xEF :: 0xBB :: 0xBF :: _ => Encoding.utf8.decode? (bytes.extract 3 bytes.size)
  | 0xFF :: 0xFE :: _ => decodeUtf16? false (bytes.toList.drop 2)
  | 0xFE :: 0xFF :: _ => decodeUtf16? true (bytes.toList.drop 2)
  | [0x3C, 0, 0x3F, 0] => decodeUtf16? false bytes.toList
  | [0, 0x3C, 0, 0x3F] => decodeUtf16? true bytes.toList
  | _ =>
    match namedEncoding bytes.toList with
    | none => Encoding.utf8.decode? bytes
    | some name => (Encoding.named? name).bind (·.decode? bytes)

/-- The root of the document that the bytes hold. -/
def readBytes? (bytes : ByteArray) : Option Element := (decodeDocument? bytes).bind readDocument

end Gridfill.Markup

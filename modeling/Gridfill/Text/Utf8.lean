/-!
# Faults in UTF-8

Where bytes stop being UTF-8 and why. The first byte of a character tells how many bytes follow it and
narrows down the one behind it, so that no character has two spellings and no half of a pair of
sixteen-bit units has any. A fault is a byte that begins no character, a character that another byte
cuts short, or one that the end of the bytes cuts short.
-/

namespace Gridfill.Text

/-- What is wrong with bytes that should be UTF-8. -/
inductive Utf8Flaw where
  | start
  | continuation
  | unfinished
deriving DecidableEq, Repr

/-- The words for the flaw. -/
def Utf8Flaw.reason : Utf8Flaw → String
  | .start => "invalid start byte"
  | .continuation => "invalid continuation byte"
  | .unfinished => "unexpected end of data"

/-- The bytes of the first broken character, their place and what is wrong with them. -/
structure Utf8Fault where
  found : List UInt8
  place : Nat
  flaw : Utf8Flaw
deriving DecidableEq, Repr

/-- What a first byte asks for: the number of bytes that follow, and the least and the greatest value
of the byte behind it. -/
structure Utf8Lead where
  more : Nat
  low : UInt8
  high : UInt8
deriving DecidableEq, Repr

/-- What a byte asks for when it begins a character. -/
def utf8Lead? (b : UInt8) : Option Utf8Lead :=
  if b < 0x80 then some ⟨0, 0x80, 0xBF⟩
  else if b < 0xC2 then none
  else if b < 0xE0 then some ⟨1, 0x80, 0xBF⟩
  else if b < 0xF0 then
    some ⟨2, if b = 0xE0 then 0xA0 else 0x80, if b = 0xED then 0x9F else 0xBF⟩
  else if b < 0xF5 then
    some ⟨3, if b = 0xF0 then 0x90 else 0x80, if b = 0xF4 then 0x8F else 0xBF⟩
  else none

/-- How many of the bytes in front continue a character that wants as many more. -/
def utf8Continued : Nat → UInt8 → UInt8 → List UInt8 → Nat
  | 0, _, _, _ => 0
  | _ + 1, _, _, [] => 0
  | more + 1, low, high, b :: bs =>
    if low ≤ b && b ≤ high then utf8Continued more 0x80 0xBF bs + 1 else 0

/-- The first fault of bytes that begin at a place. -/
def utf8FaultFrom? (place : Nat) : List UInt8 → Option Utf8Fault
  | [] => none
  | b :: bs =>
    match utf8Lead? b with
    | none => some ⟨[b], place, .start⟩
    | some lead =>
      let size := utf8Continued lead.more lead.low lead.high bs
      if size = lead.more then utf8FaultFrom? (place + lead.more + 1) (bs.drop lead.more)
      else
        some ⟨b :: bs.take size, place, if size = bs.length then .unfinished else .continuation⟩
termination_by bytes => bytes.length
decreasing_by
  rw [List.length_drop, List.length_cons]
  omega

/-- The first fault of bytes that should be UTF-8. -/
def utf8Fault? (bytes : List UInt8) : Option Utf8Fault := utf8FaultFrom? 0 bytes

end Gridfill.Text

import Gridfill.Archive.Bits
import Gridfill.Failure

/-!
# Expanding compressed data

The data is a sequence of blocks, each stored verbatim or written in a pair of codes: one for bytes
and lengths, one for distances. A length and a distance stand for a piece of what has been expanded so
far. Codes are given by the lengths of their words, words of one length being consecutive numbers in
the order of their symbols.

Data that ends early expands to what it holds so far; only data that breaks a rule is a fault.
-/

namespace Gridfill.Archive

/-! ### Codes -/

/-- A code: for each word length from one on, the symbols with words of that length. -/
abbrev Code := List (List Nat)

/-- The longest word of a code. -/
def maxWord : Nat := 15

/-- The code whose symbol `s` has a word of length `lengths[s]`, or no word when that is zero. -/
def codeOf (lengths : List Nat) : Code :=
  (List.range maxWord).map fun n => (lengths.zipIdx.filter fun p => p.1 = n + 1).map (·.2)

/-- How many words of the greatest length are left when the code has all its words; negative when it
has too many words. -/
def spareWords (code : Code) : Int :=
  code.foldl (fun left symbols => 2 * left - symbols.length) 1

/-- Has the code words of length one only? -/
def isSingleBit (code : Code) : Bool := code.tail.all (·.isEmpty)

/-- Is the code usable: no word too many and, unless it is as good as empty, none too few? -/
def isComplete (strict : Bool) (code : Code) : Bool :=
  let spare := spareWords code
  code.all (·.isEmpty) || spare = 0 || (0 < spare && !strict && isSingleBit code)

/-- What came of reading one symbol. -/
inductive Decoded where
  | symbol (s : Nat) (rest : Bits)
  | cut
  | invalid

/-- Reads one symbol: `word` is the number read so far and `first` the first word of the length. -/
def decodeFrom : Code → Nat → Nat → Bits → Decoded
  | [], _, _, _ => .invalid
  | _ :: _, _, _, [] => .cut
  | symbols :: longer, word, first, b :: bits =>
    let word := word + b.toNat
    if word < first + symbols.length then
      match symbols[word - first]? with
      | some s => .symbol s bits
      | none => .invalid
    else decodeFrom longer (2 * word) (2 * (first + symbols.length)) bits

/-- Reads one symbol of a code. -/
def decode (code : Code) (bits : Bits) : Decoded := decodeFrom code 0 0 bits

/-! ### Blocks -/

/-- The least length of a copied piece for each length symbol, and the number of further bits. -/
def lengthTable : List (Nat × Nat) :=
  [(3, 0), (4, 0), (5, 0), (6, 0), (7, 0), (8, 0), (9, 0), (10, 0), (11, 1), (13, 1), (15, 1), (17, 1),
   (19, 2), (23, 2), (27, 2), (31, 2), (35, 3), (43, 3), (51, 3), (59, 3), (67, 4), (83, 4), (99, 4),
   (115, 4), (131, 5), (163, 5), (195, 5), (227, 5), (258, 0)]

/-- The least distance for each distance symbol, and the number of further bits. -/
def distanceTable : List (Nat × Nat) :=
  [(1, 0), (2, 0), (3, 0), (4, 0), (5, 1), (7, 1), (9, 2), (13, 2), (17, 3), (25, 3), (33, 4), (49, 4),
   (65, 5), (97, 5), (129, 6), (193, 6), (257, 7), (385, 7), (513, 8), (769, 8), (1025, 9), (1537, 9),
   (2049, 10), (3073, 10), (4097, 11), (6145, 11), (8193, 12), (12289, 12), (16385, 13), (24577, 13)]

/-- What is expanded so far, and the bits that are left; no bits when the data ended early. -/
structure Progress where
  output : ByteArray
  rest : Option Bits

/-- The byte at a distance from the end of the output. -/
def byteBack (distance : Nat) (out : ByteArray) : UInt8 :=
  if h : out.size - distance < out.size then out[out.size - distance] else 0

/-- Appends a piece of the output to itself, byte by byte. -/
def copyBack (distance : Nat) : Nat → ByteArray → ByteArray
  | 0, out => out
  | n + 1, out => copyBack distance n (out.push (byteBack distance out))

/-- Expands symbols up to the end of the block. -/
def expandCodes (literals distances : Code) :
    Nat → ByteArray → Bits → Except InflateFault Progress
  | 0, out, _ => .ok ⟨out, none⟩
  | fuel + 1, out, bits =>
    match decode literals bits with
    | .cut => .ok ⟨out, none⟩
    | .invalid => .error .literalCode
    | .symbol s bits =>
      if s < 256 then expandCodes literals distances fuel (out.push s.toUInt8) bits
      else if s = 256 then .ok ⟨out, some bits⟩
      else
        match lengthTable[s - 257]? with
        | none => .error .literalCode
        | some (base, extra) =>
          match takeNumber extra bits with
          | none => .ok ⟨out, none⟩
          | some (more, bits) =>
            match decode distances bits with
            | .cut => .ok ⟨out, none⟩
            | .invalid => .error .distanceCode
            | .symbol d bits =>
              match distanceTable[d]? with
              | none => .error .distanceCode
              | some (near, extra) =>
                match takeNumber extra bits with
                | none => .ok ⟨out, none⟩
                | some (far, bits) =>
                  if out.size < near + far then .error .distanceTooFar
                  else
                    expandCodes literals distances fuel (copyBack (near + far) (base + more) out) bits

/-- The code for bytes and lengths of blocks that do not bring their own. -/
def fixedLiterals : Code :=
  codeOf (List.replicate 144 8 ++ List.replicate 112 9 ++ List.replicate 24 7 ++ List.replicate 8 8)

/-- The code for distances of blocks that do not bring their own. -/
def fixedDistances : Code := codeOf (List.replicate 32 5)

/-- The bytes of a stretch of bits, as many as are whole. -/
def wholeBytes : Nat → ByteArray → Bits → ByteArray × Option Bits
  | 0, out, bits => (out, some bits)
  | n + 1, out, bits =>
    match takeNumber 8 bits with
    | none => (out, none)
    | some (b, bits) => wholeBytes n (out.push b.toUInt8) bits

/-- Expands a block that is stored verbatim; it begins at a whole byte. -/
def expandStored (out : ByteArray) (bits : Bits) : Except InflateFault Progress :=
  match takeNumber 16 (bits.drop (bits.length % 8)) with
  | none => .ok ⟨out, none⟩
  | some (size, bits) =>
    match takeNumber 16 bits with
    | none => .ok ⟨out, none⟩
    | some (check, bits) =>
      if size + check = 0xFFFF then
        let r := wholeBytes size out bits
        .ok ⟨r.1, r.2⟩
      else .error .storedLengths

/-- The order in which the word lengths of the code for word lengths are written. -/
def lengthOrder : List Nat := [16, 17, 18, 0, 8, 7, 9, 6, 10, 5, 11, 4, 12, 3, 13, 2, 14, 1, 15]

/-- Reads numbers of three bits. -/
def takeTriples : Nat → Bits → Option (List Nat × Bits)
  | 0, bits => some ([], bits)
  | n + 1, bits => do
    let (t, bits) ← takeNumber 3 bits
    let (ts, bits) ← takeTriples n bits
    return (t :: ts, bits)

/-- Reads `count` word lengths in the code for word lengths, `done` being those read so far in
reverse. Three symbols repeat the last length or zero. -/
def readLengths (code : Code) (count : Nat) :
    Nat → List Nat → Bits → Except InflateFault (Option (List Nat × Bits))
  | 0, _, _ => .ok none
  | fuel + 1, done, bits =>
    if count ≤ done.length then .ok (some (done.reverse, bits))
    else
      match decode code bits with
      | .cut => .ok none
      | .invalid => .error .codeLengths
      | .symbol s bits =>
        if s < 16 then readLengths code count fuel (s :: done) bits
        else
          let (base, extra) := if s = 16 then (3, 2) else if s = 17 then (3, 3) else (11, 7)
          match takeNumber extra bits with
          | none => .ok none
          | some (more, bits) =>
            let value? := if s = 16 then done.head? else some 0
            match value? with
            | none => .error .lengthRepeat
            | some value =>
              if count < done.length + base + more then .error .lengthRepeat
              else readLengths code count fuel (List.replicate (base + more) value ++ done) bits

/-- Reads the two codes that a block brings. -/
def readCodes (bits : Bits) : Except InflateFault (Option (Code × Code × Bits)) :=
  match takeNumber 14 bits with
  | none => .ok none
  | some (sizes, bits) =>
    let literalCount := sizes % 32 + 257
    let distanceCount := sizes / 32 % 32 + 1
    let lengthCount := sizes / 1024 + 4
    if 286 < literalCount || 30 < distanceCount then .error .tooManySymbols
    else
      match takeTriples lengthCount bits with
      | none => .ok none
      | some (triples, bits) =>
        let written := lengthOrder.zip triples
        let code := codeOf ((List.range 19).map fun s => (written.lookup s).getD 0)
        if !isComplete true code then .error .codeLengths
        else if code.all (·.isEmpty) then .error .noEndOfBlock
        else
          match readLengths code (literalCount + distanceCount) (bits.length + 1) [] bits with
          | .error f => .error f
          | .ok none => .ok none
          | .ok (some (lengths, bits)) =>
            let literals := codeOf (lengths.take literalCount)
            let distances := codeOf (lengths.drop literalCount)
            if lengths[256]? = some 0 then .error .noEndOfBlock
            else if !isComplete false literals then .error .literalSet
            else if !isComplete false distances then .error .distanceSet
            else .ok (some (literals, distances, bits))

/-- Expands blocks up to the last one. -/
def expandBlocks : Nat → ByteArray → Bits → Except InflateFault ByteArray
  | 0, out, _ => .ok out
  | fuel + 1, out, bits =>
    match takeNumber 3 bits with
    | none => .ok out
    | some (header, bits) =>
      let block : Except InflateFault Progress :=
        match header / 2 with
        | 0 => expandStored out bits
        | 1 => expandCodes fixedLiterals fixedDistances (bits.length + 1) out bits
        | 2 =>
          match readCodes bits with
          | .error f => .error f
          | .ok none => .ok ⟨out, none⟩
          | .ok (some (literals, distances, bits)) =>
            expandCodes literals distances (bits.length + 1) out bits
        | _ => .error .blockType
      match block with
      | .error f => .error f
      | .ok ⟨out, none⟩ => .ok out
      | .ok ⟨out, some bits⟩ => if header % 2 = 1 then .ok out else expandBlocks fuel out bits

/-- Expands compressed data. -/
def inflate (bytes : List UInt8) : Except InflateFault ByteArray :=
  let bits := bitsOf bytes
  expandBlocks (bits.length + 1) ByteArray.empty bits

end Gridfill.Archive

import Gridfill.Markup.Encoding

/-!
# Documents in UTF-8

A document whose text begins with the tag of an element names no encoding and has no byte order mark, so its
bytes in UTF-8 are read as that text (`readBytes?_toUTF8`).
-/

namespace Gridfill.Markup

/-! ### Bytes as a list -/

theorem toList_loop (bytes : ByteArray) (i : Nat) (r : List UInt8) :
    ByteArray.toList.loop bytes i r = r.reverse ++ bytes.data.toList.drop i := by
  unfold ByteArray.toList.loop
  split
  · next hi =>
    have hi' : i < bytes.data.toList.length := by
      rw [Array.length_toList]
      exact hi
    have get : bytes.get! i = bytes.data.toList[i] := by
      rw [ByteArray.get!, getElem!_pos bytes.data i hi, Array.getElem_toList]
    rw [toList_loop bytes (i + 1), List.drop_eq_getElem_cons hi', get, List.reverse_cons, List.append_assoc]
    rfl
  · next hi =>
    rw [List.drop_eq_nil_of_le, List.append_nil]
    rw [Array.length_toList]
    exact Nat.le_of_not_lt hi
termination_by bytes.size - i

theorem toList_eq (bytes : ByteArray) : bytes.toList = bytes.data.toList := by
  rw [ByteArray.toList, toList_loop, List.reverse_nil, List.nil_append, List.drop_zero]

/-- The bytes of a text in UTF-8 are those of its characters. -/
theorem toList_utf8Encode : ∀ cs : List Char, cs.utf8Encode.toList = cs.flatMap String.utf8EncodeChar
  | [] => by rw [List.utf8Encode_nil, ByteArray.toList_empty, List.flatMap_nil]
  | c :: cs => by
      have ih := toList_utf8Encode cs
      rw [toList_eq] at ih ⊢
      rw [List.utf8Encode_cons, ByteArray.toList_data_append, List.utf8Encode_singleton,
        List.toList_data_toByteArray, ih, List.flatMap_cons]

/-- A character of the first half of a byte's range is written as one byte. -/
theorem utf8EncodeChar_of_lt {c : Char} (h : c.toNat < 128) :
    String.utf8EncodeChar c = [UInt8.ofNat c.toNat] := by
  have size : c.utf8Size = 1 := by
    rw [Char.utf8Size_eq_one_iff]
    exact UInt32.le_iff_toNat_le.mpr (Nat.le_of_lt_succ h)
  rw [String.utf8EncodeChar_eq_singleton size]
  rfl

/-! ### Reading the text -/

theorem decode?_toUTF8 (s : String) : Encoding.utf8.decode? s.toUTF8 = some s.toList := by
  have valid : s.toUTF8.IsValidUTF8 := s.isValidUTF8
  rw [Encoding.decode?, String.fromUTF8?, dif_pos valid]
  rfl

/-- Does the text begin with the tag of an element? -/
def beginsWithTag : List Char → Bool
  | '<' :: c :: _ => 63 < c.toNat && c.toNat < 128
  | _ => false

/-- A document that begins with the tag of an element is read from its bytes in UTF-8 as from its text. -/
theorem readBytes?_toUTF8 {s : String} {cs : List Char} (hs : s = String.ofList cs)
    (hcs : beginsWithTag cs = true) : readBytes? s.toUTF8 = readDocument cs := by
  obtain ⟨c, rest, rfl, h1, h2⟩ : ∃ c rest, cs = '<' :: c :: rest ∧ 63 < c.toNat ∧ c.toNat < 128 := by
    unfold beginsWithTag at hcs
    split at hcs
    · next c rest =>
      rw [Bool.and_eq_true, decide_eq_true_eq, decide_eq_true_eq] at hcs
      exact ⟨c, rest, rfl, hcs⟩
    · cases hcs
  have bytes : s.toUTF8.toList = 60 :: UInt8.ofNat c.toNat :: rest.flatMap String.utf8EncodeChar := by
    rw [hs, String.toUTF8_eq_toByteArray, String.toByteArray_ofList, toList_utf8Encode,
      List.flatMap_cons, List.flatMap_cons, utf8EncodeChar_of_lt h2]
    rfl
  have byte : (UInt8.ofNat c.toNat).toNat = c.toNat :=
    UInt8.toNat_ofNat_of_lt (Nat.lt_trans h2 (by decide))
  have above {n : Nat} (hn : n < 64) : UInt8.ofNat c.toNat ≠ UInt8.ofNat n := by
    intro e
    have value : (UInt8.ofNat n).toNat = n := UInt8.toNat_ofNat_of_lt (Nat.lt_trans hn (by decide))
    have := congrArg UInt8.toNat e
    rw [byte, value] at this
    omega
  have unnamed : namedEncoding s.toUTF8.toList = none := by
    have mark : '?' ≠ c := by
      rintro rfl
      exact absurd h1 (by decide)
    have named : c = Char.ofNat (UInt8.ofNat c.toNat).toNat := by rw [byte, Char.ofNat_toNat]
    have taken : (60 :: UInt8.ofNat c.toNat :: rest.flatMap String.utf8EncodeChar).takeWhile
        (fun b => decide (b ≠ 62)) = 60 :: UInt8.ofNat c.toNat ::
          (rest.flatMap String.utf8EncodeChar).takeWhile fun b => decide (b ≠ 62) := by
      rw [List.takeWhile_cons_of_pos (by decide), List.takeWhile_cons_of_pos]
      exact decide_eq_true (above (n := 62) (by decide))
    rw [namedEncoding, bytes, taken, List.map_cons, List.map_cons, ← named, if_neg]
    simp [hasDeclaration, Text.dropLead?, mark]
  have decoded : decodeDocument? s.toUTF8 = some ('<' :: c :: rest) := by
    have zero := above (n := 0) (by decide)
    have utf8 := decode?_toUTF8 s
    rw [hs, String.toList_ofList] at utf8
    rw [decodeDocument?]
    split
    · next e => rw [bytes] at e; cases e
    · next e => rw [bytes] at e; cases e
    · next e => rw [bytes] at e; cases e
    · next e =>
      rw [bytes] at e
      injection e with _ e
      injection e with e _
      exact absurd e zero
    · next e => rw [bytes] at e; cases e
    · rw [unnamed, hs]
      exact utf8
  rw [readBytes?, decoded, Option.bind_some]

/-- The characters of two texts one after the other. -/
theorem ofList_append {s t : String} {cs ds : List Char} (hs : s = String.ofList cs)
    (ht : t = String.ofList ds) : s ++ t = String.ofList (cs ++ ds) := by
  rw [hs, ht, String.ofList_append]

/-- A document that reads, as a text with its characters that begins with the tag of an element. -/
structure Document where
  text : String
  chars : List Char
  text_eq : text = String.ofList chars
  tagged : beginsWithTag chars = true
  reads : (readDocument chars).isSome = true

/-- The root of a document. -/
def Document.root (d : Document) : Element := (readDocument d.chars).get d.reads

theorem Document.readBytes?_eq (d : Document) : readBytes? d.text.toUTF8 = some d.root := by
  rw [readBytes?_toUTF8 d.text_eq d.tagged, Document.root, Option.some_get]

end Gridfill.Markup

import Gridfill.Archive.Entry
import Gridfill.Package.PartName
import Gridfill.Package.Vocabulary
import Mathlib.Data.List.DropRight

/-!
# Names of relationship parts

The part with the relationships of a part begins as the part does, or with the directory that it lies in, and
ends in `.rels`. So its entry has a name when the part has one, and it is never the part with the content types.
Whether the name of an entry fits into its header goes by its bytes.
-/

namespace Gridfill

namespace PartName

theorem cutFile_join (path : List Char) : (cutFile path).1 ++ (cutFile path).2 = path := by
  have join := Text.cutAtLast_join '/' path
  unfold cutFile
  split
  · next h => rwa [h] at join
  · next h => rwa [h] at join

theorem trimSlashes_cons (c : Char) (cs : List Char) : ∃ ds, trimSlashes (c :: cs) = c :: ds := by
  unfold trimSlashes
  split
  · exact ⟨cs, rfl⟩
  · next h =>
    have kept : ((c :: cs).rdropWhile (· = '/')) ≠ [] := by
      rw [Ne, List.rdropWhile_eq_nil_iff]
      exact fun all => h (List.all_eq_true.mpr all)
    obtain ⟨d, ds, hd⟩ := List.exists_cons_of_ne_nil kept
    have front : (c :: cs).rdropWhile (· = '/') <+: c :: cs := List.rdropWhile_prefix _ _
    rw [hd, List.cons_prefix_cons] at front
    exact ⟨ds, front.1 ▸ hd⟩

/-- A path behind a directory that is not empty begins as the directory does, or it stands alone. -/
theorem joinChars_cons (c : Char) (cs path : List Char) :
    (∃ ds, joinChars (c :: cs) path = c :: ds) ∨ ∃ ds, joinChars (c :: cs) path = '/' :: ds := by
  unfold joinChars
  split
  · next h =>
    cases path with
    | nil => cases h
    | cons d ds => exact Or.inr ⟨ds, by rw [Option.some.inj h]⟩
  · split
    · exact Or.inl ⟨cs ++ path, rfl⟩
    · exact Or.inl ⟨cs ++ '/' :: path, rfl⟩

theorem suffix_joinChars (directory path : List Char) : path <:+ joinChars directory path := by
  unfold joinChars
  split
  · exact List.suffix_rfl
  · split
    · exact List.suffix_append directory path
    · exact ⟨directory ++ ['/'], by simp⟩

/-- The first character of the name of a relationship part. -/
theorem head?_relationships (part : String) : ∃ c, (relationships part).toList.head? = some c ∧
    (c = '/' ∨ c = '_' ∨ part.toList.head? = some c) := by
  unfold relationships
  have join := cutFile_join part.toList
  generalize cutFile part.toList = cut at join
  obtain ⟨front, file⟩ := cut
  simp only [String.toList_ofList] at join ⊢
  cases front with
  | nil =>
      have directory : joinChars (trimSlashes []) "_rels".toList = '_' :: "rels".toList := by decide
      rw [directory]
      rcases joinChars_cons '_' "rels".toList (file ++ ".rels".toList) with ⟨ds, h⟩ | ⟨ds, h⟩
      · exact ⟨'_', by rw [h]; rfl, by simp⟩
      · exact ⟨'/', by rw [h]; rfl, by simp⟩
  | cons c cs =>
      obtain ⟨ds, htrim⟩ := trimSlashes_cons c cs
      have directory : ∃ es, joinChars (c :: ds) "_rels".toList = c :: es := by
        unfold joinChars
        rw [if_neg (by decide)]
        split
        · exact ⟨ds ++ "_rels".toList, rfl⟩
        · exact ⟨ds ++ '/' :: "_rels".toList, rfl⟩
      obtain ⟨es, hdirectory⟩ := directory
      rw [htrim, hdirectory]
      rcases joinChars_cons c es (file ++ ".rels".toList) with ⟨ds, h⟩ | ⟨ds, h⟩
      · exact ⟨c, by rw [h]; rfl, Or.inr (Or.inr (by rw [← join]; rfl))⟩
      · exact ⟨'/', by rw [h]; rfl, by simp⟩

theorem suffix_relationships (part : String) : ".rels".toList <:+ (relationships part).toList := by
  unfold relationships
  generalize cutFile part.toList = cut
  obtain ⟨front, file⟩ := cut
  simp only [String.toList_ofList]
  exact (List.suffix_append file ".rels".toList).trans (suffix_joinChars _ _)

theorem relationships_ne_contentTypesPart (part : String) :
    relationships part ≠ Vocabulary.contentTypesPart := by
  intro h
  have other : ¬ ".rels".toList <:+ Vocabulary.contentTypesPart.toList := by decide +kernel
  exact other (h ▸ suffix_relationships part)

end PartName

namespace Archive

theorem size_utf8Encode_replicate (c : Char) : ∀ n, (List.replicate n c).utf8Encode.size = n * c.utf8Size
  | 0 => by
      rw [List.replicate_zero, List.utf8Encode_nil, Nat.zero_mul]
      rfl
  | n + 1 => by
      have one : [c].utf8Encode.size = c.utf8Size := by
        rw [← String.toByteArray_singleton, String.size_toByteArray, String.utf8ByteSize_singleton]
      rw [List.replicate_succ, List.utf8Encode_cons, ByteArray.size_append, one, size_utf8Encode_replicate c n,
        Nat.add_mul, Nat.one_mul, Nat.add_comm]

/-- A name fits by its bytes, of which a character may take several. -/
theorem fitsHeader_replicate (c : Char) (n : Nat) :
    fitsHeader (String.ofList (List.replicate n c)) = decide (n * c.utf8Size < 65536) := by
  rw [fitsHeader, ← String.size_toByteArray, String.toByteArray_ofList, size_utf8Encode_replicate]

theorem cutName_cutName (name : String) : cutName (cutName name) = cutName name := by
  simp only [cutName, String.toList_ofList, List.takeWhile_idem]

/-- The name of an entry is empty when it begins with the character that ends it, or with nothing. -/
theorem cutName_ne_empty_iff {name : String} :
    cutName name ≠ "" ↔ ∃ c, name.toList.head? = some c ∧ c ≠ '\x00' := by
  rw [cutName, Ne, String.ofList_eq_empty_iff]
  cases h : name.toList with
  | nil => simp
  | cons c cs => by_cases hc : c = '\x00' <;> simp [hc]

/-- The relationships of a part have a name for their entry when the part has one. -/
theorem cutName_relationships {part : String} (h : cutName part ≠ "") :
    cutName (PartName.relationships part) ≠ "" := by
  obtain ⟨d, hd, named⟩ := cutName_ne_empty_iff.mp h
  obtain ⟨c, hc, own⟩ := PartName.head?_relationships part
  refine cutName_ne_empty_iff.mpr ⟨c, hc, ?_⟩
  rcases own with rfl | rfl | own
  · decide
  · decide
  · obtain rfl := Option.some.inj (own.symm.trans hd)
    exact named

end Archive
end Gridfill

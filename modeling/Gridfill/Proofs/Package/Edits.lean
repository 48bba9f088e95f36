import Gridfill.Proofs.Package.PartName
import Gridfill.Proofs.Package.Writing
import Mathlib.Data.List.Nodup

/-!
# Packages over any run of edits

A package is read from a container and then edited: parts are written, also as documents, and removed. What it
holds under a name is what the last edit of that name has left (`find?_editAll`). The container that it is written
as lists the parts that it holds: first those of the source, in their order and each once, then the parts that came
later, each with its content (`entries_after_edits`).

A part that came later is listed as often as it has come in (`arrivals`). So it stands there twice when it was
removed and then written again, and this is the only way in which a part is listed twice.
-/

namespace Gridfill

open Archive (Entry Method)

namespace Package

/-! ### Edits -/

/-- An edit of a package. -/
inductive Edit where
  | write (name : String) (content : ByteArray)
  | writeDocument (name : String) (root : Markup.Element)
  | remove (name : String)

namespace Edit

/-- The name of the part that is edited. -/
def name : Edit → String
  | .write name _ => name
  | .writeDocument name _ => name
  | .remove name => name

/-- The content that the part is given, if it is not removed. -/
def content? : Edit → Option ByteArray
  | .write _ content => some content
  | .writeDocument _ root => some root.toBytes
  | .remove _ => none

/-- What the edit leaves under a name, `before` being what was there. -/
def leaves (e : Edit) (name : String) (before : Option ByteArray) : Option ByteArray :=
  if e.name = name then e.content? else before

end Edit

/-- The package after an edit. -/
def edit (p : Package) : Edit → Package
  | .write name content => p.write name content
  | .writeDocument name root => p.writeDocument name root
  | .remove name => p.remove name

/-- The package after edits, one after the other. -/
def editAll (p : Package) (es : List Edit) : Package := es.foldl edit p

/-- What edits leave under a name, one after the other. -/
def leftBy (name : String) : List Edit → Option ByteArray → Option ByteArray
  | [], before => before
  | e :: es, before => leftBy name es (e.leaves name before)

/-- How often edits bring in a part: how often it is there after an edit and was not before. -/
def arrivals (name : String) : List Edit → Option ByteArray → Nat
  | [], _ => 0
  | e :: es, before =>
    (if before.isNone && (e.leaves name before).isSome then 1 else 0) + arrivals name es (e.leaves name before)

/-! ### One edit -/

/-- An edit gives its part a content, or takes it away. -/
theorem edit_cases (p : Package) (e : Edit) :
    (∃ content, e.content? = some content ∧ p.edit e = p.write e.name content) ∨
    (e.content? = none ∧ p.edit e = p.remove e.name) := by
  cases e with
  | write name content => exact .inl ⟨content, rfl, rfl⟩
  | writeDocument name root => exact .inl ⟨root.toBytes, rfl, rfl⟩
  | remove name => exact .inr ⟨rfl, rfl⟩

section
variable (p : Package) (e : Edit) (name : String)

theorem find?_edit : (p.edit e).find? name = e.leaves name (p.find? name) := by
  unfold Edit.leaves
  rcases edit_cases p e with ⟨content, hc, he⟩ | ⟨hc, he⟩
  · rw [hc, he]
    split
    · next h => rw [h, find?_write]
    · next h => exact find?_write_ne p content (Ne.symm h)
  · rw [hc, he]
    split
    · next h => rw [h, find?_remove]
    · next h => exact find?_remove_ne p (Ne.symm h)

theorem source_edit : (p.edit e).source = p.source := by
  rcases edit_cases p e with ⟨content, -, he⟩ | ⟨-, he⟩
  · rw [he]
    rfl
  · rw [he]
    rfl

/-- A name is remembered as written when the edit writes it, or when it was and the edit is of another part. -/
theorem mem_written_edit :
    name ∈ (p.edit e).written ↔ if e.name = name then e.content?.isSome = true else name ∈ p.written := by
  rcases edit_cases p e with ⟨content, hc, he⟩ | ⟨hc, he⟩
  · rw [he, hc, mem_written_write]
    split
    · next h => simp [h]
    · next h => simp [Ne.symm h]
  · rw [he, hc]
    show name ∈ p.written.filter (· ≠ e.name) ↔ _
    rw [List.mem_filter]
    split
    · next h => simp [h]
    · next h => simp [Ne.symm h]

/-- An edit that brings in a part puts its name behind those that came in before. -/
theorem count_added_edit : (p.edit e).added.count name = p.added.count name +
    if (p.find? name).isNone && (e.leaves name (p.find? name)).isSome then 1 else 0 := by
  unfold Edit.leaves
  rcases edit_cases p e with ⟨content, hc, he⟩ | ⟨hc, he⟩
  · rw [he, hc]
    show (if p.has e.name then p.added else p.added ++ [e.name]).count name = _
    rw [has]
    by_cases h : e.name = name
    · subst h
      cases p.find? e.name with
      | none => simp
      | some before => simp
    · have other : (if (p.find? name).isNone && (p.find? name).isSome then 1 else 0) = 0 := by
        cases p.find? name <;> rfl
      rw [if_neg h, other]
      split
      · rfl
      · rw [List.count_append, List.count_singleton, if_neg (by simpa using h)]
  · rw [he, hc]
    show p.added.count name = _
    split
    · simp
    · cases p.find? name <;> rfl

end

/-! ### Runs of edits -/

section
variable {p : Package} {name : String}

theorem find?_editAll (p : Package) (es : List Edit) (name : String) :
    (p.editAll es).find? name = leftBy name es (p.find? name) := by
  induction es generalizing p with
  | nil => rfl
  | cons e es ih =>
      rw [leftBy, ← find?_edit]
      exact ih (p.edit e)

theorem source_editAll (p : Package) (es : List Edit) : (p.editAll es).source = p.source := by
  induction es generalizing p with
  | nil => rfl
  | cons e es ih => exact (ih (p.edit e)).trans (source_edit p e)

/-- The names that are remembered as written are those that the edits leave something under, whatever `before`
stands for what was written earlier. -/
theorem mem_written_editAll {es : List Edit} {before : Option ByteArray}
    (h : name ∈ p.written ↔ before.isSome = true) :
    name ∈ (p.editAll es).written ↔ (leftBy name es before).isSome = true := by
  induction es generalizing p before with
  | nil => exact h
  | cons e es ih =>
      have step : name ∈ (p.edit e).written ↔ (e.leaves name before).isSome = true := by
        refine (mem_written_edit p e name).trans ?_
        rw [Edit.leaves]
        split
        · rfl
        · exact h
      exact ih step

/-- The names that came in are listed as often as they have come in. -/
theorem count_added_editAll (p : Package) (es : List Edit) (name : String) :
    (p.editAll es).added.count name = p.added.count name + arrivals name es (p.find? name) := by
  induction es generalizing p with
  | nil => rfl
  | cons e es ih =>
      rw [arrivals, ← Nat.add_assoc, ← count_added_edit, ← find?_edit]
      exact ih (p.edit e)

/-- A part that is there after edits was there before or has come in. -/
theorem arrivals_pos {es : List Edit} {before : Option ByteArray} (h : (leftBy name es before).isSome = true) :
    before.isSome = true ∨ 0 < arrivals name es before := by
  induction es generalizing before with
  | nil => exact .inl h
  | cons e es ih =>
      cases before with
      | some content => exact .inl rfl
      | none =>
          rcases ih h with h | h
          · right
            rw [arrivals, h]
            exact Nat.lt_add_right _ Nat.one_pos
          · exact .inr (Nat.lt_add_left _ h)

/-- What edits have left under a name where nothing was, they have left there wherever they began. -/
theorem isSome_leftBy {es : List Edit} (h : (leftBy name es none).isSome = true) (before : Option ByteArray) :
    (leftBy name es before).isSome = true := by
  induction es generalizing before with
  | nil => cases h
  | cons e es ih =>
      rw [leftBy, Edit.leaves] at h ⊢
      split
      · next same =>
        rwa [if_pos same] at h
      · next other =>
        rw [if_neg other] at h
        exact ih h before

end

/-! ### The parts that are listed -/

/-- What makes an entry of some elements makes a list of entries, one for each element that has one. -/
theorem forall₂_filterMap {α β : Type} {f : α → Option β} {p : α → Bool} {R : α → β → Prop}
    {as : List α} (hp : ∀ a ∈ as, p a = (f a).isSome) (hR : ∀ a ∈ as, ∀ b, f a = some b → R a b) :
    List.Forall₂ R (as.filter p) (as.filterMap f) := by
  induction as with
  | nil => exact .nil
  | cons a as ih =>
      have rest := ih (fun b hb => hp b (List.mem_cons_of_mem a hb)) fun b hb => hR b (List.mem_cons_of_mem a hb)
      rw [List.filter_cons, List.filterMap_cons, hp a List.mem_cons_self]
      cases h : f a with
      | none => exact rest
      | some b => exact .cons (hR a List.mem_cons_self b h) rest

/-- The names of the parts that are listed, in order: those of the source that are there, then those that came in,
as often as they have come in. -/
def listed (p : Package) : List String :=
  (p.source.map (·.name)).filter p.has ++
    p.added.filter fun name => !decide (name ∈ p.source.map (·.name)) && p.has name

/-- The name of the entry for a part: a name that came later ends before its first zero character. -/
def entryName (p : Package) (name : String) : String :=
  if name ∈ p.source.map (·.name) then name else Archive.cutName name

theorem cutName_entryName (p : Package) (name : String) :
    Archive.cutName (p.entryName name) = Archive.cutName name := by
  rw [entryName]
  split
  · rfl
  · exact Archive.cutName_cutName name

/-- There is an entry with its content for each part that is listed. -/
theorem forall₂_listed (p : Package) (method : Method) :
    List.Forall₂ (fun name e => e.name = p.entryName name ∧ p.find? name = some e.content) p.listed
      (p.toEntries method) := by
  refine List.rel_append ?_ ?_
  · rw [List.filter_map, List.forall₂_map_left_iff]
    refine forall₂_filterMap (fun s _ => ?_) fun s hs e h => ?_
    · rw [sourceEntry, Option.isSome_map]
      rfl
    · obtain ⟨named, -, found⟩ := sourceEntry_eq_some_iff.mp h
      exact ⟨named.trans (if_pos (List.mem_map_of_mem hs)).symm, found⟩
  · refine forall₂_filterMap (fun name _ => ?_) fun name _ e h => ?_
    · rw [addedEntry]
      split
      · next h => simp [h]
      · next h => simp [h, has]
    · obtain ⟨new, named, -, found⟩ := addedEntry_eq_some_iff.mp h
      exact ⟨named.trans (if_neg new).symm, found⟩

/-! ### What a package lists after edits -/

section
variable {entries : List Entry} {es : List Edit} {name : String}

theorem names_source_editAll (entries : List Entry) (es : List Edit) :
    ((ofEntries entries).editAll es).source.map (·.name) = entries.map (·.name) := by
  rw [source_editAll, ofEntries, List.map_map]
  rfl

theorem mem_written_of_source : name ∈ ((ofEntries entries).editAll es).written ↔
    (leftBy name es none).isSome = true :=
  mem_written_editAll (by simp [ofEntries])

/-- A part that came later is there when the edits have left something under its name. -/
theorem find?_of_later (hname : name ∉ entries.map (·.name)) :
    ((ofEntries entries).editAll es).find? name = leftBy name es none := by
  rw [find?_editAll, find?_ofEntries_of_notMem hname]

theorem count_added_of_later (hname : name ∉ entries.map (·.name)) :
    ((ofEntries entries).editAll es).added.count name = arrivals name es none := by
  rw [count_added_editAll, find?_ofEntries_of_notMem hname]
  exact Nat.zero_add _

theorem mem_added_of_later (hname : name ∉ entries.map (·.name))
    (h : ((ofEntries entries).editAll es).has name = true) : name ∈ ((ofEntries entries).editAll es).added := by
  rw [has, find?_of_later hname] at h
  rcases arrivals_pos h with h | h
  · cases h
  · exact List.count_pos_iff.mp (count_added_of_later hname ▸ h)

theorem mem_listed_iff :
    name ∈ ((ofEntries entries).editAll es).listed ↔ ((ofEntries entries).editAll es).has name = true := by
  rw [listed, names_source_editAll, List.mem_append, List.mem_filter, List.mem_filter]
  constructor
  · rintro (⟨-, h⟩ | ⟨-, h⟩)
    · exact h
    · exact (Bool.and_eq_true_iff.mp h).2
  · intro h
    by_cases hname : name ∈ entries.map (·.name)
    · exact .inl ⟨hname, h⟩
    · exact .inr ⟨mem_added_of_later hname h, by simp [hname, h]⟩

/-- A part of the source is listed once, and one that came later as often as it has come in. -/
theorem count_listed (distinct : (entries.map (·.name)).Nodup)
    (h : ((ofEntries entries).editAll es).has name = true) :
    ((ofEntries entries).editAll es).listed.count name =
      if name ∈ entries.map (·.name) then 1 else arrivals name es none := by
  rw [listed, names_source_editAll, List.count_append, List.count_filter h]
  split
  · next hname =>
    rw [List.count_eq_one_of_mem distinct hname, List.count_eq_zero_of_not_mem]
    intro hm
    have other := (List.mem_filter.mp hm).2
    rw [decide_eq_true hname] at other
    cases other
  · next hname =>
    rw [List.count_eq_zero_of_not_mem hname, List.count_filter (by simp [hname, h]), count_added_of_later hname,
      Nat.zero_add]

/-- No part is listed twice when each part that came later has come in once. -/
theorem nodup_listed_iff (distinct : (entries.map (·.name)).Nodup) :
    ((ofEntries entries).editAll es).listed.Nodup ↔ ∀ name, ((ofEntries entries).editAll es).has name = true →
      name ∉ entries.map (·.name) → arrivals name es none = 1 := by
  rw [List.nodup_iff_count_eq_one]
  refine forall_congr' fun name => ?_
  rw [mem_listed_iff]
  refine forall_congr' fun h => ?_
  rw [count_listed distinct h]
  split
  · next hname => exact ⟨fun _ hn => absurd hname hn, fun _ => rfl⟩
  · next hname => exact ⟨fun h _ => h, fun h => h hname⟩

/-- A part that the edits have left something under is there. -/
theorem has_of_leftBy (h : (leftBy name es none).isSome = true) : ((ofEntries entries).editAll es).has name = true := by
  rw [has, find?_editAll]
  exact isSome_leftBy h _

/-- After edits a package is written as a container when the parts that were left by the edits have names for their
entries and the names of all parts fit. -/
theorem pack_editAll_iff {method : Method} {out : List Entry} :
    ((ofEntries entries).editAll es).pack method = .ok out ↔
      ((∀ name, (leftBy name es none).isSome = true → Archive.cutName name ≠ "") ∧
        ∀ name, ((ofEntries entries).editAll es).has name = true →
          Archive.fitsHeader (((ofEntries entries).editAll es).entryName name) = true) ∧
      ((ofEntries entries).editAll es).toEntries method = out := by
  rw [pack_eq_ok_iff, ← and_assoc]
  refine and_congr_left fun _ => ⟨fun ⟨first, later⟩ => ?_, fun ⟨named, fits⟩ => ?_⟩
  · have admits (name : String) (there : ((ofEntries entries).editAll es).has name = true) :
        Admits (name ∈ ((ofEntries entries).editAll es).written) (((ofEntries entries).editAll es).entryName name) := by
      unfold entryName
      split
      · next old =>
        obtain ⟨s, hs, rfl⟩ := List.mem_map.mp old
        exact first s hs there
      · next new =>
        have hname := names_source_editAll entries es ▸ new
        obtain ⟨named, fits⟩ := later name (mem_added_of_later hname there) new there
        exact ⟨fun _ => named rfl, fits⟩
    refine ⟨fun name left => ?_, fun name there => (admits name there).2⟩
    have named := (admits name (has_of_leftBy left)).1 (decide_eq_true (mem_written_of_source.mpr left))
    rwa [cutName_entryName] at named
  · refine ⟨fun s hs there => ⟨fun written => ?_, ?_⟩, fun name _ new there => ⟨fun _ => ?_, ?_⟩⟩
    · exact named s.name (mem_written_of_source.mp (of_decide_eq_true written))
    · have fits := fits s.name there
      rwa [entryName, if_pos (List.mem_map_of_mem hs)] at fits
    · rw [Archive.cutName_cutName]
      refine named name ?_
      rw [← find?_of_later (names_source_editAll entries es ▸ new)]
      exact there
    · have fits := fits name there
      rwa [entryName, if_neg new] at fits

end

/-- The container that a package is written as after any edits. What the package holds is what the last edit of
each name has left. The package can be written unless a part was left under an empty name or the name of an entry
does not fit into its header. The container then has an entry for each of a list of parts, with the content that
the package holds under the name. These are the parts that the package holds and no others: those of the source
first, in their order, each once, and each of the others as often as it has come in. So each part is there once
exactly when every part that is not of the source has come in once. -/
theorem entries_after_edits {entries : List Entry} (distinct : (entries.map (·.name)).Nodup) (es : List Edit)
    (method : Method) :
    let source := entries.map (·.name)
    let p := (ofEntries entries).editAll es
    (∀ e ∈ entries, p.find? e.name = leftBy e.name es (some e.content)) ∧
    (∀ name, name ∉ source → p.find? name = leftBy name es none) ∧
    ((∃ out, p.pack method = .ok out) ↔
      (∀ name, (leftBy name es none).isSome = true → Archive.cutName name ≠ "") ∧
      ∀ name, p.has name = true →
        Archive.fitsHeader (if name ∈ source then name else Archive.cutName name) = true) ∧
    ∀ out, p.pack method = .ok out → ∃ parts : List String,
      List.Forall₂ (fun name e => e.name = (if name ∈ source then name else Archive.cutName name) ∧
        p.find? name = some e.content) parts out ∧
      (∀ name, name ∈ parts ↔ p.has name = true) ∧
      source.filter p.has <+: parts ∧
      (∀ name ∈ parts, parts.count name = if name ∈ source then 1 else arrivals name es none) ∧
      (parts.Nodup ↔ ∀ name, p.has name = true → name ∉ source → arrivals name es none = 1) := by
  intro source p
  have names : p.source.map (·.name) = source := names_source_editAll entries es
  have entryName_eq (name : String) : p.entryName name = if name ∈ source then name else Archive.cutName name := by
    rw [← names]
    rfl
  refine ⟨fun e he => ?_, fun name hname => find?_of_later hname, ?_, fun out hout => ⟨p.listed, ?_, ?_, ?_, ?_, ?_⟩⟩
  · show ((ofEntries entries).editAll es).find? e.name = _
    rw [find?_editAll, find?_ofEntries_of_mem distinct he]
  · simp only [← entryName_eq]
    exact ⟨fun ⟨_, hout⟩ => (pack_editAll_iff.mp hout).1, fun h => ⟨_, pack_editAll_iff.mpr ⟨h, rfl⟩⟩⟩
  · have entriesOf := p.forall₂_listed method
    simp only [entryName_eq] at entriesOf
    rwa [(pack_editAll_iff.mp hout).2] at entriesOf
  · exact fun name => mem_listed_iff
  · rw [← names]
    exact List.prefix_append _ _
  · exact fun name hname => count_listed distinct (mem_listed_iff.mp hname)
  · exact nodup_listed_iff distinct

/-- A part of the source that is removed and written again stands once, in its place. A part that came later stands
twice then. -/
theorem entries_after_edits_twice :
    let entries : List Entry := [⟨"a", .stored, "1".toUTF8⟩, ⟨"b", .stored, "2".toUTF8⟩]
    let es : List Edit := [.write "x" "3".toUTF8, .remove "x", .remove "a", .write "x" "4".toUTF8,
      .write "a" "5".toUTF8]
    let p := (ofEntries entries).editAll es
    (entries.map (·.name)).Nodup ∧ p.find? "a" = some "5".toUTF8 ∧
      ∃ out parts, p.pack .deflated = .ok out ∧ out.map (·.name) = ["a", "b", "x", "x"] ∧
        List.Forall₂ (fun name e => e.name = (if name ∈ entries.map (·.name) then name else Archive.cutName name) ∧
          p.find? name = some e.content) parts out ∧
        parts.count "a" = 1 ∧ parts.count "x" = 2 ∧ ¬ parts.Nodup := by
  intro entries es p
  have distinct : (entries.map (·.name)).Nodup := by decide
  obtain ⟨kept, -, -, lists⟩ := entries_after_edits distinct es .deflated
  have found : p.find? "a" = some "5".toUTF8 := kept ⟨"a", .stored, "1".toUTF8⟩ List.mem_cons_self
  obtain ⟨out, hout⟩ : ∃ out, p.pack .deflated = .ok out := exists_of_isOk (by decide +kernel)
  obtain ⟨parts, entriesOf, mem, -, count, nodup⟩ := lists out hout
  have names : out.map (·.name) = ["a", "b", "x", "x"] := by
    rw [← (pack_editAll_iff.mp hout).2]
    decide +kernel
  have there : p.has "a" = true ∧ p.has "x" = true := by decide +kernel
  refine ⟨distinct, found, out, parts, hout, names, entriesOf, ?_, ?_, ?_⟩
  · exact (count "a" ((mem "a").mpr there.1)).trans (by decide)
  · exact (count "x" ((mem "x").mpr there.2)).trans (by decide)
  · exact fun h => absurd (nodup.mp h "x" there.2 (by decide)) (by decide)

end Package
end Gridfill

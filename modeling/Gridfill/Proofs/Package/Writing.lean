import Gridfill.Package.Basic
import Gridfill.Proofs.Outcome

/-!
# What is written of a package

A package is written as a container when the container admits the names of all its parts (`pack_eq_ok_iff`); when
it does not, one of them is to blame (`blames_of_pack`).

A package remembers the entries of its source and what has been written since. As long as parts are only
written under names of the source (`Since`), the container that it is written as lists the entries of the source
in their order, without those that were removed (`Since.names_toEntries`); an entry that was neither written nor
removed stands in it as it was (`Since.mem_toEntries`), and a package read from it finds what was there
(`Since.find?_ofEntries`).
-/

namespace Gridfill

open Archive (Entry Method)

namespace Package

/-! ### The package of a container -/

section
variable {entries : List Entry} {e : Entry} {name : String}

theorem lookup_foldl_put {entries : List Entry} : ∀ {ps : Listing ByteArray}, name ∉ entries.map (·.name) →
    (entries.foldl (fun ps e => ps.put e.name e.content) ps).lookup name = ps.lookup name := by
  induction entries with
  | nil => exact fun _ => rfl
  | cons e es ih =>
      intro ps h
      obtain ⟨hne, hrest⟩ := not_or.mp (mt List.mem_cons.mpr h)
      rw [List.foldl_cons, ih hrest, Listing.lookup_put_ne _ _ hne]

/-- Of entries with different names each is found under its name. -/
theorem find?_ofEntries_of_mem (distinct : (entries.map (·.name)).Nodup) (h : e ∈ entries) :
    (ofEntries entries).find? e.name = some e.content := by
  show (entries.foldl (fun ps e => Listing.put e.name e.content ps) []).lookup e.name = _
  generalize ([] : Listing ByteArray) = ps
  induction entries generalizing ps with
  | nil => cases h
  | cons f fs ih =>
      obtain ⟨hf, hfs⟩ := List.nodup_cons.mp distinct
      rcases List.mem_cons.mp h with rfl | h
      · rw [List.foldl_cons, lookup_foldl_put hf, Listing.lookup_put]
      · exact ih hfs h _

theorem find?_ofEntries_of_notMem (h : name ∉ entries.map (·.name)) : (ofEntries entries).find? name = none :=
  lookup_foldl_put h

end

theorem has_of_readDocument {p : Package} {name : String} {root : Markup.Element}
    (h : p.readDocument name = .ok root) : p.has name = true := by
  rw [has]
  cases hf : p.find? name with
  | some content => rfl
  | none =>
      rw [readDocument, read, hf] at h
      cases h

/-- The names that are written are remembered. -/
theorem mem_written_write {p : Package} {name other : String} {content : ByteArray} :
    other ∈ (p.write name content).written ↔ other ∈ p.written ∨ other = name := by
  show other ∈ (if name ∈ p.written then p.written else p.written ++ [name]) ↔ _
  split
  · next h =>
    exact ⟨Or.inl, fun ho => ho.elim id fun e => e ▸ h⟩
  · rw [List.mem_append, List.mem_singleton]

/-! ### Entries that a container admits -/

/-- A container admits an entry under the name: the name fits into a header, and it is not empty where the entry is
made anew. -/
def Admits (isNew : Bool) (name : String) : Prop :=
  (isNew = true → Archive.cutName name ≠ "") ∧ Archive.fitsHeader name = true

theorem putEntry_eq_ok_iff {isNew : Bool} {e e' : Entry} :
    putEntry isNew e = .ok e' ↔ Admits isNew e.name ∧ e = e' := by
  have named : (isNew && decide (Archive.cutName e.name = "")) = true ↔
      ¬ (isNew = true → Archive.cutName e.name ≠ "") := by simp
  unfold putEntry Admits
  split
  · next h => exact iff_of_false nofun fun h' => named.mp h h'.1.1
  · next h =>
    replace h := not_not.mp (mt named.mpr h)
    split
    · next fits => exact ⟨fun h' => ⟨⟨h, fits⟩, Except.ok.inj h'⟩, fun h' => congrArg Except.ok h'.2⟩
    · next fits => exact iff_of_false nofun fun h' => fits h'.1.2

/-- Entries go into a container as they are. -/
theorem putEntries_eq_ok_iff {isNew : Entry → Bool} {es out : List Entry} :
    es.mapM (fun e => putEntry (isNew e) e) = .ok out ↔ (∀ e ∈ es, Admits (isNew e) e.name) ∧ es = out := by
  simp only [mapM_eq_ok_iff, putEntry_eq_ok_iff, List.forall₂_and_left, List.forall₂_eq_eq_eq]

/-- What was added under a name is written under what stands in front of its first zero character. -/
theorem addedEntry_eq_some_iff {p : Package} {method : Method} {name : String} {e : Entry} :
    p.addedEntry method name = some e ↔ name ∉ p.source.map (·.name) ∧ e.name = Archive.cutName name ∧
      e.method = method ∧ p.find? name = some e.content := by
  rw [addedEntry]
  split
  · next old => exact iff_of_false nofun fun h => h.1 old
  · next new =>
    rw [Option.map_eq_some_iff]
    constructor
    · rintro ⟨content, found, rfl⟩
      exact ⟨new, rfl, rfl, found⟩
    · rintro ⟨-, hn, hm, found⟩
      refine ⟨e.content, found, ?_⟩
      rw [← hn, ← hm]

/-- The entry that stands for an entry of the source. -/
theorem sourceEntry_eq_some_iff {p : Package} {method : Method} {s : SourceEntry} {e : Entry} :
    p.sourceEntry method s = some e ↔ e.name = s.name ∧
      e.method = (if s.name ∈ p.written then method else s.method) ∧ p.find? s.name = some e.content := by
  rw [sourceEntry, Option.map_eq_some_iff]
  constructor
  · rintro ⟨content, found, rfl⟩
    exact ⟨rfl, rfl, found⟩
  · rintro ⟨hn, hm, found⟩
    refine ⟨e.content, found, ?_⟩
    rw [← hm, ← hn]

theorem has_eq_true_iff {p : Package} {name : String} : p.has name = true ↔ ∃ content, p.find? name = some content :=
  Option.isSome_iff_exists

/-- A package is written as a container when the container admits the entries of all parts. -/
theorem pack_eq_ok_iff {p : Package} {method : Method} {out : List Entry} : p.pack method = .ok out ↔
    (∀ s ∈ p.source, p.has s.name = true → Admits (s.name ∈ p.written) s.name) ∧
    (∀ name ∈ p.added, name ∉ p.source.map (·.name) → p.has name = true → Admits true (Archive.cutName name)) ∧
    p.toEntries method = out := by
  have first : (∀ e ∈ p.source.filterMap (p.sourceEntry method), Admits (e.name ∈ p.written) e.name) ↔
      ∀ s ∈ p.source, p.has s.name = true → Admits (s.name ∈ p.written) s.name := by
    simp only [List.mem_filterMap, sourceEntry_eq_some_iff, has_eq_true_iff]
    constructor
    · rintro h s hs ⟨content, found⟩
      exact h ⟨s.name, _, content⟩ ⟨s, hs, rfl, rfl, found⟩
    · rintro h e ⟨s, hs, hn, -, found⟩
      rw [hn]
      exact h s hs ⟨_, found⟩
  have later : (∀ e ∈ p.added.filterMap (p.addedEntry method), Admits true e.name) ↔
      ∀ name ∈ p.added, name ∉ p.source.map (·.name) → p.has name = true →
        Admits true (Archive.cutName name) := by
    simp only [List.mem_filterMap, addedEntry_eq_some_iff, has_eq_true_iff]
    constructor
    · rintro h name hname new ⟨content, found⟩
      exact h ⟨Archive.cutName name, method, content⟩ ⟨name, hname, new, rfl, rfl, found⟩
    · rintro h e ⟨name, hname, new, hn, -, found⟩
      rw [hn]
      exact h name hname new ⟨_, found⟩
  rw [pack, bind_eq_ok_iff]
  constructor
  · rintro ⟨es, hes, h⟩
    obtain ⟨es', hes', h⟩ := bind_eq_ok_iff.mp h
    obtain ⟨admits, rfl⟩ := putEntries_eq_ok_iff.mp hes
    obtain ⟨admits', rfl⟩ := putEntries_eq_ok_iff.mp hes'
    exact ⟨first.mp admits, later.mp admits', Except.ok.inj h⟩
  · rintro ⟨admits, admits', rfl⟩
    exact ⟨_, putEntries_eq_ok_iff.mpr ⟨first.mpr admits, rfl⟩,
      bind_eq_ok_iff.mpr ⟨_, putEntries_eq_ok_iff.mpr ⟨later.mpr admits', rfl⟩, rfl⟩⟩

/-- The failure is what the name of an entry is to blame for. -/
def Blames (isNew : Bool) (name : String) : Failure → Prop
  | .noEntryName => isNew = true ∧ Archive.cutName name = ""
  | .entryNameTooLong => Archive.fitsHeader name = false
  | _ => False

theorem blames_of_putEntry {isNew : Bool} {e : Entry} {f : Failure} (h : putEntry isNew e = .error f) :
    Blames isNew e.name f := by
  unfold putEntry at h
  split at h
  · next unnamed =>
    obtain rfl := Except.error.inj h
    exact ⟨(Bool.and_eq_true_iff.mp unnamed).1, of_decide_eq_true (Bool.and_eq_true_iff.mp unnamed).2⟩
  · split at h
    · cases h
    · next long =>
      obtain rfl := Except.error.inj h
      exact Bool.eq_false_iff.mpr long

theorem blames_of_putEntries {isNew : Entry → Bool} {es : List Entry} {f : Failure}
    (h : es.mapM (fun e => putEntry (isNew e) e) = .error f) : ∃ e ∈ es, Blames (isNew e) e.name f := by
  obtain ⟨before, e, after, split, -, blamed⟩ := mapM_eq_error_iff.mp h
  exact ⟨e, split ▸ List.mem_append_right before List.mem_cons_self, blames_of_putEntry blamed⟩

/-- When a package is not written, the name of an entry is to blame. -/
theorem blames_of_pack {p : Package} {method : Method} {f : Failure} (h : p.pack method = .error f) :
    (∃ s ∈ p.source, p.has s.name = true ∧ Blames (s.name ∈ p.written) s.name f) ∨
      ∃ name ∈ p.added, name ∉ p.source.map (·.name) ∧ p.has name = true ∧
        Blames true (Archive.cutName name) f := by
  rcases bind_eq_error_iff.mp h with h | ⟨first, -, h⟩
  · obtain ⟨e, he, blamed⟩ := blames_of_putEntries h
    obtain ⟨s, hs, hentry⟩ := List.mem_filterMap.mp he
    obtain ⟨named, -, found⟩ := sourceEntry_eq_some_iff.mp hentry
    exact .inl ⟨s, hs, has_eq_true_iff.mpr ⟨_, found⟩, named ▸ blamed⟩
  · rcases bind_eq_error_iff.mp h with h | ⟨_, -, h⟩
    · obtain ⟨e, he, blamed⟩ := blames_of_putEntries h
      obtain ⟨name, hname, hentry⟩ := List.mem_filterMap.mp he
      obtain ⟨new, named, -, found⟩ := addedEntry_eq_some_iff.mp hentry
      exact .inr ⟨name, hname, new, has_eq_true_iff.mpr ⟨_, found⟩, named ▸ blamed⟩
    · cases h

/-! ### Packages under work -/

/-- What holds of a package that was read from entries and has since been written under their names only: parts
may have been written under the names `put`, and those of the names `lost` may have been removed. -/
structure Since (entries : List Entry) (put lost : List String) (p : Package) : Prop where
  source : p.source = entries.map fun e => ⟨e.name, e.method⟩
  known : ∀ name, p.has name = true → name ∈ entries.map (·.name)
  added : ∀ name ∈ p.added, name ∈ entries.map (·.name)
  written : ∀ name ∈ p.written, name ∈ put
  same : ∀ e ∈ entries, e.name ∉ put → e.name ∉ lost → p.find? e.name = some e.content
  kept : ∀ e ∈ entries, e.name ∉ lost → p.has e.name = true

namespace Since

section
variable {entries : List Entry} {put lost : List String} {p : Package} {name : String}

theorem ofEntries (distinct : (entries.map (·.name)).Nodup) : Since entries [] [] (ofEntries entries) where
  source := rfl
  known name h := by
    by_contra hn
    rw [has, find?_ofEntries_of_notMem hn] at h
    cases h
  added _ h := by cases h
  written _ h := by cases h
  same e he _ _ := find?_ofEntries_of_mem distinct he
  kept e he _ := by rw [has, find?_ofEntries_of_mem distinct he]; rfl

theorem mono (h : Since entries put lost p) {put' lost' : List String} (hp : put ⊆ put')
    (hl : lost ⊆ lost') : Since entries put' lost' p where
  source := h.source
  known := h.known
  added := h.added
  written n hn := hp (h.written n hn)
  same e he hn hn' := h.same e he (fun hm => hn (hp hm)) fun hm => hn' (hl hm)
  kept e he hn := h.kept e he fun hm => hn (hl hm)

/-- Writing under a name of the source. -/
theorem write (h : Since entries put lost p) (hn : name ∈ entries.map (·.name)) (hp : name ∈ put)
    (content : ByteArray) : Since entries put lost (p.write name content) where
  source := h.source
  known other ho := by
    by_cases e : other = name
    · exact e ▸ hn
    · rw [has, find?_write_ne p content e] at ho
      exact h.known other ho
  added other ho := by
    replace ho : other ∈ if p.has name then p.added else p.added ++ [name] := ho
    split at ho
    · exact h.added other ho
    · rcases List.mem_append.mp ho with ho | ho
      · exact h.added other ho
      · exact List.mem_singleton.mp ho ▸ hn
  written other ho := by
    rcases mem_written_write.mp ho with ho | rfl
    · exact h.written other ho
    · exact hp
  same e he hne hne' := by
    have other : e.name ≠ name := fun eq => hne (eq ▸ hp)
    rw [find?_write_ne p content other]
    exact h.same e he hne hne'
  kept e he hne := by
    by_cases eq : e.name = name
    · rw [has, eq, find?_write]
      rfl
    · rw [has, find?_write_ne p content eq]
      exact h.kept e he hne

/-- Removing a part. -/
theorem remove (h : Since entries put lost p) (hl : name ∈ lost) :
    Since entries put lost (p.remove name) where
  source := h.source
  known other ho := by
    by_cases e : other = name
    · rw [has, e, find?_remove] at ho
      cases ho
    · rw [has, find?_remove_ne p e] at ho
      exact h.known other ho
  added := h.added
  written other ho := h.written other (List.mem_filter.mp ho).1
  same e he hne hne' := by
    have other : e.name ≠ name := fun eq => hne' (eq ▸ hl)
    rw [find?_remove_ne p other]
    exact h.same e he hne hne'
  kept e he hne := by
    have other : e.name ≠ name := fun eq => hne (eq ▸ hl)
    rw [has, find?_remove_ne p other]
    exact h.kept e he hne

theorem writeDocument (h : Since entries put lost p) (hn : name ∈ entries.map (·.name)) (hp : name ∈ put)
    (root : Markup.Element) : Since entries put lost (p.writeDocument name root) :=
  h.write hn hp root.toBytes

/-- A name that has a part is a name of the source. -/
theorem mem_of_readDocument (h : Since entries put lost p) {root : Markup.Element}
    (hr : p.readDocument name = .ok root) : name ∈ entries.map (·.name) :=
  h.known name (has_of_readDocument hr)

/-! ### The container that is written -/

theorem names_source (h : Since entries put lost p) : p.source.map (·.name) = entries.map (·.name) := by
  rw [h.source, List.map_map]
  rfl

/-- Nothing is added to the entries of the source. -/
theorem toEntries_eq (h : Since entries put lost p) (method : Method) :
    p.toEntries method = entries.filterMap fun e => p.sourceEntry method ⟨e.name, e.method⟩ := by
  have none_added : p.added.filterMap (p.addedEntry method) = [] := by
    rw [List.filterMap_eq_nil_iff]
    intro name hn
    rw [addedEntry, if_pos (h.names_source ▸ h.added name hn)]
  rw [toEntries, none_added, List.append_nil, h.source, List.filterMap_map]
  rfl

/-- The entries that are written are those of the source that still have parts, in their order. -/
theorem names_toEntries (h : Since entries put lost p) (method : Method) :
    (p.toEntries method).map (·.name) = (entries.map (·.name)).filter fun n => p.has n := by
  rw [h.toEntries_eq]
  clear h
  induction entries with
  | nil => rfl
  | cons e es ih =>
      rw [List.map_cons, List.filter_cons, List.filterMap_cons, sourceEntry, has]
      cases hf : p.find? e.name with
      | none => exact ih
      | some content =>
          show e.name :: _ = e.name :: _
          rw [ih]

/-- An entry that was neither written nor removed stands in the container as it was. -/
theorem mem_toEntries (h : Since entries put lost p) (method : Method) {e : Entry} (he : e ∈ entries)
    (hn : e.name ∉ put) (hn' : e.name ∉ lost) : e ∈ p.toEntries method := by
  rw [h.toEntries_eq, List.mem_filterMap]
  refine ⟨e, he, sourceEntry_eq_some_iff.mpr ⟨rfl, ?_, h.same e he hn hn'⟩⟩
  rw [if_neg fun hw => hn (h.written e.name hw)]

/-- A package that is read from what was written finds the same parts. -/
theorem find?_ofEntries (h : Since entries put lost p) (distinct : (entries.map (·.name)).Nodup)
    (method : Method) (name : String) : (Package.ofEntries (p.toEntries method)).find? name = p.find? name := by
  have names := h.names_toEntries method
  have distinct' : ((p.toEntries method).map (·.name)).Nodup := names ▸ distinct.filter _
  by_cases hn : name ∈ (p.toEntries method).map (·.name)
  · obtain ⟨e', he', rfl⟩ := List.mem_map.mp hn
    rw [find?_ofEntries_of_mem distinct' he']
    rw [h.toEntries_eq, List.mem_filterMap] at he'
    obtain ⟨e, -, he⟩ := he'
    obtain ⟨same, -, found⟩ := sourceEntry_eq_some_iff.mp he
    rw [same, found]
  · rw [find?_ofEntries_of_notMem hn]
    rw [names, List.mem_filter] at hn
    cases hf : p.find? name with
    | none => rfl
    | some content =>
        have there : p.has name = true := by rw [has, hf]; rfl
        exact absurd ⟨h.known name there, there⟩ hn

/-- A package is written as a container when the parts that were written have names and the names of all parts
fit. -/
theorem pack_eq (h : Since entries put lost p) (method : Method)
    (named : ∀ name ∈ put, Archive.cutName name ≠ "")
    (fits : ∀ e ∈ entries, p.has e.name = true → Archive.fitsHeader e.name = true) :
    p.pack method = .ok (p.toEntries method) := by
  refine pack_eq_ok_iff.mpr ⟨fun s hs there => ⟨fun written => ?_, ?_⟩, fun name hname new => ?_, rfl⟩
  · exact named s.name (h.written _ (of_decide_eq_true written))
  · obtain ⟨e, he, same⟩ := List.mem_map.mp (h.names_source ▸ List.mem_map_of_mem hs)
    rw [← same] at there ⊢
    exact fits e he there
  · exact absurd (h.names_source ▸ h.added name hname) new

/-- The container that was written admits the entries of the source that still have parts. -/
theorem admits_of_pack (h : Since entries put lost p) {method : Method} {out : List Entry}
    (packed : p.pack method = .ok out) {e : Entry} (he : e ∈ entries) (there : p.has e.name = true) :
    Admits (e.name ∈ p.written) e.name :=
  (pack_eq_ok_iff.mp packed).1 ⟨e.name, e.method⟩ (h.source ▸ List.mem_map_of_mem he) there

/-- When nothing can be written of the package, the name of an entry of the source is to blame. -/
theorem blames_of_pack (h : Since entries put lost p) {method : Method} {f : Failure} (failed : p.pack method = .error f) :
    ∃ e ∈ entries, p.has e.name = true ∧ Blames (e.name ∈ p.written) e.name f := by
  rcases Package.blames_of_pack failed with ⟨s, hs, blamed⟩ | ⟨name, hname, new, -⟩
  · obtain ⟨e, he, same⟩ := List.mem_map.mp (h.names_source ▸ List.mem_map_of_mem hs)
    exact ⟨e, he, same ▸ blamed⟩
  · exact absurd (h.names_source ▸ h.added name hname) new

end

end Since

end Package
end Gridfill

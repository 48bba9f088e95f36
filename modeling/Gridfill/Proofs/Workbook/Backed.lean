import Gridfill.Proofs.Workbook.Frame
import Gridfill.Proofs.Workbook.Rereading
import Gridfill.Proofs.Workbook.Untouched

/-!
# Documents and their parts

A live document stands in its part either as it was read from there or as it was written there (`Package.Holds`),
and a part that a step leaves alone keeps what it has (`Package.Leaves`). An opened sheet is backed when this holds
of its own document and of those of its tables, which are the ones that it lists (`Sheet.Backed`). Such a sheet is
opened again from any package that has its documents (`Sheet.Backed.exists_load`).
-/

namespace Gridfill

open Archive (Entry Method)
open Markup (Element SameTree)

namespace Package

/-! ### Documents in their parts -/

/-- The part has the document: as it is read from there, or as it was written there. -/
def Holds (p : Package) (name : String) (root : Element) : Prop :=
  p.readDocument name = .ok root ∨ name ∈ p.written ∧ p.find? name = some root.toBytes

/-- A part is left alone. -/
structure Leaves (name : String) (p q : Package) : Prop where
  find : q.find? name = p.find? name
  written : name ∈ p.written → name ∈ q.written

section
variable {p q r : Package} {name other : String} {root : Element}

/-- A document is read from the content of its part. -/
theorem readDocument_eq_ok_iff {content : ByteArray} (h : p.find? name = some content) :
    p.readDocument name = .ok root ↔ Markup.readBytes? content = some root := by
  rw [readDocument, read, h]
  show readXml content name = _ ↔ _
  unfold readXml
  cases Markup.readBytes? content with
  | none => exact iff_of_false (by simp) (by simp)
  | some e => exact ⟨fun h => congrArg some (Except.ok.inj h), fun h => congrArg Except.ok (Option.some.inj h)⟩

theorem Leaves.refl (name : String) (p : Package) : Leaves name p p := ⟨rfl, fun h => h⟩

theorem Leaves.trans (h : Leaves name p q) (h' : Leaves name q r) : Leaves name p r :=
  ⟨h'.find.trans h.find, fun hw => h'.written (h.written hw)⟩

theorem leaves_writeDocument (p : Package) (root : Element) (h : name ≠ other) :
    Leaves name p (p.writeDocument other root) :=
  ⟨find?_write_ne p root.toBytes h, fun hw => mem_written_write.mpr (Or.inl hw)⟩

theorem leaves_remove (p : Package) (h : name ≠ other) : Leaves name p (p.remove other) :=
  ⟨find?_remove_ne p h, fun hw => List.mem_filter.mpr ⟨hw, decide_eq_true h⟩⟩

theorem leaves_writeDocuments {documents : List (String × Element)} :
    ∀ (p : Package), name ∉ documents.map (·.1) → Leaves name p (p.writeDocuments documents) := by
  induction documents with
  | nil => exact fun p _ => .refl name p
  | cons d ds ih =>
      intro p h
      obtain ⟨hd, hds⟩ := not_or.mp (mt List.mem_cons.mpr h)
      exact (leaves_writeDocument p d.2 hd).trans (ih _ hds)

theorem Leaves.readDocument (h : Leaves name p q) : q.readDocument name = p.readDocument name := by
  rw [Package.readDocument, read, h.find, Package.readDocument, read]

theorem Holds.leaves (h : Holds p name root) (hl : Leaves name p q) : Holds q name root := by
  rcases h with h | ⟨hw, hf⟩
  · exact Or.inl (hl.readDocument.trans h)
  · exact Or.inr ⟨hl.written hw, hl.find.trans hf⟩

theorem holds_writeDocument (p : Package) (name : String) (root : Element) :
    Holds (p.writeDocument name root) name root :=
  Or.inr ⟨mem_written_write.mpr (Or.inr rfl), find?_write p name root.toBytes⟩

/-- Documents that are written under different names are all there. -/
theorem holds_writeDocuments {documents : List (String × Element)} (distinct : (documents.map (·.1)).Nodup)
    (h : (name, root) ∈ documents) : ∀ p : Package, Holds (p.writeDocuments documents) name root := by
  induction documents with
  | nil => cases h
  | cons d ds ih =>
      intro p
      obtain ⟨hd, hds⟩ := List.nodup_cons.mp distinct
      rcases List.mem_cons.mp h with rfl | h
      · exact (holds_writeDocument p name root).leaves (leaves_writeDocuments _ hd)
      · exact ih hds h _

end

end Package

namespace Sheet

/-! ### The parts of a sheet -/

/-- The entries in the list of tables of a sheet. -/
def tableEntries (root : Element) : List Element := root.descendants [Vocabulary.tableParts, Vocabulary.tablePart]

/-- The target of an entry in the list of tables; it is empty if there is none. -/
def tableTarget (links entry : Element) : String := (targetOf links (entry.get? Vocabulary.relationshipId)).getD ""

/-- The part of the table behind an entry in the list of tables of a sheet. -/
def tablePart (path : String) (links entry : Element) : String :=
  PartName.resolve (PartName.directory path) (tableTarget links entry)

/-- The parts that the sheet in a part is read from: its own and those of the tables that it lists. -/
def listedParts (p : Package) (path : String) : List String :=
  path :: match p.readDocument path, p.readDocument (PartName.relationships path) with
    | .ok root, .ok links =>
      ((tableEntries root).filter fun entry => tableTarget links entry ≠ "").map (tablePart path links)
    | _, _ => []

theorem mem_listedParts (p : Package) (path : String) : path ∈ listedParts p path := List.mem_cons_self

/-- An entry in the list of tables leads to a table. -/
def Leads (path : String) (links entry : Element) (t : Table) : Prop :=
  tableTarget links entry ≠ "" ∧ t.path = tablePart path links entry

/-- The documents of an opened sheet are those of its parts. -/
structure Backed (p : Package) (s : Sheet) : Prop where
  root : p.Holds s.info.path s.root
  tables : ∀ t ∈ s.tables, p.Holds t.path t.root
  listed : (tableEntries s.root = [] ∧ s.tables = []) ∨
    ∃ links, tableEntries s.root ≠ [] ∧ p.readDocument (PartName.relationships s.info.path) = .ok links ∧
      List.Forall₂ (Leads s.info.path links) (tableEntries s.root) s.tables

/-- The tables are those of the entries that have targets. -/
theorem paths_of_leads {path : String} {links : Element} {entries : List Element} {ts : List Table}
    (h : List.Forall₂ (Leads path links) entries ts) :
    ts.map (·.path) = (entries.filter fun entry => tableTarget links entry ≠ "").map (tablePart path links) := by
  induction h with
  | nil => rfl
  | @cons entry t _ _ first _ ih =>
      have targeted : decide (tableTarget links entry ≠ "") = true := decide_eq_true first.1
      rw [List.map_cons, ih, first.2, List.filter_cons, if_pos targeted, List.map_cons]

theorem openTable_eq_ok_iff {p : Package} {path : String} {links entry : Element} {t : Table} :
    openTable p path links entry = .ok t ↔ Leads path links entry t ∧ p.readDocument t.path = .ok t.root := by
  unfold openTable
  simp only
  rw [← tableTarget]
  constructor
  · intro h
    split at h
    · cases h
    · next hne =>
      obtain ⟨root, hroot, h⟩ := bind_eq_ok_iff.mp h
      obtain rfl := Except.ok.inj h
      exact ⟨⟨hne, rfl⟩, hroot⟩
  · rintro ⟨⟨hne, hpath⟩, hroot⟩
    rw [if_neg hne]
    refine bind_eq_ok_iff.mpr ⟨t.root, ?_, ?_⟩
    · rw [← hroot, hpath]
      rfl
    · show Except.ok (Table.mk (tablePart path links entry) t.root) = _
      rw [← hpath]

/-- What opening a sheet comes to. -/
theorem load_eq_ok_iff {p : Package} {info : SheetInfo} {s : Sheet} :
    load p info = .ok s ↔ s.info = info ∧ p.readDocument info.path = .ok s.root ∧
      ((tableEntries s.root = [] ∧ s.tables = []) ∨ ∃ links, tableEntries s.root ≠ [] ∧
        p.readDocument (PartName.relationships info.path) = .ok links ∧
        List.Forall₂ (fun entry t => openTable p info.path links entry = .ok t) (tableEntries s.root) s.tables) := by
  have split (root : Element) (tables : List Table) : openTables p info.path root = .ok tables ↔
      (tableEntries root = [] ∧ tables = []) ∨ ∃ links, tableEntries root ≠ [] ∧
        p.readDocument (PartName.relationships info.path) = .ok links ∧
        List.Forall₂ (fun entry t => openTable p info.path links entry = .ok t) (tableEntries root) tables := by
    unfold openTables
    rw [← tableEntries]
    split
    · next hn =>
      rw [hn]
      simp [eq_comm]
    · next hne =>
      rw [bind_eq_ok_iff]
      simp only [mapM_eq_ok_iff]
      constructor
      · rintro ⟨links, hlinks, hts⟩
        exact Or.inr ⟨links, hne, hlinks, hts⟩
      · rintro (⟨hn, -⟩ | ⟨links, -, hlinks, hts⟩)
        · exact absurd hn hne
        · exact ⟨links, hlinks, hts⟩
  obtain ⟨info', root, tables⟩ := s
  constructor
  · intro h
    obtain ⟨root', hroot, h⟩ := bind_eq_ok_iff.mp h
    obtain ⟨tables', htables, h⟩ := bind_eq_ok_iff.mp h
    obtain ⟨rfl, rfl, rfl⟩ := Sheet.mk.inj (Except.ok.inj h)
    exact ⟨rfl, hroot, (split _ _).mp htables⟩
  · rintro ⟨rfl, hroot, htables⟩
    exact bind_eq_ok_iff.mpr ⟨root, hroot, bind_eq_ok_iff.mpr ⟨tables, (split _ _).mpr htables, rfl⟩⟩

theorem backed_of_load {p : Package} {info : SheetInfo} {s : Sheet} (h : load p info = .ok s) :
    s.info = info ∧ s.Backed p ∧ s.parts = listedParts p info.path := by
  obtain ⟨rfl, hroot, h⟩ := load_eq_ok_iff.mp h
  refine ⟨rfl, ⟨Or.inl hroot, ?_, ?_⟩, ?_⟩
  · intro t ht
    rcases h with ⟨-, hn⟩ | ⟨links, -, -, hts⟩
    · rw [hn] at ht
      cases ht
    · obtain ⟨entry, -, he⟩ := exists_of_mem_right hts ht
      exact Or.inl (openTable_eq_ok_iff.mp he).2
  · rcases h with h | ⟨links, hne, hlinks, hts⟩
    · exact Or.inl h
    · exact Or.inr ⟨links, hne, hlinks, hts.imp fun _ _ he => (openTable_eq_ok_iff.mp he).1⟩
  · rw [parts, listedParts, hroot]
    congr 1
    rcases h with ⟨hn, hts⟩ | ⟨links, -, hlinks, hts⟩
    · rw [hts]
      cases p.readDocument (PartName.relationships s.info.path) with
      | error f => rfl
      | ok links => simp [hn]
    · rw [hlinks]
      exact paths_of_leads (hts.imp fun _ _ he => (openTable_eq_ok_iff.mp he).1)

/-- The parts of a sheet stay its parts while they and its relationships are left alone. -/
theorem Backed.leaves {p q : Package} {s : Sheet} (h : s.Backed p) (own : ∀ name ∈ s.parts, p.Leaves name q)
    (links : p.Leaves (PartName.relationships s.info.path) q) : s.Backed q := by
  refine ⟨h.root.leaves (own _ List.mem_cons_self), ?_, ?_⟩
  · intro t ht
    exact (h.tables t ht).leaves (own _ (List.mem_cons_of_mem _ (List.mem_map_of_mem ht)))
  · rw [links.readDocument]
    exact h.listed

/-! ### Opening a sheet again -/

/-- The tables behind entries that lead to tables, read from another package that has the same documents but for
empty texts. -/
theorem exists_openTables {p : Package} {path : String} {links : Element} {entries entries' : List Element}
    {ts : List Table} (leads : List.Forall₂ (Leads path links) entries ts)
    (same : entries'.map Element.tidy = entries.map Element.tidy)
    (reads : ∀ t ∈ ts, ∃ root, p.readDocument t.path = .ok root ∧ SameTree root t.root) :
    ∃ ts', List.Forall₂ (fun entry t => openTable p path links entry = .ok t) entries' ts' ∧
      ts'.map Table.tidy = ts.map Table.tidy := by
  induction leads generalizing entries' with
  | nil =>
      obtain rfl := List.map_eq_nil_iff.mp same
      exact ⟨[], .nil, rfl⟩
  | @cons entry t _ ts lead _ ih =>
      cases entries' with
      | nil => cases same
      | cons entry' entries' =>
          rw [List.map_cons, List.map_cons, List.cons.injEq] at same
          obtain ⟨ts', hts', tidied⟩ := ih same.2 fun u hu => reads u (List.mem_cons_of_mem t hu)
          obtain ⟨root, hroot, tree⟩ := reads t List.mem_cons_self
          have lead' : Leads path links entry' t := by
            have id : entry'.get? Vocabulary.relationshipId = entry.get? Vocabulary.relationshipId :=
              SameTree.get? same.1 _
            rw [Leads, tablePart, tableTarget, id]
            exact lead
          refine ⟨⟨t.path, root⟩ :: ts', .cons (openTable_eq_ok_iff.mpr ⟨lead', hroot⟩) hts', ?_⟩
          rw [List.map_cons, List.map_cons, tidied]
          exact congrArg (fun r => Table.mk t.path r :: _) tree

/-- A sheet is opened again as it was, but for empty texts, from a package that has the same documents. -/
theorem Backed.exists_load {p q : Package} {s : Sheet} (h : s.Backed p)
    (reads : ∀ name root, p.Holds name root →
      (name, root) ∈ (s.info.path, s.root) :: s.tables.map (fun t => (t.path, t.root)) →
      ∃ e, q.readDocument name = .ok e ∧ SameTree e root)
    (links : q.readDocument (PartName.relationships s.info.path) =
      p.readDocument (PartName.relationships s.info.path)) :
    ∃ s', load q s.info = .ok s' ∧ s'.tidy = s.tidy := by
  obtain ⟨root, hroot, tree⟩ := reads _ _ h.root List.mem_cons_self
  have entries : (tableEntries root).map Element.tidy = (tableEntries s.root).map Element.tidy := by
    rw [tableEntries, ← Element.descendants_tidy, tree, Element.descendants_tidy]
    rfl
  have tables : ∀ t ∈ s.tables, ∃ e, q.readDocument t.path = .ok e ∧ SameTree e t.root := fun t ht =>
    reads _ _ (h.tables t ht) (List.mem_cons_of_mem _ (List.mem_map_of_mem ht))
  rcases h.listed with ⟨hn, hts⟩ | ⟨links', hne, hlinks, leads⟩
  · refine ⟨⟨s.info, root, []⟩, load_eq_ok_iff.mpr ⟨rfl, hroot, Or.inl ⟨?_, rfl⟩⟩, ?_⟩
    · rw [hn] at entries
      exact List.map_eq_nil_iff.mp entries
    · rw [tidy, tidy, hts]
      exact congrArg (fun r => Sheet.mk s.info r []) tree
  · obtain ⟨ts, hts, tidied⟩ := exists_openTables leads entries tables
    refine ⟨⟨s.info, root, ts⟩, load_eq_ok_iff.mpr ⟨rfl, hroot, Or.inr ⟨links', ?_, links.trans hlinks, hts⟩⟩, ?_⟩
    · intro hn
      simp only at hn
      rw [hn, List.map_nil, eq_comm, List.map_eq_nil_iff] at entries
      exact hne entries
    · rw [tidy, tidy, tidied]
      exact congrArg (fun r => Sheet.mk s.info r _) tree

end Sheet
end Gridfill

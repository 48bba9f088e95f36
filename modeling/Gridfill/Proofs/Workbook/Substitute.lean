import Gridfill.Proofs.Pool.Writing
import Gridfill.Proofs.Sheet.Header
import Gridfill.Proofs.Sheet.Rows
import Gridfill.Proofs.Workbook.Load
import Gridfill.Workbook.Substitute

/-!
# What a substitution comes to

A substitution that goes through has opened its sheet, filled it, and written the changed documents
(`substitute_cases`). Its effect on a workbook is said by a few equations (`Substitution`): the filled sheet
stands in the place of the opened one, the other opened sheets stay, and no part is written or removed but
those of the sheet, of the workbook and of the order of calculation.
-/

namespace Gridfill

open Markup (Element)

/-! ### Parts that stay -/

namespace Package

/-- The packages have the same content for every name but some. -/
def AgreeOutside (names : List String) (p q : Package) : Prop :=
  ∀ name, name ∉ names → q.find? name = p.find? name

section
variable {names : List String} {p q : Package}

theorem AgreeOutside.refl (names : List String) (p : Package) : AgreeOutside names p p := fun _ _ => rfl

theorem AgreeOutside.writeDocument (h : AgreeOutside names p q) {name : String} (hn : name ∈ names)
    (root : Element) : AgreeOutside names p (q.writeDocument name root) := by
  intro other ho
  have hne : other ≠ name := fun e => ho (e ▸ hn)
  rw [Package.writeDocument, find?_write_ne q _ hne]
  exact h other ho

theorem AgreeOutside.remove (h : AgreeOutside names p q) {name : String} (hn : name ∈ names) :
    AgreeOutside names p (q.remove name) := by
  intro other ho
  have hne : other ≠ name := fun e => ho (e ▸ hn)
  rw [find?_remove_ne q hne]
  exact h other ho

theorem AgreeOutside.writeTables {ts : List Table} (h : AgreeOutside names p q)
    (ht : ∀ t ∈ ts, t.path ∈ names) :
    AgreeOutside names p (ts.foldl (fun p t => p.writeDocument t.path t.root) q) := by
  induction ts generalizing q with
  | nil => exact h
  | cons t ts ih =>
      exact ih (h.writeDocument (ht t List.mem_cons_self) t.root) fun u hu => ht u (List.mem_cons_of_mem t hu)

theorem AgreeOutside.readDocument (h : AgreeOutside names p q) {name : String} (hn : name ∉ names) :
    q.readDocument name = p.readDocument name := by
  rw [Package.readDocument, Package.read, h name hn, Package.readDocument, Package.read]

end

end Package

namespace Workbook

/-! ### The steps of a substitution -/

/-- What filling the live documents of a sheet comes to. -/
theorem fillSheet_cases {w : Workbook} {sheet : Sheet} {data : Bindings} {o : Outcome}
    (h : w.fillSheet sheet data = .ok o) :
    ∃ filled tables added root, Expand.run sheet w.document w.pool data = .ok filled ∧
      Header.fillTables data filled.sheet.tables = .ok (tables, added) ∧
      Shift.growDimension filled.stats.rowsInserted filled.stats.columnsInserted filled.sheet.root =
        .ok root ∧
      o = { filled with sheet := ⟨filled.sheet.info, root, tables⟩ } := by
  obtain ⟨filled, hfilled, h⟩ := bind_eq_ok_iff.mp h
  obtain ⟨⟨tables, added⟩, htables, h⟩ := bind_eq_ok_iff.mp h
  obtain ⟨root, hroot, h⟩ := bind_eq_ok_iff.mp h
  exact ⟨filled, tables, added, root, hfilled, htables, hroot, (Except.ok.inj h).symm⟩

/-- Filling a sheet leaves its entry in the workbook and the parts of its tables, and changes the pool by
steps that start at the cells of the sheet. -/
theorem follows_of_fillSheet {w : Workbook} {sheet : Sheet} {data : Bindings} {o : Outcome}
    (hp : w.pool.Sound) (h : w.fillSheet sheet data = .ok o) :
    o.sheet.info = sheet.info ∧ o.sheet.tables.map (·.path) = sheet.tables.map (·.path) ∧
      Pool.Steps (Expand.Holds sheet) (Fills data) w.pool o.pool := by
  obtain ⟨filled, tables, added, root, hfilled, htables, -, rfl⟩ := fillSheet_cases h
  obtain ⟨info, steps, f, follows⟩ := Expand.follows_of_run hp hfilled
  refine ⟨info, ?_, steps⟩
  have rows : filled.sheet.tables.map (·.path) = sheet.tables.map (·.path) := by
    rw [← List.forall₂_eq_eq_eq, List.forall₂_map_left_iff, List.forall₂_map_right_iff]
    exact follows.flip.imp fun _ _ ht => ht.path
  rw [← rows]
  show tables.map (·.path) = filled.sheet.tables.map (·.path)
  rw [← List.forall₂_eq_eq_eq, List.forall₂_map_left_iff, List.forall₂_map_right_iff]
  exact (Header.forall₂_of_fillTables htables).flip.imp fun _ _ ⟨_, ht⟩ => Header.path_of_fillTable ht

/-- The parts that filling a sheet may write or remove. -/
def touched (w : Workbook) (sheet : Sheet) : List String :=
  sheet.info.path :: w.path :: w.stringsPath :: w.relationshipsPath :: Vocabulary.contentTypesPart ::
    (w.calcChain.toList ++ sheet.tables.map (·.path))

/-- What dropping the order of calculation leaves alone when it goes through. -/
theorem dropCalcChain_spec {w w' : Workbook} {names : List String} (h : w.dropCalcChain = (w', .ok ()))
    (hr : w.relationshipsPath ∈ names) (ht : Vocabulary.contentTypesPart ∈ names)
    (hc : ∀ part, w.calcChain = some part → part ∈ names) :
    w'.opened = w.opened ∧ w'.pool = w.pool ∧ w'.path = w.path ∧ w'.stringsPath = w.stringsPath ∧
      w'.stringsRoot = w.stringsRoot ∧ w'.sheets = w.sheets ∧ Package.AgreeOutside names w.package w'.package := by
  have same : w.opened = w.opened ∧ w.pool = w.pool ∧ w.path = w.path ∧ w.stringsPath = w.stringsPath ∧
      w.stringsRoot = w.stringsRoot ∧ w.sheets = w.sheets ∧ Package.AgreeOutside names w.package w.package :=
    ⟨rfl, rfl, rfl, rfl, rfl, rfl, .refl _ _⟩
  unfold dropCalcChain at h
  split at h
  · injection h with h
    rw [← h]
    exact same
  · next part hpart =>
    split at h
    · injection h with h
      rw [← h]
      exact same
    · have dropped := ((Package.AgreeOutside.refl names w.package).remove (hc part hpart)).writeDocument hr
        (withoutCalcChain w.relationships)
      simp only at h
      split at h
      · split at h
        · cases h
        · next types htypes =>
          injection h with h
          rw [← h]
          exact ⟨rfl, rfl, rfl, rfl, rfl, rfl, dropped.writeDocument ht _⟩
      · injection h with h
        rw [← h]
        exact ⟨rfl, rfl, rfl, rfl, rfl, rfl, dropped⟩

/-- What writing the documents leaves alone when it goes through, apart from the place of the markup of the pool. The
size of the pool was written. -/
theorem flush_spec {w w' : Workbook} {sheet : Sheet} {names : List String}
    (h : w.flush sheet = (w', .ok ())) (hs : sheet.info.path ∈ names) (hw : w.path ∈ names)
    (hp : w.stringsPath ∈ names) (ht : ∀ t ∈ sheet.tables, t.path ∈ names) :
    w'.opened = w.opened ∧ w'.pool = w.pool.movedTo w.stringsRoot ∧ w'.sheets = w.sheets ∧
      w.pool.size < Text.integerBound ∧ Package.AgreeOutside names w.package w'.package := by
  unfold flush at h
  simp only at h
  split at h
  · cases h
  · next root pool hroot =>
    injection h with h
    obtain ⟨rfl, items, count, -, hcount, -⟩ := Pool.writeTo_cases hroot
    have writable := (writeInteger_eq_ok_iff.mp hcount).1
    rw [← h]
    refine ⟨rfl, rfl, rfl, by simpa using writable, ?_⟩
    exact .writeTables ((((Package.AgreeOutside.refl names w.package).writeDocument hs _).writeDocument hw
      _).writeDocument hp root) ht

/-- What a substitution that goes through comes to: the sheet that was opened, the outcome of filling it,
and the workbook afterwards. -/
structure Substitution (w : Workbook) (key : SheetKey) (data : Bindings) (sheet : Sheet) (ready : Workbook)
    (o : Outcome) (w' : Workbook) : Prop where
  open_eq : w.openSheet key = .ok (sheet, ready)
  fill_eq : ready.fillSheet sheet data = .ok o
  pool : w'.pool = o.pool.movedTo w.stringsRoot
  writable : o.pool.size < Text.integerBound
  opened : w'.opened = (ready.putSheet o.sheet).opened
  sheets : w'.sheets = w.sheets
  package : Package.AgreeOutside (w.touched sheet) w.package w'.package

theorem substitute_cases {w w' : Workbook} {key : SheetKey} {data : Bindings} {stats : Expand.Stats}
    (hp : w.pool.Sound) (h : w.substitute key data = (w', .ok stats)) :
    ∃ sheet ready o, Substitution w key data sheet ready o w' := by
  unfold substitute at h
  split at h
  · cases h
  · next sheet ready hopen =>
    obtain ⟨opened, rfl⟩ : ∃ opened, ready = { w with opened := opened } := ⟨_, eq_of_openSheet hopen⟩
    split at h
    · cases h
    · next o hfill =>
      obtain ⟨info, paths, -⟩ := follows_of_fillSheet hp hfill
      have tables : ∀ t ∈ o.sheet.tables, t.path ∈ w.touched sheet := by
        intro t ht
        have : t.path ∈ sheet.tables.map (·.path) := paths ▸ List.mem_map_of_mem ht
        simp [touched, this]
      simp only at h
      split at h
      · cases h
      · next dropped hdropped =>
        split at h
        · cases h
        · next written hwritten =>
          injection h with h _
          subst h
          obtain ⟨opened', pool, path, strings, root, sheets, package⟩ :
              dropped.opened = (putSheet { w with opened := opened } o.sheet).opened ∧
                dropped.pool = o.pool ∧ dropped.path = w.path ∧ dropped.stringsPath = w.stringsPath ∧
                dropped.stringsRoot = w.stringsRoot ∧ dropped.sheets = w.sheets ∧
                Package.AgreeOutside (w.touched sheet) w.package dropped.package := by
            split at hdropped
            · exact dropCalcChain_spec hdropped (by simp [touched, putOutcome, putSheet])
                (by simp [touched]) (fun part hpart => by
                  have hpart : w.calcChain = some part := hpart
                  simp [touched, hpart])
            · injection hdropped with hdropped
              rw [← hdropped]
              exact ⟨rfl, rfl, rfl, rfl, rfl, rfl, .refl _ _⟩
          obtain ⟨opened'', pool', sheets', writable, package'⟩ := flush_spec hwritten
            (by simp [touched, info]) (by simp [touched, path]) (by simp [touched, strings]) tables
          rw [pool, root] at pool'
          refine ⟨sheet, _, o, hopen, hfill, pool', pool ▸ writable, opened''.trans opened',
            sheets'.trans sheets, fun name hn => ?_⟩
          rw [package' name hn, package name hn]

/-- A substitution starts by opening its sheet, so it may as well have been opened before. -/
theorem substitute_of_openSheet {w w' : Workbook} {key : SheetKey} {sheet : Sheet}
    (h : w.openSheet key = .ok (sheet, w')) (data : Bindings) :
    w.substitute key data = w'.substitute key data := by
  rw [substitute, h, substitute, openSheet_again h]

theorem exists_substitute {w w' : Workbook} {key : SheetKey} {sheet : Sheet}
    (h : w.openSheet key = .ok (sheet, w')) {data : Bindings}
    (goes : (w'.substitute key data).2.toBool = true) :
    ∃ stats, w.substitute key data = ((w'.substitute key data).1, .ok stats) := by
  rw [substitute_of_openSheet h]
  generalize w'.substitute key data = r at goes
  obtain ⟨stats, hstats⟩ := exists_of_isOk goes
  exact ⟨stats, by rw [← hstats]⟩

/-! ### Workbooks under work -/

/-- The workbooks that come about from one that was loaded, by opening sheets and by substitutions that go
through. -/
inductive Live : Workbook → Prop where
  | load {entries : List Archive.Entry} {w : Workbook} (h : load entries = .ok w) : Live w
  | openSheet {w w' : Workbook} {key : SheetKey} {sheet : Sheet} (hw : Live w)
      (h : w.openSheet key = .ok (sheet, w')) : Live w'
  | substitute {w w' : Workbook} {key : SheetKey} {data : Bindings} {stats : Expand.Stats} (hw : Live w)
      (h : w.substitute key data = (w', .ok stats)) : Live w'

/-- A substitution changes the pool by steps that start at the cells of its sheet. -/
theorem Substitution.steps {w w' ready : Workbook} {key : SheetKey} {data : Bindings} {sheet : Sheet}
    {o : Outcome} (h : Substitution w key data sheet ready o w') (hp : w.pool.Sound) :
    Pool.Steps (Expand.Holds sheet) (Fills data) w.pool w'.pool := by
  have same : ready.pool = w.pool := by rw [eq_of_openSheet h.open_eq]
  obtain ⟨-, -, steps⟩ := follows_of_fillSheet (same ▸ hp) h.fill_eq
  rw [h.pool, ← same]
  exact steps.tail (.movedTo _ _)

theorem Live.built {w : Workbook} (h : Live w) : w.pool.Built := by
  induction h with
  | load h => exact built_of_load h
  | openSheet _ h ih =>
      rw [eq_of_openSheet h]
      exact ih
  | substitute _ h ih =>
      have sound := Pool.sound_of_built ih
      obtain ⟨sheet, ready, o, h⟩ := substitute_cases sound h
      exact (h.steps sound).built ih

theorem Live.sound {w : Workbook} (h : Live w) : w.pool.Sound := Pool.sound_of_built h.built

end Workbook
end Gridfill

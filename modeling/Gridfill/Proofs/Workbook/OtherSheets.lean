import Gridfill.Proofs.Workbook.Substitute

/-!
# What a substitution does to the other sheets

Sheets have documents of their own, but they share the pool of texts, and a text that takes the place of a
placeholder there is shown by every cell that showed the placeholder. So the other sheets keep their
documents, and a text that one of their cells shows changes only if a cell of the filled sheet showed it as
well (`other_sheet_shows`).
-/

namespace Gridfill

open Markup (Element)

namespace Workbook

/-- The root of a sheet's document: that of the opened sheet, or else what the package has. -/
def rootOf (w : Workbook) (path : String) : Except Failure Element :=
  match w.openedAt? path with
  | some sheet => .ok sheet.root
  | none => w.package.readDocument path

theorem rootOf_of_closed {w : Workbook} {path : String} (h : w.openedAt? path = none) :
    w.rootOf path = w.package.readDocument path := by
  rw [rootOf, h]

/-- Opening a sheet leaves the roots of all sheets. -/
theorem rootOf_of_openSheet {w w' : Workbook} {key : SheetKey} {sheet : Sheet}
    (h : w.openSheet key = .ok (sheet, w')) (path : String) : w'.rootOf path = w.rootOf path := by
  have opened := openedAt?_of_openSheet h
  rcases (openSheet_cases h).2 with ⟨rfl, -⟩ | ⟨rfl, hn, hroot⟩
  · rfl
  · by_cases hp : sheet.info.path = path
    · rw [← hp, rootOf, opened, rootOf, hn]
      exact hroot.symm
    · have same : openedAt? { w with opened := w.opened ++ [sheet] } path = w.openedAt? path := by
        show (w.opened ++ [sheet]).find? _ = _
        rw [List.find?_append, List.find?_cons_of_neg (by simpa using hp), List.find?_nil, Option.or_none]
        rfl
      rw [rootOf, same, rootOf]

section
variable {w w' ready : Workbook} {key : SheetKey} {data : Bindings} {sheet : Sheet} {o : Outcome}

/-- A substitution leaves the root of every sheet with a part of its own. -/
theorem Substitution.rootOf_eq (h : Substitution w key data sheet ready o w') (hp : w.pool.Sound)
    {path : String} (hpath : path ∉ w.touched sheet) : w'.rootOf path = w.rootOf path := by
  have pool : ready.pool = w.pool := by rw [eq_of_openSheet h.open_eq]
  have package : ready.package = w.package := by rw [eq_of_openSheet h.open_eq]
  obtain ⟨info, -, -⟩ := follows_of_fillSheet (pool ▸ hp) h.fill_eq
  have other : path ≠ o.sheet.info.path := by
    rw [info]
    rintro rfl
    exact hpath List.mem_cons_self
  have opened : w'.openedAt? path = ready.openedAt? path := by
    rw [openedAt?, h.opened, ← openedAt?, openedAt?_putSheet]
    cases hs : ready.openedAt? path with
    | none => rfl
    | some s =>
        have own : s.info.path = path := by simpa using List.find?_some hs
        rw [Option.map_some, if_neg (own ▸ other)]
  rw [← rootOf_of_openSheet h.open_eq, rootOf, opened, h.package.readDocument hpath, rootOf, package]

end

/-- A text that a cell shows, after the placeholders that a sheet showed were replaced: it is the same, or a
cell of the sheet showed it and values took its place. -/
def Follows (pool : Pool) (data : Bindings) (sheet : Sheet) (before after : String) : Prop :=
  after = before ∨
    (∃ row ∈ sheet.rows, ∃ cell ∈ cellsOf row, Cell.shownText pool cell = some before) ∧
      Relation.TransGen (Fills data) before after

/-- A substitution in one sheet leaves the document of every other sheet with a part of its own, and so the
types of its cells and the places in the pool that they hold. A cell that shows a text shows it afterwards as
well, unless a cell of the filled sheet showed the same text and it was nothing but a placeholder for a
text. -/
theorem other_sheet_shows {w w' ready : Workbook} {key : SheetKey} {data : Bindings} {stats : Expand.Stats}
    {sheet : Sheet} {path : String} {root : Element} (hw : w.Live)
    (hopen : w.openSheet key = .ok (sheet, ready)) (hsub : w.substitute key data = (w', .ok stats))
    (hpath : path ∉ w.touched sheet) (hroot : w.rootOf path = .ok root) :
    w'.rootOf path = .ok root ∧
      ∀ cell text, Cell.shownText w.pool cell = some text →
        ∃ text', Cell.shownText w'.pool cell = some text' ∧ Follows w.pool data sheet text text' := by
  obtain ⟨sheet', ready', o, h⟩ := substitute_cases hw.sound hsub
  obtain ⟨rfl, rfl⟩ : sheet = sheet' ∧ ready = ready' :=
    Prod.mk.inj (Except.ok.inj (hopen.symm.trans h.open_eq))
  refine ⟨(h.rootOf_eq hw.sound hpath).trans hroot, ?_⟩
  intro cell text hshown
  rw [Cell.shownText_eq] at hshown
  obtain ⟨place, hplace, htext⟩ := Option.bind_eq_some_iff.mp hshown
  obtain ⟨text', htext', drift⟩ := (h.steps hw.sound).drift hw.sound htext
  refine ⟨text', by rw [Cell.shownText_eq, hplace]; exact htext', ?_⟩
  rcases drift with rfl | ⟨⟨k, ⟨row, hrow, own, hown, hk⟩, hget⟩, chain⟩
  · exact Or.inl rfl
  · exact Or.inr ⟨⟨row, hrow, own, hown, by rw [Cell.shownText_eq, hk]; exact hget⟩, chain⟩

end Workbook

namespace Small

/-- A text for the placeholder of the small workbook. -/
def data : Bindings := .ofValues [("x", .text "v")]

/-- The small workbook with its first sheet filled. -/
def filled : Workbook := (bookOne.substitute (.name "One") data).1

theorem exists_substitute_one : ∃ stats, book.substitute (.name "One") data = (filled, .ok stats) :=
  Workbook.exists_substitute open_one (by decide +kernel)

theorem two_not_touched : "two.xml" ∉ book.touched one := by decide +kernel

theorem rootOf_two : book.rootOf "two.xml" = .ok two.root := by
  rw [Workbook.rootOf_of_closed (by rfl)]
  dsimp only [two]
  exact read_part 5 rfl

end Small

/-- The first cell of the second sheet shows a text after the first sheet was filled: it showed the placeholder
before, and so did a cell of the first sheet. -/
theorem Workbook.other_sheet_shows_two :
    (∃ stats, Small.book.substitute (.name "One") Small.data = (Small.filled, .ok stats)) ∧
      "two.xml" ∉ Small.book.touched Small.one ∧
      Small.filled.rootOf "two.xml" = .ok Small.two.root ∧
      ∃ row ∈ Small.two.rows, ∃ cell ∈ cellsOf row, ∃ text,
        Cell.shownText Small.book.pool cell = some "${x}" ∧ Cell.shownText Small.filled.pool cell = some text ∧
        Follows Small.book.pool Small.data Small.one "${x}" text := by
  obtain ⟨stats, hsub⟩ := Small.exists_substitute_one
  obtain ⟨root, shows⟩ := other_sheet_shows (.load Small.load_entries) Small.open_one hsub
    Small.two_not_touched Small.rootOf_two
  have shown : (Small.two.rows.any fun row => (cellsOf row).any fun cell =>
      Cell.shownText Small.book.pool cell = some "${x}") = true := by decide +kernel
  obtain ⟨row, hrow, h⟩ := List.any_eq_true.mp shown
  obtain ⟨cell, hcell, h⟩ := List.any_eq_true.mp h
  have before := of_decide_eq_true h
  obtain ⟨text, after, follows⟩ := shows cell "${x}" before
  exact ⟨⟨stats, hsub⟩, Small.two_not_touched, root, row, hrow, cell, hcell, text, before, after, follows⟩

/-- A cell of the second sheet that shows the placeholder shows the text that took its place in the first
sheet, and a cell that holds a place which the pool did not have shows a text that was added. -/
theorem Workbook.other_sheet_changes :
    Workbook.load Small.entries = .ok Small.book ∧
      (∃ stats, Small.book.substitute (.name "One") Small.data = (Small.filled, .ok stats)) ∧
      "two.xml" ∉ Small.book.touched Small.one ∧
      Small.book.rootOf "two.xml" = .ok Small.two.root ∧ Small.filled.rootOf "two.xml" = .ok Small.two.root ∧
      (∃ row ∈ Small.two.rows, ∃ cell ∈ cellsOf row, Cell.shownText Small.book.pool cell = some "${x}" ∧
        Cell.shownText Small.filled.pool cell = some "v") ∧
      ∃ row ∈ Small.two.rows, ∃ cell ∈ cellsOf row, Cell.shownText Small.book.pool cell = none ∧
        Cell.shownText Small.filled.pool cell = some "a v" := by
  obtain ⟨stats, hsub⟩ := Small.exists_substitute_one
  have sound := Pool.sound_of_built (built_of_load Small.load_entries)
  obtain ⟨sheet, ready, o, h⟩ := substitute_cases sound hsub
  obtain ⟨rfl, rfl⟩ : Small.one = sheet ∧ Small.bookOne = ready :=
    Prod.mk.inj (Except.ok.inj (Small.open_one.symm.trans h.open_eq))
  have root := (h.rootOf_eq sound Small.two_not_touched).trans Small.rootOf_two
  have change {before : Option String} {after : String} (h : (Small.two.rows.any fun row =>
      (cellsOf row).any fun cell => Cell.shownText Small.book.pool cell = before &&
        Cell.shownText Small.filled.pool cell = some after) = true) :
      ∃ row ∈ Small.two.rows, ∃ cell ∈ cellsOf row, Cell.shownText Small.book.pool cell = before ∧
        Cell.shownText Small.filled.pool cell = some after := by
    obtain ⟨row, hrow, h⟩ := List.any_eq_true.mp h
    obtain ⟨cell, hcell, h⟩ := List.any_eq_true.mp h
    rw [Bool.and_eq_true, decide_eq_true_eq, decide_eq_true_eq] at h
    exact ⟨row, hrow, cell, hcell, h⟩
  exact ⟨Small.load_entries, ⟨stats, hsub⟩, Small.two_not_touched, Small.rootOf_two, root,
    change (by decide +kernel), change (by decide +kernel)⟩

end Gridfill

import Gridfill.Proofs.Sheet.Dimension
import Gridfill.Proofs.Workbook.Filled
import Gridfill.Proofs.Workbook.Frame

/-!
# The dimension after a substitution

When the dimension of a sheet covers its cells, and no record that a substitution lays out has a sequence as its
value, the dimension covers all cells of the sheet afterwards, from the same start (`dimension_after_substitute`). The
cells have to be on their own rows: a substitution puts a cell on the row that it is written in, where the dimension
may not reach.
-/

namespace Gridfill

open Markup (Element)

/-! ### Two small sheets -/

namespace Small

open Expand (plainElement plainCell)

/-- A dimension with its reference. -/
def dimension (ref : String) : Element := plainElement "dimension" [("ref", ref)] []

/-- A sheet with a sequence and with records, and its dimension. -/
def boundedSheet : Sheet where
  info := ⟨1, "Data", "sheet1.xml", none⟩
  root := plainElement "worksheet" []
    [dimension "A1:B2",
     plainElement "sheetData" []
      [plainElement "row" [("r", "1")] [plainCell [("r", "A1"), ("t", "s")] "0", plainCell [("r", "B1"), ("t", "s")] "1"],
       plainElement "row" [("r", "2")] [plainCell [("r", "A2")] "8"]]]
  tables := []

/-- A sheet with a cell in a row that is not its own, and its dimension. -/
def strayingSheet : Sheet where
  info := ⟨1, "Data", "sheet1.xml", none⟩
  root := plainElement "worksheet" []
    [dimension "A6:C9",
     plainElement "sheetData" [] [plainElement "row" [("r", "5")] [plainCell [("r", "A7")] "1"]]]
  tables := []

/-- Values for the placeholders of the first sheet. -/
def boundedData : Bindings := .ofValues [("xs", .list [.int 1, .int 2, .int 3]), ("rs", .list [.int 4, .int 5])]

def boundedBook : Workbook := openedBook boundedSheet ["${xs}", "${table:rs}"]

def strayingBook : Workbook := openedBook strayingSheet []

end Small

namespace Workbook

open Expand (CoveredBy ScalarRecords ownNumber textsReached)

/-- A substitution in a sheet whose dimension covers its cells, each of which is on its own row, and none of whose
records has a sequence as its value: the dimension that the sheet has afterwards starts in the same corner, and covers
every cell of every row. -/
theorem dimension_after_substitute {w w' ready : Workbook} {key : SheetKey} {data : Bindings} {stats : Expand.Stats}
    {sheet : Sheet} {dimension : Element} {range : CellRange} (hpool : w.pool.Built)
    (hopen : w.openSheet key = .ok (sheet, ready))
    (hdimension : sheet.root.child? Vocabulary.dimension = some dimension)
    (hrange : Shift.dimensionRange (dimension.attributeOr "ref" "") = .ok range)
    (hcovered : CoveredBy range sheet.rows)
    (hscalar : ∀ text ∈ textsReached sheet w.document w.pool data, ScalarRecords data text)
    (hsub : w.substitute key data = (w', .ok stats)) :
    ∃ sheet' dimension' range', w'.openSheet key = .ok (sheet', w') ∧
      sheet'.root.child? Vocabulary.dimension = some dimension' ∧
      DimensionSpells range' (dimension'.attributeOr "ref" "") ∧ range'.start = range.start ∧
      ∀ row ∈ sheet'.rows, ∃ number columns, ownNumber row = .ok number ∧ StandAt number columns (cellsOf row) ∧
        ∀ c ∈ columns, range'.extent.Holds c number := by
  have sound := Pool.sound_of_built hpool
  obtain ⟨sheet₀, ready₀, o, h⟩ := substitute_cases sound hsub
  obtain ⟨rfl, rfl⟩ : sheet = sheet₀ ∧ ready = ready₀ :=
    Prod.mk.inj (Except.ok.inj (hopen.symm.trans h.open_eq))
  obtain ⟨filled, tables, added, root, hfilled, -, hroot, rfl⟩ := fillSheet_cases h.fill_eq
  rw [eq_of_openSheet hopen] at hfilled
  have hrun : Expand.run sheet w.document w.pool data = .ok filled := hfilled
  obtain ⟨kept, -⟩ := @Expand.childrenWith_run _ _ _ _ _ hrun Vocabulary.dimension Vocabulary.sheets
    (by decide) (by decide) (by decide)
  have here : filled.sheet.root.child? Vocabulary.dimension = some dimension := by
    rw [Element.child?_eq_head?, kept, ← Element.child?_eq_head?, hdimension]
  obtain ⟨dimension', range', there, spells, start, bottom, right⟩ := exists_dimension_of_grow hroot here hrange
  have covered := Expand.covered_of_run sound hrun (valid_of_dimensionRange hrange) hcovered hscalar
  have rows : Sheet.rows ⟨filled.sheet.info, root, tables⟩ = filled.sheet.rows :=
    Sheet.rows_of_childrenWith (childrenWith_growDimension hroot (by decide))
  refine ⟨_, dimension', range', h.openSheet_eq sound, there, spells, start, fun row hrow => ?_⟩
  obtain ⟨number, columns, hnumber, stand, bounds⟩ := covered row (rows ▸ hrow)
  refine ⟨number, columns, hnumber, stand, fun c hc => ?_⟩
  obtain ⟨⟨top, low⟩, left, high⟩ := bounds c hc
  have top : range'.start.row ≤ number := start ▸ top
  have left : Reference.lettersNumber range'.start.column.toList ≤ c := start ▸ left
  exact ⟨⟨top, low.trans_eq bottom.symm⟩, left, high.trans_eq right.symm⟩

/-- The sequence takes two more columns and the records one more row: the dimension ends in the corner behind both. -/
theorem dimension_after_substitute_small :
    ∃ w' stats sheet' dimension' range', Small.boundedBook.substitute (.name "Data") Small.boundedData =
        (w', .ok stats) ∧ w'.openSheet (.name "Data") = .ok (sheet', w') ∧
      sheet'.root.child? Vocabulary.dimension = some dimension' ∧
      DimensionSpells range' (dimension'.attributeOr "ref" "") ∧ range'.start = .plain "A" 1 ∧
      ∀ row ∈ sheet'.rows, ∃ number columns, ownNumber row = .ok number ∧ StandAt number columns (cellsOf row) ∧
        ∀ c ∈ columns, range'.extent.Holds c number := by
  have goes : (Small.boundedBook.substitute (.name "Data") Small.boundedData).2.toBool = true := by decide +kernel
  obtain ⟨w', stats, hsub⟩ := Small.exists_substitute_openedBook goes
  have hopen := Small.openSheet_openedBook Small.boundedSheet ["${xs}", "${table:rs}"]
  have hdimension : Small.boundedSheet.root.child? Vocabulary.dimension = some (Small.dimension "A1:B2") := by rfl
  have hrange : Shift.dimensionRange ((Small.dimension "A1:B2").attributeOr "ref" "") =
      .ok ⟨.plain "A" 1, .plain "B" 2⟩ := toOption_eq_some_iff.mp (by decide +kernel)
  obtain ⟨sheet', dimension', range', opened, there, spells, start, covers⟩ :=
    dimension_after_substitute (.ofTexts _) hopen hdimension hrange (Expand.coveredBy_of_all (by decide +kernel))
      (by decide +kernel) hsub
  exact ⟨w', stats, sheet', dimension', range', hsub, opened, there, spells, start, covers⟩

/-- A cell that is not on its own row is put above the dimension that covered it. -/
theorem cell_leaves_dimension :
    Small.strayingBook.openSheet (.name "Data") = .ok (Small.strayingSheet, Small.strayingBook) ∧
      Small.strayingSheet.rows.mapM ownNumber = .ok [5] ∧
      (Small.strayingSheet.rows.map fun row => (cellsOf row).map (·.attribute? "r")) = [[some "A7"]] ∧
      (∃ dimension range, Small.strayingSheet.root.child? Vocabulary.dimension = some dimension ∧
        Shift.dimensionRange (dimension.attributeOr "ref" "") = .ok range ∧
        range.holds (.plain "A" 7) = .ok true) ∧
      (∀ text ∈ textsReached Small.strayingSheet Small.strayingBook.document Small.strayingBook.pool (.ofValues []),
        ScalarRecords (.ofValues []) text) ∧
      ∃ w' stats sheet', Small.strayingBook.substitute (.name "Data") (.ofValues []) = (w', .ok stats) ∧
        w'.openSheet (.name "Data") = .ok (sheet', w') ∧
        (sheet'.rows.map fun row => (cellsOf row).map (·.attribute? "r")) = [[some "A5"]] ∧
        ∃ dimension range, sheet'.root.child? Vocabulary.dimension = some dimension ∧
          Shift.dimensionRange (dimension.attributeOr "ref" "") = .ok range ∧
          range.holds (.plain "A" 5) = .ok false := by
  have goes : (Small.strayingBook.substitute (.name "Data") (.ofValues [])).2.toBool = true := by decide +kernel
  obtain ⟨w', stats, hsub⟩ := Small.exists_substitute_openedBook goes
  have hopen := Small.openSheet_openedBook Small.strayingSheet []
  obtain ⟨_, sheet', by_⟩ := exists_filledBy (.ofTexts _) hopen hsub
  have after : ((Small.strayingBook.substitute (.name "Data") (.ofValues [])).1.openSheet
      (.name "Data")).toOption.any (fun r =>
      decide ((r.1.rows.map fun row => (cellsOf row).map (·.attribute? "r")) = [[some "A5"]]) &&
      (r.1.root.child? Vocabulary.dimension).any fun d =>
        (Shift.dimensionRange (d.attributeOr "ref" "")).toOption.any fun range =>
          decide ((range.holds (.plain "A" 5)).toOption = some false)) = true := by decide +kernel
  have done : (Small.strayingBook.substitute (.name "Data") (.ofValues [])).1 = w' := congrArg Prod.fst hsub
  have opened : w'.openSheet (.name "Data") = .ok (sheet', w') := by_.opened
  rw [done, opened] at after
  obtain ⟨cells, after⟩ := Bool.and_eq_true_iff.mp after
  obtain ⟨d, hd, after⟩ := (Option.any_eq_true _ _).mp after
  obtain ⟨range, hrange, outside⟩ := (Option.any_eq_true _ _).mp after
  refine ⟨hopen, toOption_eq_some_iff.mp (by decide +kernel), by decide +kernel, ?_, by decide +kernel, w', stats,
    sheet', hsub, opened, of_decide_eq_true cells, d, range, hd, toOption_eq_some_iff.mp hrange,
    toOption_eq_some_iff.mp (of_decide_eq_true outside)⟩
  exact ⟨Small.dimension "A6:C9", ⟨.plain "A" 6, .plain "C" 9⟩, by rfl,
    toOption_eq_some_iff.mp (by decide +kernel), toOption_eq_some_iff.mp (by decide +kernel)⟩

end Workbook
end Gridfill

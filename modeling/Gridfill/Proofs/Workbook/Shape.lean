import Gridfill.Proofs.Sheet.Shape
import Gridfill.Proofs.Workbook.Filled

/-!
# The shape of tables after a substitution

The range of a table is set anew for rows that are inserted above it, for records below a cell of it and for
columns that are added to it, in any number. Through all of them the table keeps its shape
(`shape_after_substitute`).
-/

namespace Gridfill

/-! ### A small table -/

namespace Small

open Expand (plainElement plainCell)

/-- A sheet with a list of records above a table, whose filter leaves out its last row. -/
def shapedSheet : Sheet where
  info := ⟨1, "Data", "sheet1.xml", none⟩
  root := plainElement "worksheet" []
    [plainElement "sheetData" [] [plainElement "row" [("r", "1")] [plainCell [("r", "A1"), ("t", "s")] "0"]]]
  tables := [⟨"table1.xml", plainElement "table" [("ref", "A3:B5")]
    [plainElement "autoFilter" [("ref", "A3:B4")] [],
     plainElement "tableColumns" [("count", "2")]
      [plainElement "tableColumn" [("id", "7"), ("name", "${ms}")] [],
       plainElement "tableColumn" [("id", "9"), ("name", "b")] []]]⟩]

/-- Two records for the rows and two names for the columns. -/
def shapedData : Bindings := .ofValues [("xs", .list [.int 1, .int 2]), ("ms", .list [.text "m1", .text "m2"])]

def shapedBook : Workbook := openedBook shapedSheet ["${table:xs}"]

end Small

namespace Workbook

open CellRef (numbered)

/-- A substitution keeps the shape of every table that has a filter with a range of its own and a list of columns:
the corners of the filter are as far from those of the table as they were, the range has as many columns more than
the list as it had, and it starts in its column. The columns are numbered from one on. -/
theorem shape_after_substitute {w w' ready : Workbook} {key : SheetKey} {data : Bindings} {stats : Expand.Stats}
    {sheet : Sheet} (hpool : w.pool.Built) (hopen : w.openSheet key = .ok (sheet, ready))
    (hsub : w.substitute key data = (w', .ok stats)) :
    ∃ sheet', w'.openSheet key = .ok (sheet', w') ∧
      List.Forall₂ (fun t t' : Table => ∀ e f columns, t.Shaped e f columns →
        ∃ e' f' columns', t'.Shaped e' f' columns' ∧ SameShape e f columns.length e' f' columns'.length ∧
          NumberedFrom 1 columns') sheet.tables sheet'.tables := by
  obtain ⟨filled, sheet', by_⟩ := exists_filledBy hpool hopen hsub
  obtain ⟨added, htables⟩ := by_.tables
  refine ⟨sheet', by_.opened, ?_⟩
  apply forall₂_comp _ (Table.kept_keepsShape.run by_.run) (Header.forall₂_of_fillTables htables)
  rintro t u t' kept ⟨n, hfill⟩ e f columns hs
  obtain ⟨e₁, f₁, hs₁, first⟩ := kept e f columns hs
  obtain ⟨e', f', columns', hs', second, numbered⟩ := Header.shape_of_fillTable hfill hs₁
  exact ⟨e', f', columns', hs', first.trans second, numbered⟩

/-- In the small sheet the filter still leaves out the last row of the table, whose range has a column for each
that it lists. -/
theorem shape_after_substitute_small :
    ∃ w' stats sheet' t' e' f' columns',
      Small.shapedBook.substitute (.name "Data") Small.shapedData = (w', .ok stats) ∧
      w'.openSheet (.name "Data") = .ok (sheet', w') ∧ sheet'.tables = [t'] ∧ t'.Shaped e' f' columns' ∧
      e'.offsets f' = ((0, 0), (-1, 0)) ∧ e'.columnCount = columns'.length ∧ e'.left = "A" ∧
      NumberedFrom 1 columns' := by
  have goes : (Small.shapedBook.substitute (.name "Data") Small.shapedData).2.toBool = true := by decide +kernel
  obtain ⟨w', stats, hsub⟩ := Small.exists_substitute_openedBook goes
  obtain ⟨sheet', opened, tables⟩ := shape_after_substitute (.ofTexts _)
    (Small.openSheet_openedBook Small.shapedSheet ["${table:xs}"]) hsub
  obtain ⟨t', _, keeps, rest, same⟩ := List.forall₂_cons_left_iff.mp tables
  obtain rfl := List.forall₂_nil_left_iff.mp rest
  obtain ⟨e', f', columns', shaped, shape, numbered⟩ := keeps ⟨3, 5, "A", "B"⟩ ⟨3, 4, "A", "B"⟩ _
    ⟨⟨⟨numbered 1 3, numbered 2 5⟩, toOption_eq_some_iff.mp (by decide +kernel), by decide +kernel⟩,
      ⟨_, ⟨numbered 1 3, numbered 2 4⟩, rfl, .inl (toOption_eq_some_iff.mp (by decide +kernel)), by decide +kernel⟩,
      _, rfl, rfl⟩
  have offsets := shape.offsets
  have unlisted := shape.unlisted
  have before : (⟨3, 5, "A", "B"⟩ : Extent).columnCount = 2 := by decide +kernel
  rw [before] at unlisted
  refine ⟨w', stats, sheet', t', e', f', columns', hsub, opened, same, shaped, ?_, ?_, shape.left, numbered⟩
  · rw [offsets]
    decide +kernel
  · have listed : (2 : Int) - 2 = e'.columnCount - columns'.length := unlisted.symm
    omega

end Workbook
end Gridfill

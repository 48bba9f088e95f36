import Gridfill.Proofs.Sheet.Overlap
import Gridfill.Proofs.Workbook.Filled

/-!
# Merged ranges after a substitution

The merged ranges of a sheet stay apart through a substitution if and only if, whenever rows are inserted behind
a row, only ranges of one row begin on it (`merges_apart_after_substitute`). A range of two rows on a row that
grows overlaps its own copy (`merges_overlap_after_substitute`).
-/

namespace Gridfill

open Markup (Element)

/-! ### Small sheets with merged ranges -/

namespace Small

open Expand (plainElement plainCell)

/-- A sheet with a list of records and a number two rows below it, and with the given merged ranges. -/
def mergedSheet (refs : List String) : Sheet where
  info := ⟨1, "Data", "sheet1.xml", none⟩
  root := plainElement "worksheet" []
    [plainElement "sheetData" []
      [plainElement "row" [("r", "1")] [plainCell [("r", "A1"), ("t", "s")] "0"],
       plainElement "row" [("r", "3")] [plainCell [("r", "A3")] "7"]],
     plainElement "mergeCells" [] (refs.map fun ref => plainElement "mergeCell" [("ref", ref)] [])]
  tables := []

/-- Three records for its placeholder. -/
def mergedData : Bindings := .ofValues [("xs", .list [.int 1, .int 2, .int 3])]

def mergedBook (refs : List String) : Workbook := openedBook (mergedSheet refs) ["${table:xs}"]

def mergedFilled (refs : List String) : Workbook := ((mergedBook refs).substitute (.name "Data") mergedData).1

theorem openSheet_mergedBook (refs : List String) :
    (mergedBook refs).openSheet (.name "Data") = .ok (mergedSheet refs, mergedBook refs) :=
  openSheet_openedBook (mergedSheet refs) ["${table:xs}"]

/-- Two rows are inserted, and no column. -/
theorem substitute_mergedBook (refs : List String)
    (stats : ((mergedBook refs).substitute (.name "Data") mergedData).2.toOption = some ⟨2, 0, 1, 0⟩) :
    (mergedBook refs).substitute (.name "Data") mergedData = (mergedFilled refs, .ok ⟨2, 0, 1, 0⟩) := by
  rw [← toOption_eq_some_iff.mp stats, mergedFilled]

end Small

namespace Workbook

open Expand (Insertions blocks growths ownNumber)

/-- A substitution in a sheet whose merged ranges are apart, with `gs` the rows as they are numbered when their turn
comes and how many rows are put behind each: the merged ranges are apart afterwards if and only if, whenever rows are
put behind a row, only ranges of one row begin on it. With rows in order these are the ranges that begin on a row
that grows from the start. -/
theorem merges_apart_after_substitute {w w' ready : Workbook} {key : SheetKey} {data : Bindings}
    {stats : Expand.Stats} {sheet : Sheet} (hpool : w.pool.Built) (hopen : w.openSheet key = .ok (sheet, ready))
    (hapart : MergesApart (merges sheet.root)) (hsub : w.substitute key data = (w', .ok stats)) :
    ∃ sheet' gs, w'.openSheet key = .ok (sheet', w') ∧
      let bs := blocks sheet w.document w.pool data
      sheet'.rows.map Element.meaning = bs.flatten.map Element.meaning ∧ Insertions bs gs ∧
      (MergesApart (merges sheet'.root) ↔ LevelAlong gs (merges sheet.root)) ∧
      ∀ numbers, sheet.rows.mapM ownNumber = .ok numbers → numbers.Pairwise (· < ·) →
        (MergesApart (merges sheet'.root) ↔
          ∀ g ∈ growths numbers bs, 0 < g.count → LevelAt g.number (merges sheet.root)) := by
  have sound := Pool.sound_of_built hpool
  obtain ⟨filled, sheet', by_, -, parts⟩ := exists_filledBy_parts hpool hopen hsub
  obtain ⟨gs, insertions, hgrown⟩ := Expand.merges_of_run by_.run
  have hmerges : merges sheet'.root = grown gs (merges sheet.root) := by
    rw [← hgrown, merges_eq, Element.child?_eq_head?, parts _ (by decide), ← Element.child?_eq_head?, ← merges_eq]
  have apart : MergesApart (merges sheet'.root) ↔ LevelAlong gs (merges sheet.root) := by
    rw [hmerges]
    exact mergesApart_grown_iff hapart
  refine ⟨sheet', gs, by_.opened, ?_, insertions, apart, ?_⟩
  · rw [by_.rows]
    exact (Expand.rows_of_run sound by_.run).2
  · intro numbers hnumbers hincreasing
    have heads := Expand.headsMoved_of_run sound hnumbers hincreasing by_.run
    have above : (([] : List Growth) ++ growths numbers (blocks sheet w.document w.pool data)).Pairwise
        (·.number < ·.number) := Expand.growths_pairwise hincreasing
    have fromStart := levelAlong_moved_iff (merges sheet.root) above
    rw [Expand.settled_nil, List.nil_append, ← insertions.eq_moved heads] at fromStart
    rw [apart, fromStart]

/-- On the small sheet a range of two columns gets two copies, and a range of two rows makes way for them. -/
theorem merges_apart_after_substitute_small :
    ∃ sheet', (Small.mergedFilled ["A1:B1", "A2:B3"]).openSheet (.name "Data") =
        .ok (sheet', Small.mergedFilled ["A1:B1", "A2:B3"]) ∧ MergesApart (merges sheet'.root) := by
  obtain ⟨sheet', gs, opened, -, -, -, ordered⟩ := merges_apart_after_substitute (.ofTexts _)
    (Small.openSheet_mergedBook ["A1:B1", "A2:B3"]) (by decide +kernel)
    (Small.substitute_mergedBook ["A1:B1", "A2:B3"] (by decide +kernel))
  refine ⟨sheet', opened, ?_⟩
  apply (ordered [1, 3] (toOption_eq_some_iff.mp (by decide +kernel)) (by decide)).mpr
  have grows : growths [1, 3] (blocks (Small.mergedSheet ["A1:B1", "A2:B3"])
      (Small.mergedBook ["A1:B1", "A2:B3"]).document (Small.mergedBook ["A1:B1", "A2:B3"]).pool Small.mergedData) =
        [⟨1, 2⟩, ⟨3, 0⟩] := by decide +kernel
  have ranges : merges (Small.mergedSheet ["A1:B1", "A2:B3"]).root =
      [some ⟨1, 1, "A", "B"⟩, some ⟨2, 3, "A", "B"⟩] := by decide +kernel
  rw [grows, ranges]
  intro g hg hcount e he htop
  simp only [List.mem_cons, List.not_mem_nil, or_false, Option.some.injEq] at hg he
  rcases hg with rfl | rfl <;> rcases he with rfl | rfl <;> simp at hcount htop ⊢

/-- A range of two rows on the row with the records overlaps its copies, with nothing wrong in the workbook. -/
theorem merges_overlap_after_substitute :
    (∃ before, Check.report (Small.mergedBook ["A1:A2"]) = .ok before ∧ before.hasErrors = false) ∧
      (Small.mergedBook ["A1:A2"]).openSheet (.name "Data") =
        .ok (Small.mergedSheet ["A1:A2"], Small.mergedBook ["A1:A2"]) ∧
      MergesApart (merges (Small.mergedSheet ["A1:A2"]).root) ∧
      (Small.mergedBook ["A1:A2"]).substitute (.name "Data") Small.mergedData =
        (Small.mergedFilled ["A1:A2"], .ok ⟨2, 0, 1, 0⟩) ∧
      ∃ sheet', (Small.mergedFilled ["A1:A2"]).openSheet (.name "Data") =
          .ok (sheet', Small.mergedFilled ["A1:A2"]) ∧
        merges sheet'.root = [some ⟨1, 2, "A", "A"⟩, some ⟨2, 3, "A", "A"⟩, some ⟨3, 4, "A", "A"⟩] ∧
        ¬ MergesApart (merges sheet'.root) := by
  have clean := Small.exists_report (w := Small.mergedBook ["A1:A2"]) (b := false) (by decide +kernel)
  have hsub := Small.substitute_mergedBook ["A1:A2"] (by decide +kernel)
  obtain ⟨_, sheet', by_⟩ := exists_filledBy (.ofTexts _) (Small.openSheet_mergedBook ["A1:A2"]) hsub
  have opened := by_.opened
  have after : ((Small.mergedFilled ["A1:A2"]).openSheet (.name "Data")).toOption.any (fun r =>
      merges r.1.root = [some ⟨1, 2, "A", "A"⟩, some ⟨2, 3, "A", "A"⟩, some ⟨3, 4, "A", "A"⟩]) = true := by
    decide +kernel
  rw [opened] at after
  have ranges := of_decide_eq_true after
  refine ⟨clean, Small.openSheet_mergedBook ["A1:A2"], by decide +kernel, hsub, sheet', opened, ranges, ?_⟩
  rw [ranges]
  decide +kernel

end Workbook
end Gridfill

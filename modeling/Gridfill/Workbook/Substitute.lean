import Gridfill.Workbook.Basic

/-!
# Filling a sheet of a workbook

A substitution goes over the live documents first: the rows of the sheet, the column names of its
tables and its dimension. None of this touches the package. When it has gone through, the order of
calculation is dropped if cells have moved, and the changed documents are written into the package.

A substitution that fails gives the workbook as it then is beside the failure. A failure before the
documents are written leaves the package as it was.
-/

namespace Gridfill

open Markup (Element Node)

namespace Workbook

/-- The result of going over the live documents of a sheet. -/
abbrev Outcome := Expand.Filled

/-- Fills the rows, the column names and the dimension of a sheet. -/
def fillSheet (w : Workbook) (sheet : Sheet) (data : Bindings) : Except Failure Outcome := do
  let filled ← Expand.run sheet w.document w.pool data
  let (tables, _) ← Header.fillTables data filled.sheet.tables
  let root ← Shift.growDimension filled.stats.rowsInserted filled.stats.columnsInserted
    filled.sheet.root
  return { filled with sheet := ⟨filled.sheet.info, root, tables⟩ }

/-- The workbook with the live documents of a filled sheet. -/
def putOutcome (w : Workbook) (o : Outcome) : Workbook :=
  { w.putSheet o.sheet with document := o.workbook, pool := o.pool }

/-! ### The order of calculation -/

/-- The element without the children for which `p` holds. -/
def dropChildren (e : Element) (tag : Markup.Tag) (p : Element → Bool) : Element :=
  { e with
    content := e.content.filter fun n =>
      match n with
      | .element c => !(c.tag = tag && p c)
      | _ => true }

/-- The relationships without those to the order of calculation. -/
def withoutCalcChain (relationships : Element) : Element :=
  dropChildren relationships Vocabulary.relationshipItem fun r =>
    r.attribute? "Type" = some Vocabulary.calcChainType

/-- The content types without that of a part. -/
def withoutOverride (types : Element) (part : String) : Element :=
  dropChildren types Vocabulary.contentOverride fun o =>
    o.attribute? "PartName" = some ("/" ++ part)

/-- Drops the order of calculation: its part, the relationships to it and its content type. -/
def dropCalcChain (w : Workbook) : Workbook × Except Failure Unit :=
  match w.calcChain with
  | none => (w, .ok ())
  | some part =>
    if part = "" then (w, .ok ())
    else
      let relationships := withoutCalcChain w.relationships
      let package := (w.package.remove part).writeDocument w.relationshipsPath relationships
      let w := { w with package := package, relationships := relationships }
      if package.has Vocabulary.contentTypesPart then
        match package.readDocument Vocabulary.contentTypesPart with
        | .error f => (w, .error f)
        | .ok types =>
          let package := package.writeDocument Vocabulary.contentTypesPart (withoutOverride types part)
          ({ w with package := package, calcChain := none }, .ok ())
      else ({ w with calcChain := none }, .ok ())

/-! ### Writing the documents -/

/-- Writes the live documents of a sheet into the package: the sheet, the workbook's own, the pool and
the tables. -/
def flush (w : Workbook) (sheet : Sheet) : Workbook × Except Failure Unit :=
  let package := (w.package.writeDocument sheet.info.path sheet.root).writeDocument w.path w.document
  match w.pool.writeTo w.stringsRoot with
  | .error f => ({ w with package := package }, .error f)
  | .ok (root, pool) =>
    let package := package.writeDocument w.stringsPath root
    let package := sheet.tables.foldl (fun p t => p.writeDocument t.path t.root) package
    ({ w with package := package, stringsRoot := root, pool := pool }, .ok ())

/-- Fills a sheet with values. -/
def substitute (w : Workbook) (key : SheetKey) (data : Bindings) :
    Workbook × Except Failure Expand.Stats :=
  match w.openSheet key with
  | .error f => (w, .error f)
  | .ok (sheet, w) =>
    match w.fillSheet sheet data with
    | .error f => (w, .error f)
    | .ok o =>
      let w := w.putOutcome o
      let moved := o.stats.rowsInserted ≠ 0 || o.stats.columnsInserted ≠ 0
      match if moved then w.dropCalcChain else (w, .ok ()) with
      | (w, .error f) => (w, .error f)
      | (w, .ok ()) =>
        match w.flush o.sheet with
        | (w, .error f) => (w, .error f)
        | (w, .ok ()) => (w, .ok o.stats)

end Workbook
end Gridfill

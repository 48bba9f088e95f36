import Gridfill.Workbook.Basic

/-!
# Checking a workbook

A report on the opened sheets: are rows and cells in order, do the cells that hold a place in the pool
hold one that exists, do all ranges read, and do the tables list as many columns as they say?
-/

namespace Gridfill

open Markup (Element)

/-- How bad an issue is. -/
inductive Severity where
  | error
  | warning
deriving DecidableEq, Repr

/-- What an issue is about. -/
inductive Category where
  | sharedString
  | rowOrder
  | cellOrder
  | range
  | table
deriving DecidableEq, Repr

/-- The word for the severity. -/
def Severity.word : Severity → String
  | .error => "error"
  | .warning => "warning"

/-- The word for the category. -/
def Category.word : Category → String
  | .sharedString => "shared_string"
  | .rowOrder => "row_order"
  | .cellOrder => "cell_order"
  | .range => "range"
  | .table => "table"

/-- Something that is wrong with a sheet. -/
structure Issue where
  sheet : String
  severity : Severity
  category : Category
  message : String
  /-- The size of the pool, for a place that it does not have. -/
  poolSize : Option Nat
deriving DecidableEq, Repr

/-- What was found in the opened sheets. -/
structure Report where
  checked : List String
  issues : List Issue
deriving DecidableEq, Repr

namespace Report

/-- Is any issue an error? -/
def hasErrors (r : Report) : Bool := r.issues.any fun i => i.severity = .error

/-- Is any issue a warning? -/
def hasWarnings (r : Report) : Bool := r.issues.any fun i => i.severity = .warning

end Report

namespace Check

/-- An error in a sheet. -/
def problem (sheet : String) (category : Category) (message : String) : Issue :=
  ⟨sheet, .error, category, message, none⟩

/-- The failure to read a reference as an issue; any other failure is one of the check. -/
def orIssue {α : Type} (outcome : Except Failure α) (issue : String → Issue) :
    Except Failure (Issue ⊕ α) :=
  match outcome with
  | .ok a => .ok (.inr a)
  | .error (.reference kind text) => .ok (.inl (issue (Failure.reference kind text).message))
  | .error f => .error f

/-! ### Rows and cells -/

/-- The issues of the place in the pool that a cell holds. -/
def checkPlace (sheet : String) (poolSize : Nat) (cell : Element) : Except Failure (List Issue) :=
  if cell.attribute? "t" = some "s" then do
    let text := Text.strip ((Cell.valueText cell).getD "").toList
    let isGood ←
      if Text.isDigitRun text then do
        let i ← parseInteger (String.ofList text)
        pure (decide (i < poolSize))
      else pure false
    if isGood then return []
    else
      let message := "Cell " ++ (cell.attribute? "r").getD "None" ++
        " points at missing shared string " ++ Text.quoted (String.ofList text)
      return [⟨sheet, .error, .sharedString, message, some poolSize⟩]
  else .ok []

/-- The issues of a cell in a row, `last` being the column of the cell before it, and its column. -/
def checkCell (sheet : String) (poolSize : Nat) (row last : Int) (cell : Element) :
    Except Failure (List Issue × Int) := do
  let ref := cell.attributeOr "r" ""
  if ref = "" then return (← checkPlace sheet poolSize cell, last)
  else
    match ← orIssue (CellRef.parse ref) (problem sheet .range) with
    | .inl issue => return ([issue], last)
    | .inr r =>
      let column ← r.columnNumber
      let inRow := if r.row = row then []
        else [problem sheet .rowOrder ("Cell " ++ ref ++ " is inside row " ++ toString row)]
      let inOrder := if last < column then []
        else [problem sheet .cellOrder
          ("Cell " ++ ref ++ " is out of column order in row " ++ toString row)]
      let place ← checkPlace sheet poolSize cell
      return (inRow ++ inOrder ++ place, column)

/-- The issues of the cells of a row. -/
def checkCells (sheet : String) (poolSize : Nat) (row : Int) :
    Int → List Element → Except Failure (List Issue)
  | _, [] => .ok []
  | last, cell :: cells => do
    let (issues, last) ← checkCell sheet poolSize row last cell
    let rest ← checkCells sheet poolSize row last cells
    return issues ++ rest

/-- The number of a row: its own, or one behind the row before it. -/
def rowNumber (last : Int) (row : Element) : Except Failure Int :=
  match row.attribute? "r" with
  | some s => parseInteger s
  | none => .ok (last + 1)

/-- The issues of rows, `last` being the number of the row before them. -/
def checkRows (sheet : String) (poolSize : Nat) : Int → List Element → Except Failure (List Issue)
  | _, [] => .ok []
  | last, row :: rows => do
    let number ← rowNumber last row
    let inOrder := if last < number then []
      else [problem sheet .rowOrder
        ("Row " ++ toString number ++ " follows row " ++ toString last)]
    let cells ← checkCells sheet poolSize number 0 (row.childrenWith Vocabulary.cell)
    let rest ← checkRows sheet poolSize number rows
    return inOrder ++ cells ++ rest

/-! ### Ranges -/

/-- The issue of a range that does not read. -/
def checkRange (sheet lead : String) (ref : String) : Except Failure (List Issue) := do
  match ← orIssue (CellRange.parse ref) (fun m => problem sheet .range (lead ++ m)) with
  | .inl issue => return [issue]
  | .inr _ => return []

/-- The width of the range of a table. -/
def tableWidth (t : Table) : Except Failure Int := do (← t.range).width

/-- The issues of the columns of a table with a range of the given width. -/
def checkColumns (sheet name : String) (t : Table) (width : Int) : Except Failure (List Issue) :=
  match t.columns? with
  | none => .ok []
  | some list => do
    let actual := (list.childrenWith Vocabulary.tableColumn).length
    let declared : Int ← match list.attribute? "count" with
      | some s => parseInteger s
      | none => pure (actual : Int)
    let count := if declared = actual then []
      else [problem sheet .table ("Table " ++ name ++ " declares " ++ toString declared ++
        " columns but has " ++ toString actual)]
    let range := if width = actual then []
      else [⟨sheet, .warning, .table, "Table " ++ name ++ " range " ++ t.ref ++ " is " ++
        toString width ++ " wide for " ++ toString actual ++ " columns", none⟩]
    return count ++ range

/-- The issues of a table. -/
def checkTable (sheet : String) (t : Table) : Except Failure (List Issue) := do
  let name := Text.quotedOr "None" t.name
  match ← orIssue (tableWidth t) (fun m => problem sheet .range ("Table " ++ name ++ ": " ++ m)) with
  | .inl issue => return [issue]
  | .inr width =>
    let filter ← match t.filter? with
      | none => pure []
      | some f => checkRange sheet ("Auto-filter of " ++ name ++ ": ") (f.attributeOr "ref" "")
    let columns ← checkColumns sheet name t width
    return filter ++ columns

/-! ### Sheets -/

/-- The issues of a sheet. -/
def checkSheet (poolSize : Nat) (s : Sheet) : Except Failure (List Issue) := do
  let rows ← checkRows s.name poolSize 0 s.rows
  let merges ← (s.root.descendants [Vocabulary.mergeCells, Vocabulary.mergeCell]).mapM fun m =>
    checkRange s.name "Merged cell: " (m.attributeOr "ref" "")
  let tables ← s.tables.mapM (checkTable s.name)
  return rows ++ merges.flatten ++ tables.flatten

/-- The report on the opened sheets of a workbook. -/
def report (w : Workbook) : Except Failure Report := do
  let issues ← w.opened.mapM (checkSheet w.pool.size)
  return ⟨w.opened.map (·.name), issues.flatten⟩

end Check
end Gridfill

import Gridfill.Workbook.Check
import Gridfill.Workbook.Substitute

/-!
# Sessions

A session works on one template at a time and stores what it writes in one way. Before a template is
loaded there are no texts and every other step fails; a template that does not load leaves the one
before in place.
-/

namespace Gridfill

open Archive (Entry Method)

/-- A template under work, and the way in which written parts are stored. -/
structure Session where
  method : Method
  workbook : Option Workbook

namespace Session

/-- A session without a template. -/
def start (method : Method) : Session := ⟨method, none⟩

/-- The workbook of the session. -/
def current (s : Session) : Except Failure Workbook :=
  match s.workbook with
  | some w => .ok w
  | none => .error .nothingLoaded

/-- The session with another workbook. -/
def withWorkbook (s : Session) (w : Workbook) : Session := { s with workbook := some w }

/-- Loads the template in a container. -/
def load (s : Session) (entries : List Entry) : Except Failure Session :=
  (Workbook.load entries).map s.withWorkbook

/-- The sheet that a key asks for, opened. -/
def sheet (s : Session) (key : SheetKey) : Except Failure (Sheet × Session) := do
  let (sheet, w) ← (← s.current).openSheet key
  return (sheet, s.withWorkbook w)

/-- Fills a sheet with values. -/
def substitute (s : Session) (key : SheetKey) (data : Bindings) :
    Session × Except Failure Expand.Stats :=
  match s.workbook with
  | none => (s, .error .nothingLoaded)
  | some w =>
    let r := w.substitute key data
    (s.withWorkbook r.1, r.2)

/-- The entries of the container that the template is written as. -/
def generate (s : Session) : Except Failure (List Entry) := do
  (← s.current).generate s.method

/-- The texts of the pool; there are none before a template is loaded. -/
def texts (s : Session) : List String := s.workbook.elim [] (·.pool.texts)

/-- The names of the parts in memory. -/
def partNames (s : Session) : Except Failure (List String) :=
  match s.workbook with
  | some w => .ok w.package.names
  | none => .error .nothingToList

/-- The report on the opened sheets. -/
def report (s : Session) : Except Failure Report :=
  match s.workbook with
  | some w => Check.report w
  | none => .error .nothingToCheck

end Session
end Gridfill

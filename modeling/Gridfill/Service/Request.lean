import Gridfill.Failure
import Gridfill.Value.Basic

/-!
# Requests

What a call to fill a template asks for: values for one sheet, or a list of sheets each with values.
A sheet is asked for by number or by name; a truth value counts as the number one or zero.
-/

namespace Gridfill

/-- Values for one sheet; without a key, for the default sheet. -/
structure SheetRequest where
  sheet : Option SheetKey
  data : Bindings

/-- What a call asks for. -/
structure RenderRequest where
  single : SheetRequest
  sheets : Option (List SheetRequest)

namespace RenderRequest

/-- The key that a value is. -/
def readKey : Option Value → Except Failure (Option SheetKey)
  | none => .ok none
  | some .null => .ok none
  | some (.int n) => .ok (some (.number n))
  | some (.bool b) => .ok (some (.number (if b then 1 else 0)))
  | some (.text s) => .ok (some (.name s))
  | some _ => .error .invalidRequest

section
variable (attribute? : Value → String → Option Value)

/-- The bindings that a value is, attributes being looked up by `attribute?`. -/
def readData : Option Value → Except Failure Bindings
  | none => .ok ⟨[], attribute?⟩
  | some (.mapping entries) => .ok ⟨entries, attribute?⟩
  | some _ => .error .invalidRequest

/-- A sheet with its values from the entries of a mapping. -/
def readSheet (entries : List (String × Value)) : Except Failure SheetRequest := do
  let sheet ← readKey (entries.lookup "sheet")
  let data ← readData attribute? (entries.lookup "substitutions")
  return ⟨sheet, data⟩

/-- A sheet with its values. -/
def readItem : Value → Except Failure SheetRequest
  | .mapping entries => readSheet attribute? entries
  | _ => .error .invalidRequest

/-- A list of sheets with their values. -/
def readSheets : Option Value → Except Failure (Option (List SheetRequest))
  | none => .ok none
  | some .null => .ok none
  | some (.list items) => (items.mapM (readItem attribute?)).map some
  | some _ => .error .invalidRequest

/-- The request that a value is. -/
def ofValue : Value → Except Failure RenderRequest
  | .mapping entries => do
    let single ← readSheet attribute? entries
    let sheets ← readSheets attribute? (entries.lookup "sheets")
    return ⟨single, sheets⟩
  | _ => .error .invalidRequest

end

/-- The sheets to fill, in order: those of the list when it has any. -/
def steps (r : RenderRequest) : List SheetRequest :=
  match r.sheets with
  | some (s :: ss) => s :: ss
  | _ => [r.single]

end RenderRequest
end Gridfill

import Gridfill.Text.Quoted

/-!
# Sheet keys

What a caller may ask for a sheet by. Only numbers and names can match a sheet; the other keys match
none.
-/

namespace Gridfill

/-- A key that a sheet is asked for by. -/
inductive SheetKey where
  | number (id : Int)
  | name (text : String)
  | flag (value : Bool)
  | absent
deriving DecidableEq, Repr

/-- The key as messages show it. -/
def SheetKey.shown : SheetKey → String
  | .number n => toString n
  | .name s => Text.quoted s
  | .flag b => if b then "True" else "False"
  | .absent => "None"

end Gridfill

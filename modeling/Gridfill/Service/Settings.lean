import Gridfill.Archive.Entry
import Gridfill.Failure
import Gridfill.Text.Uppercase

/-!
# Settings

The settings of the template service and how they are read from variables. A variable that is not set
leaves its setting at the default.
-/

namespace Gridfill

/-- The settings of the service. -/
structure Settings where
  maxUploadBytes : Int
  defaultSheet : String
  validateOutput : Bool
  method : Archive.Method
  logLevel : String
deriving DecidableEq, Repr

namespace Settings

/-- The settings when no variable is set. -/
def default : Settings := ⟨20 * 1024 * 1024, "1", true, .deflated, "INFO"⟩

/-- The limit on the size of templates; an empty variable counts as not set. -/
def readLimit : Option String → Except Failure Int
  | none => .ok default.maxUploadBytes
  | some s => if s = "" then .ok default.maxUploadBytes else parseInteger s

/-- Does the variable say yes? -/
def isYes (s : String) : Bool := s.toLower = "1" || s.toLower = "true"

/-- The settings that the given variables make. -/
def read (given : List (String × String)) : Except Failure Settings := do
  let limit ← readLimit (given.lookup "TEMPLATE_MAX_UPLOAD_BYTES")
  return {
    maxUploadBytes := limit
    defaultSheet := (given.lookup "TEMPLATE_DEFAULT_SHEET").getD default.defaultSheet
    validateOutput := ((given.lookup "TEMPLATE_VALIDATE_OUTPUT").map isYes).getD true
    method := ((given.lookup "TEMPLATE_COMPRESSION").map fun s =>
      Archive.Method.ofWord s.toLower).getD .deflated
    logLevel := String.ofList
      (Text.uppercase ((given.lookup "LOG_LEVEL").getD default.logLevel).toList) }

end Settings
end Gridfill

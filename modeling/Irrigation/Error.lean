import Irrigation.Chip
import Irrigation.Files
import Irrigation.Json.Decode

/-!
# Errors

Every operation that can fail fails with an `Error`: of a line, of a project document, or of the
configuration. `Error.message` is its text, and `Error.causes` the texts of the errors behind it.
-/

namespace Irrigation

/-- Why a project document cannot be read, written or applied. -/
inductive ProjectError
  /-- A required member is absent or of the wrong type. -/
  | missing (what : String)
  /-- The document is not of the expected shape. -/
  | malformed (what : String)
  /-- The stored mode is none that this controller runs. -/
  | unsupportedMode (mode : String)
  | file (e : FileError)
  | json (e : Json.Error)
  deriving DecidableEq, Repr

/-- The text of a project error. -/
def ProjectError.message : ProjectError → String
  | .missing what => s!"missing '{what}'"
  | .malformed what => s!"malformed section: {what}"
  | .unsupportedMode mode => s!"unsupported watering mode '{mode}'"
  | .file e => s!"I/O error: {e.message}"
  | .json e => s!"JSON error: {e.message}"

/-- Why an operation failed. -/
inductive Error
  | line (e : LineError)
  | project (e : ProjectError)
  | config (what : String)
  deriving DecidableEq, Repr

namespace Error

/-- The text of an error. -/
def message : Error → String
  | .line e => s!"hardware: {e.message}"
  | .project e => s!"project: {e.message}"
  | .config what => s!"config: {what}"

/-- The texts of the errors that caused an error, the nearest first. -/
def causes : Error → List String
  | .line e => [e.message]
  | .project (.file e) => [(ProjectError.file e).message, e.message]
  | .project (.json e) => [(ProjectError.json e).message, e.message]
  | .project e => [e.message]
  | .config _ => []

end Error

end Irrigation

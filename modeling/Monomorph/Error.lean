import Monomorph.Program.Document
import Monomorph.Settings.Document

/-!
# Errors

Why there is no program or no settings to work with, in one type and with one
wording for each cause. What is wrong with a document's grammar is not said in
more detail than that.

## Main definitions

* `Error`: The causes.
* `Error.message`: Their wording.
-/

namespace Monomorph

/-- Why there is nothing to work with: an input or output failed, a file cannot
    be read, a document cannot be understood, settings are out of bounds, or
    something else. -/
inductive Error where
  | io (text : String)
  | unreadable (path : String) (cause : String)
  | malformed (fault : Json.Fault)
  | invalidSettings (fault : Settings.Fault)
  | generic (text : String)
deriving DecidableEq

namespace Error

/-- The wording of a document's fault. -/
def faultMessage : Json.Fault → String
  | .malformed => "the document breaks the grammar"
  | .truncated => "the document ends too early"
  | .mismatch cause => cause.message

/-- The words before what is wrong with a document. -/
def malformedLabel : String := "Malformed program model: "

/-- The wording of an error. -/
def message : Error → String
  | io text => "IO error: " ++ text
  | unreadable path cause => s!"Failed to read {path}: {cause}"
  | malformed fault => malformedLabel ++ faultMessage fault
  | invalidSettings fault => "Invalid configuration: " ++ fault.message
  | generic text => "Generic error: " ++ text

/-- The error of a document that gives no program. -/
def ofProgram : Program.LoadFault → Error
  | .document fault => .malformed fault
  | .shape fault => .generic fault.message

/-- The error of a document that gives no settings. -/
def ofSettings : Settings.LoadFault → Error
  | .document fault => .malformed fault
  | .invalid fault => .invalidSettings fault

end Error

end Monomorph

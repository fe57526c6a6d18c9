import Monomorph.Json.Write

/-!
# Diagnostics

What an analysis has to say about a program besides its result. A diagnostic
has a code, which fixes its usual level, a message, perhaps the name of what it
is about, and suggestions. A report lists diagnostics by code, then by subject,
then by message, and keeps the order of those that agree in all three.

## Main definitions

* `Diagnostic`: A message with its code and level.
* `Diagnostic.Code`, `Diagnostic.Level`: The codes and levels.
* `Diagnostic.sort`: The order of a report.
* `Diagnostic.summary`, `Diagnostic.plainLines`, `Diagnostic.lines`: The texts
  of a diagnostic in a log, in plain reports and in reports.
-/

namespace Monomorph

namespace Diagnostic

/-- How serious a diagnostic is. -/
inductive Level where
  | info
  | warning
  | error
deriving DecidableEq, Repr

/-- The word for the level. -/
def Level.word : Level → String
  | info => "info"
  | warning => "warning"
  | error => "error"

/-- The word for the level in capitals. -/
def Level.label : Level → String
  | info => "INFO"
  | warning => "WARNING"
  | error => "ERROR"

/-- What a diagnostic is about. -/
inductive Code where
  | malformedGenericExpression
  | unknownDeclaration
  | duplicateDeclaration
  | invalidEnclosure
  | recursionDepthExceeded
  | nonConvergence
deriving DecidableEq, Repr

namespace Code

/-- The word for the code. -/
def word : Code → String
  | malformedGenericExpression => "malformed-generic-expression"
  | unknownDeclaration => "unknown-declaration"
  | duplicateDeclaration => "duplicate-declaration"
  | invalidEnclosure => "invalid-enclosure"
  | recursionDepthExceeded => "recursion-depth-exceeded"
  | nonConvergence => "non-convergence"

/-- The codes in the order in which a report lists them. -/
def all : List Code :=
  [malformedGenericExpression, unknownDeclaration, duplicateDeclaration, invalidEnclosure,
   recursionDepthExceeded, nonConvergence]

/-- The place of the code in a report. -/
def rank : Code → Nat
  | malformedGenericExpression => 0
  | unknownDeclaration => 1
  | duplicateDeclaration => 2
  | invalidEnclosure => 3
  | recursionDepthExceeded => 4
  | nonConvergence => 5

/-- The level of a diagnostic with this code. What was written and cannot be
    understood is an error; what was repaired or cut short is a warning. -/
def level : Code → Level
  | malformedGenericExpression => .error
  | unknownDeclaration => .error
  | duplicateDeclaration => .warning
  | invalidEnclosure => .warning
  | recursionDepthExceeded => .warning
  | nonConvergence => .warning

end Code

end Diagnostic

/-- A message about a program. -/
structure Diagnostic where
  level : Diagnostic.Level
  code : Diagnostic.Code
  message : String
  subject : Option String := none
  suggestions : List String := []
deriving DecidableEq, Repr

namespace Diagnostic

/-- A diagnostic about something, at the usual level of its code. -/
def about (code : Code) (subject message : String) : Diagnostic :=
  { level := code.level, code, message, subject := some subject }

/-- A diagnostic about nothing in particular, at the usual level of its code. -/
def general (code : Code) (message : String) : Diagnostic :=
  { level := code.level, code, message }

/-- Whether the diagnostic is an error. -/
def isError (d : Diagnostic) : Bool :=
  d.level == .error

/-- The order of two subjects: no subject comes before any. -/
def compareSubject : Option String → Option String → Ordering
  | none, none => .eq
  | none, some _ => .lt
  | some _, none => .gt
  | some a, some b => compare a b

/-- The order of two diagnostics in a report: by code, subject and message. -/
def compare (a b : Diagnostic) : Ordering :=
  (Ord.compare a.code.rank b.code.rank).then
    ((compareSubject a.subject b.subject).then (Ord.compare a.message b.message))

/-- The diagnostics in the order of a report, those that agree in code, subject
    and message staying as they are. -/
def sort (ds : List Diagnostic) : List Diagnostic :=
  ds.mergeSort fun a b => (compare a b).isLE

/-- The text of a diagnostic in a log. -/
def summary (d : Diagnostic) : String :=
  let hints :=
    if d.suggestions.isEmpty then "" else " (hints: " ++ "; ".intercalate d.suggestions ++ ")"
  d.message ++ " [" ++ d.code.word ++ "]" ++ hints

/-- The lines of a diagnostic in a plain report. -/
def plainLines (d : Diagnostic) : List String :=
  let subject := d.subject.elim "" fun name => "[" ++ name ++ "] "
  (subject ++ d.level.label ++ ": " ++ d.message ++ " (" ++ d.code.word ++ ")") ::
    d.suggestions.map fun suggestion => "   suggestion: " ++ suggestion

/-- The lines of a diagnostic in a report. -/
def lines (d : Diagnostic) : List String :=
  let subject := d.subject.elim "" fun name => " (" ++ name ++ ")"
  (d.level.word ++ "[" ++ d.code.word ++ "]: " ++ d.message ++ subject) ::
    d.suggestions.map fun suggestion => "  help: " ++ suggestion

/-- Writes a diagnostic, leaving out a subject or suggestions that are not
    there. -/
def write (d : Diagnostic) : Json.Writer :=
  Json.Writer.object
    ([("level", Json.Writer.text d.level.word),
      ("code", Json.Writer.text d.code.word),
      ("message", Json.Writer.text d.message)] ++
     d.subject.toList.map (fun name => ("subject", Json.Writer.text name)) ++
     (if d.suggestions.isEmpty then [] else
       [("suggestions", Json.Writer.texts d.suggestions)]))

end Diagnostic

end Monomorph

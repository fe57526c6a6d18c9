import Monomorph.Analysis
import Monomorph.Graph.Listing

/-!
# Reports

A plan in the form in which it is handed on: as text with a key on each line,
or as a document. Diagnostics follow the plan, and figures follow them, where
they are wanted. The two text formats differ in how they write diagnostics.

## Main definitions

* `Report.Format`: The formats.
* `Report`: A plan with what goes with it.
* `Report.render`: The text of a report.
-/

namespace Monomorph

/-- The format of a report. -/
inductive Report.Format where
  | text
  | plain
  | json
deriving DecidableEq, Repr

/-- The formats with their words. -/
def Report.Format.choices : List (String × Report.Format) :=
  [("text", .text), ("plain", .plain), ("json", .json)]

/-- A plan, the diagnostics that go with it, and figures if they are wanted. -/
structure Report where
  plan : Plan
  diagnostics : List Diagnostic := []
  stats : Option Stats := none

namespace Report

/-- The line of the figures. -/
def statsLine (s : Stats) : String :=
  s!"stats: {s.seeds} seeds, {s.expansions} expansions, {s.abandoned} abandoned, " ++
    s!"{s.detachedSites} detached sites, {s.passes} pass(es)" ++
    (if s.converged then "" else ", not converged")

/-- The lines of a report as text. -/
def lines (r : Report) (diagnostic : Diagnostic → List String) : List String :=
  r.plan.keys ++ r.diagnostics.flatMap diagnostic ++ (r.stats.map statsLine).toList

/-- Writes a report as a document. -/
def write (r : Report) : Json.Writer :=
  Json.Writer.object
    ([("entries", Json.Writer.array (r.plan.entries.map Plan.Entry.write)),
      ("diagnostics", Json.Writer.array (r.diagnostics.map Diagnostic.write))] ++
     r.stats.toList.map fun stats => ("stats", stats.write))

/-- The text of a report. -/
def render (r : Report) : Format → String
  | .text => unlines (r.lines Diagnostic.lines)
  | .plain => unlines (r.lines Diagnostic.plainLines)
  | .json => r.write.pretty ++ "\n"

end Report

end Monomorph

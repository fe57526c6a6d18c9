import Monomorph.Closure.Resolution
import Monomorph.Graph.Scan
import Monomorph.Plan

/-!
# Analysing a Program

From a program to its plan in one step: scan it, resolve its graph, and plan
what is to be specialised. An analysis always comes to an end with a plan;
whatever went wrong on the way is among its diagnostics.

## Main definitions

* `Analysis`: A plan with everything it came from.
* `Program.analyze`: The analysis of a program.
-/

namespace Monomorph

/-- A plan with the scan and the resolution it came from. -/
structure Analysis where
  scan : Scan
  resolution : Resolution
  plan : Plan

/-- The analysis of a program under some settings. -/
def Program.analyze (p : Program) (settings : Settings) : Analysis :=
  let scan := p.scan settings.maxTypeNesting
  let resolution := scan.graph.resolve settings
  { scan, resolution
    plan := .ofInstantiations scan.graph.table (resolution.published scan.graph.table) }

namespace Analysis

/-- The table of the program. -/
def table (a : Analysis) : Table :=
  a.scan.graph.table

/-- Everything there is to report, in the order of a report. -/
def diagnostics (a : Analysis) : List Diagnostic :=
  Diagnostic.sort (a.scan.diagnostics ++ a.resolution.diagnostics a.table)

/-- How many of the diagnostics are errors. -/
def errorCount (a : Analysis) : Nat :=
  (a.diagnostics.filter Diagnostic.isError).length

/-- Whether any of the diagnostics is an error. -/
def hasErrors (a : Analysis) : Bool :=
  a.diagnostics.any Diagnostic.isError

/-- What was reached, in canonical order. -/
def reached (a : Analysis) : List Instantiation :=
  canonicalize a.table a.resolution.reached.keys

end Analysis

end Monomorph

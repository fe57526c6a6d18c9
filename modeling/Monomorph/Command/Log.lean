import Monomorph.Analysis
import Monomorph.Text.Terminal

/-!
# Logs

What a command says about its work while it does it. Each line has a level, and
a threshold decides which of them are shown.

## Main definitions

* `Log.Level`, `Log.Line`: Lines with their levels.
* `Log.Line.tamed`: A line that is safe on a terminal.
* `Log.upTo`: The lines up to a threshold.
* `Scan.log`, `Resolution.log`, `Analysis.log`: What the stages have to say.
-/

namespace Monomorph

namespace Log

/-- How important a line is. -/
inductive Level where
  | error
  | warn
  | info
  | debug
  | trace
deriving DecidableEq, Repr

namespace Level

/-- The place of a level, the most important one first. -/
def rank : Level → Nat
  | error => 0
  | warn => 1
  | info => 2
  | debug => 3
  | trace => 4

/-- The word for a level in a log. -/
def label : Level → String
  | error => "ERROR"
  | warn => "WARN"
  | info => "INFO"
  | debug => "DEBUG"
  | trace => "TRACE"

/-- The levels with the words by which they are chosen. -/
def choices : List (String × Level) :=
  [("error", error), ("warn", warn), ("info", info), ("debug", debug), ("trace", trace)]

end Level

/-- A line of a log, with the code of the diagnostic or the context of the
    failure that it is about, if it is about one. -/
structure Line where
  level : Level
  message : String
  code : Option Diagnostic.Code := none
  context : Option String := none
deriving DecidableEq, Repr

/-- The level and the message of a line, with the code if there is one. -/
def Line.summary (line : Line) : String :=
  line.level.label ++ " " ++ line.message ++
    line.code.elim "" fun code => " code=" ++ code.word

/-- The text of a line. -/
def Line.render (line : Line) : String :=
  line.summary ++ line.context.elim "" fun context => " e=" ++ context

/-- The line with everything in its message that a terminal obeys spelled
    out. -/
def Line.tamed (line : Line) : Line :=
  { line with message := Text.tamed line.message }

/-- The lines that are at least as important as the threshold. -/
def upTo (threshold : Level) (lines : List Line) : List Line :=
  lines.filter fun line => line.level.rank ≤ threshold.rank

/-- The line about a diagnostic. -/
def ofDiagnostic (d : Diagnostic) : Line where
  level := match d.level with
    | .info => .debug
    | .warning => .warn
    | .error => .warn
  message := d.summary
  code := some d.code

end Log

/-- What there is to say about a scan. -/
def Scan.log (s : Scan) : List Log.Line :=
  [{ level := .debug
     message := s!"scanned {s.graph.table.size} declarations: {s.graph.edges.length} call edges, " ++
      s!"{s.graph.hierarchy.length} hierarchy edges, {s.diagnostics.length} diagnostics" }]

/-- What there is to say about a pass. -/
def Pass.log (t : Table) (p : Pass) : List Log.Line :=
  p.expanded.map (fun work =>
    { level := .trace
      message := s!"expanding {work.inst.key t} at depth {work.depth}" }) ++
  p.abandoned.map (fun given => Log.ofDiagnostic (abandonedDiagnostic t given)) ++
  [{ level := .info
     message :=
      s!"closure pass {p.number}: {p.discovered} new instantiations, {p.total} total" }]

/-- What there is to say about a resolution. No seed is given up, so nothing
    stands before the count of seeds. -/
def Resolution.log (t : Table) (r : Resolution) : List Log.Line :=
  { level := .debug, message := s!"seeded {r.stats.seeds} closures from closed call sites" } ::
    r.passes.flatMap (Pass.log t) ++ r.stalled.toList.map Log.ofDiagnostic

/-- What there is to say about an analysis. -/
def Analysis.log (a : Analysis) : List Log.Line :=
  a.scan.log ++ a.resolution.log a.table ++
    [{ level := .info
       message := s!"resolved {a.resolution.reached.size} closed instantiations " ++
        s!"({a.plan.size} to specialize) with {a.diagnostics.length} diagnostics" }]

end Monomorph

import Monomorph.Closure.Basic
import Monomorph.Diagnostic

/-!
# Resolving a Graph

The closure of a graph, confirmed. A first pass expands everything that the
seeds lead to; each further pass expands everything known once more, and a pass
that finds nothing new confirms that the closure is complete. The number of
passes is limited.

## Main definitions

* `Pass`: What one pass found.
* `Closure.passes`: All passes.
* `Stats`: The figures of a resolution.
* `Resolution`: What was reached, what was given up, and the figures.
* `Graph.resolve`: The resolution of a graph.
-/

namespace Monomorph

/-- What one pass found: how many instantiations were new, how many are known
    after it, which were given up in it, and what it expanded. -/
structure Pass where
  number : Nat
  discovered : Nat
  total : Nat
  abandoned : List (Instantiation × Limit)
  expanded : List Work

namespace Closure

/-- The passes with the state after them, and whether the last one confirmed
    the closure. -/
structure Run where
  state : State
  passes : List Pass
  converged : Bool

/-- Makes a pass over a frontier and then, unless it confirmed the closure, up
    to `remaining` more. -/
def passes (g : Graph) (settings : Settings) :
    Nat → Nat → State → List Work → Run
  | remaining, number, state, frontier =>
    let after := drain g settings (levels settings) state frontier
    let pass : Pass :=
      { number
        discovered := after.index.size - state.index.size
        total := after.index.size
        abandoned := after.abandoned.entries.drop state.abandoned.size
        expanded := after.expanded.drop state.expanded.length }
    if 1 < number ∧ pass.discovered = 0 then ⟨after, [pass], true⟩
    else
      match remaining with
      | 0 => ⟨after, [pass], false⟩
      | remaining + 1 =>
        let run := passes g settings remaining (number + 1) after after.snapshot
        { run with passes := pass :: run.passes }

end Closure

/-- The figures of a resolution: seeds, expansions, open sites that nothing
    reached, instantiations given up, passes, and whether the closure was
    confirmed. -/
structure Stats where
  seeds : Nat
  expansions : Nat
  detachedSites : Nat
  abandoned : Nat
  passes : Nat
  converged : Bool
deriving DecidableEq, Repr

/-- Writes the figures. -/
def Stats.write (s : Stats) : Json.Writer :=
  Json.Writer.object
    [("seeds", Json.Writer.natural s.seeds),
     ("expansions", Json.Writer.natural s.expansions),
     ("detached_sites", Json.Writer.natural s.detachedSites),
     ("abandoned", Json.Writer.natural s.abandoned),
     ("passes", Json.Writer.natural s.passes),
     ("converged", Json.Writer.boolean s.converged)]

/-- What was reached, each with its hops; what was given up, each with the limit
    it exceeded; the passes made; what is to be said if the last of them still
    found something; and the figures. -/
structure Resolution where
  reached : FirstMap Instantiation Nat
  abandoned : FirstMap Instantiation Limit
  passes : List Pass
  stalled : Option Diagnostic
  stats : Stats

/-- The diagnostic for an instantiation that was given up. -/
def abandonedDiagnostic (t : Table) (given : Instantiation × Limit) : Diagnostic :=
  let key := given.1.key t
  .about .recursionDepthExceeded key s!"abandoned `{key}`: {given.2.reason}"

/-- The diagnostic for a closure that was still growing when the passes were
    used up. -/
def stalledDiagnostic (passes known : Nat) : Diagnostic :=
  .general .nonConvergence
    s!"closure set still growing after {passes} passes; returning the {known} instantiations found so far"

/-- How many sites are open and stand in a declaration of which nothing was
    reached. -/
def Graph.detachedSites (g : Graph) (reached : List Instantiation) : Nat :=
  (g.siteEdges.filter fun edge =>
    !Expr.allClosed edge.args && !reached.any fun i => i.decl = edge.caller).length

/-- The resolution of a graph. -/
def Graph.resolve (g : Graph) (settings : Settings) : Resolution :=
  let (state, frontier) := Closure.start g settings
  let run := Closure.passes g settings (settings.maxPasses - 1) 1 state frontier
  { reached := run.state.index
    abandoned := run.state.abandoned
    passes := run.passes
    stalled :=
      if !run.converged ∧ 1 < settings.maxPasses then
        some (stalledDiagnostic run.passes.length run.state.index.size)
      else none
    stats :=
      { seeds := frontier.length
        expansions := run.state.expanded.length
        detachedSites := g.detachedSites run.state.index.keys
        abandoned := run.state.abandoned.size
        passes := run.passes.length
        converged := run.converged } }

namespace Resolution

/-- What there is to report about a resolution, in the order of a report. -/
def diagnostics (r : Resolution) (t : Table) : List Diagnostic :=
  Diagnostic.sort (r.abandoned.entries.map (abandonedDiagnostic t) ++ r.stalled.toList)

/-- The forms in which what was reached is to be specialised. -/
def published (r : Resolution) (t : Table) : List Instantiation :=
  r.reached.keys.filterMap fun i =>
    match t.get? i.decl with
    | some entry => if entry.requiresSpecialization then some (i.published entry) else none
    | none => none

end Resolution

end Monomorph

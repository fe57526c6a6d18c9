import Monomorph.FirstMap
import Monomorph.Graph.Basic
import Monomorph.Instantiation.Basic
import Monomorph.Settings.Basic
import Monomorph.Subst

/-!
# Closing a Graph

Which instantiations a program can reach. The sites whose arguments are closed
as written are the seeds. From an instantiation, the edges of its declaration
lead on: their arguments, with the formals replaced by the arguments of the
instantiation, make the next ones.

The search goes level by level, so an instantiation is first met along a
shortest way and the hops recorded for it are the fewest possible. One that is
too far away or too deeply nested is given up, and given up once, with the
reason that was met first.

## Main definitions

* `Work`: An instantiation at a number of hops.
* `Graph.successors`: Where the edges lead from an instantiation.
* `Graph.seeds`: The instantiations written closed.
* `Limit`: Which limit an instantiation exceeds.
* `Closure.State`: What is known, given up and expanded.
* `Closure.offer`: What becomes of one candidate.
* `Closure.level`: Expanding a whole frontier.
* `Closure.drain`: Expanding until nothing new turns up.
-/

namespace Monomorph

/-- An instantiation at a number of hops from a seed. -/
structure Work where
  inst : Instantiation
  depth : Nat
deriving DecidableEq

/-- The formals of an instantiation's declaration with its arguments. -/
def Graph.binding (g : Graph) (i : Instantiation) : Subst :=
  Subst.ofPairs (g.table.formals i.decl) i.args

/-- Where the edges of an instantiation's declaration lead under its arguments,
    in order. An edge that stays open leads nowhere. -/
def Graph.successors (g : Graph) (i : Instantiation) : List Instantiation :=
  (g.targets i.decl).filterMap fun target =>
    ((g.binding i).closeAll? target.2).bind (Instantiation.ofArgs? target.1)

/-- The instantiations that sites write closed, in order. -/
def Graph.seeds (g : Graph) : List Instantiation :=
  g.siteEdges.filterMap fun edge => Instantiation.ofArgs? edge.callee edge.args

/-- Which limit an instantiation exceeds. -/
inductive Limit where
  | hops (limit : Nat)
  | nesting (limit : Nat)
deriving DecidableEq, Repr

/-- The wording of a limit. -/
def Limit.reason : Limit → String
  | hops limit => s!"more than {limit} expansion hops from any seed"
  | nesting limit => s!"type arguments nested deeper than {limit}"

namespace Closure

/-- What is known, each with its hops; what was given up, each with the limit it
    exceeded first; and what has been expanded, in order. -/
structure State where
  index : FirstMap Instantiation Nat := .empty
  abandoned : FirstMap Instantiation Limit := .empty
  expanded : List Work := []

/-- The limit that a candidate exceeds, if any. The hops are looked at first. -/
def exceeded? (settings : Settings) (work : Work) : Option Limit :=
  if settings.maxDepth < work.depth then some (.hops settings.maxDepth)
  else if settings.maxTypeNesting < work.inst.nesting then
    some (.nesting settings.maxTypeNesting)
  else none

/-- What becomes of a candidate: one that is known is passed over, one that
    exceeds a limit is given up, and any other is known from now on and is to be
    expanded. -/
def offer (settings : Settings) (state : State) (work : Work) : State × List Work :=
  if state.index.contains work.inst then (state, [])
  else
    match exceeded? settings work with
    | some limit => ({ state with abandoned := state.abandoned.insert work.inst limit }, [])
    | none => ({ state with index := state.index.insert work.inst work.depth }, [work])

/-- What becomes of candidates, one after the other, and those that are to be
    expanded. -/
def offerAll (settings : Settings) (state : State) : List Work → State × List Work
  | [] => (state, [])
  | work :: rest =>
    let (state, now) := offer settings state work
    let (state, later) := offerAll settings state rest
    (state, now ++ later)

/-- The candidates that expanding an instantiation brings up. -/
def candidates (g : Graph) (work : Work) : List Work :=
  (g.successors work.inst).map fun inst => ⟨inst, work.depth + 1⟩

/-- Expands a frontier, and gives the next one. -/
def level (g : Graph) (settings : Settings) (state : State) (frontier : List Work) :
    State × List Work :=
  offerAll settings { state with expanded := state.expanded ++ frontier }
    (frontier.flatMap (candidates g))

/-- Expands frontier after frontier until there is none, for at most the given
    number of levels. -/
def drain (g : Graph) (settings : Settings) : Nat → State → List Work → State
  | 0, state, _ => state
  | _ + 1, state, [] => state
  | levels + 1, state, frontier =>
    let (state, next) := level g settings state frontier
    drain g settings levels state next

/-- How many levels can be expanded before the limit on hops leaves none. -/
def levels (settings : Settings) : Nat :=
  settings.maxDepth + 1

/-- The state after the seeds have been offered, and those to be expanded. -/
def start (g : Graph) (settings : Settings) : State × List Work :=
  offerAll settings {} (g.seeds.map fun inst => ⟨inst, 0⟩)

/-- Everything that is known, to be expanded again. -/
def State.snapshot (state : State) : List Work :=
  state.index.entries.map fun entry => ⟨entry.1, entry.2⟩

end Closure

end Monomorph

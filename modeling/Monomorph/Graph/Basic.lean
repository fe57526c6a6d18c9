import Monomorph.Table.Basic

/-!
# Graphs of Uses

Which declarations a declaration uses, and with which type arguments. An edge
comes from a site in a body, or leads from a type to a member that takes no
arguments of its own, which is reached along with it. A hierarchy edge leads
from a type to what it inherits from. The arguments of an edge may mention the
formals of its source, and there is one of them for each formal of its target.

## Main definitions

* `Edge`, `HierarchyEdge`: The two sorts of edges.
* `placesBy`: The places of keys in a list, by key.
* `Graph`: A table with its edges.
* `Graph.outgoing`, `Graph.bases`: The places of the edges, by what they leave.
* `Graph.edgesFrom`, `Graph.basesOf`: The edges that leave a declaration.
* `Graph.targets`: Where the edges of a declaration lead, in order.
-/

namespace Monomorph

/-- Where an edge comes from: a site, or a type having a member. -/
inductive EdgeKind where
  | site (kind : SiteKind)
  | member
deriving DecidableEq, Repr

/-- The word for the kind of edge. -/
def EdgeKind.word : EdgeKind → String
  | site kind => kind.word
  | member => "member"

/-- One declaration uses another with type arguments for its formals. -/
structure Edge where
  caller : DeclId
  callee : DeclId
  args : List Expr
  kind : EdgeKind
deriving DecidableEq, Repr

/-- One type inherits from another with type arguments for its formals. -/
structure HierarchyEdge where
  derived : DeclId
  base : DeclId
  args : List Expr
deriving DecidableEq, Repr

/-- The places of keys in a list, in one row for each number below `size`: the row of a
    number has the places where it stands, in order. -/
def placesBy (size : Nat) (keys : List DeclId) : List (List Nat) :=
  keys.zipIdx.foldl (fun rows item => rows.modify item.1 (· ++ [item.2]))
    (List.replicate size [])

/-- A table of declarations with the edges between them, in the order in which
    they were found. Every edge leaves a declaration of the table. -/
@[ext]
structure Graph where
  table : Table := {}
  edges : List Edge := []
  hierarchy : List HierarchyEdge := []
  caller_lt : ∀ edge ∈ edges, edge.caller < table.size := by decide
  derived_lt : ∀ edge ∈ hierarchy, edge.derived < table.size := by decide
deriving DecidableEq, Repr

namespace Graph

/-- The places of the edges that leave each declaration. -/
def outgoing (g : Graph) : List (List Nat) :=
  placesBy g.table.size (g.edges.map Edge.caller)

/-- The places of the hierarchy edges that leave each declaration. -/
def bases (g : Graph) : List (List Nat) :=
  placesBy g.table.size (g.hierarchy.map HierarchyEdge.derived)

/-- The edges that leave a declaration. -/
def edgesFrom (g : Graph) (id : DeclId) : List Edge :=
  ((g.outgoing[id]?).getD []).filterMap (g.edges[·]?)

/-- The hierarchy edges that leave a declaration. -/
def basesOf (g : Graph) (id : DeclId) : List HierarchyEdge :=
  ((g.bases[id]?).getD []).filterMap (g.hierarchy[·]?)

/-- Where the edges of a declaration lead, and with which arguments: first its
    uses, then what it inherits from. -/
def targets (g : Graph) (id : DeclId) : List (DeclId × List Expr) :=
  (g.edgesFrom id).map (fun edge => (edge.callee, edge.args)) ++
    (g.basesOf id).map (fun edge => (edge.base, edge.args))

/-- The edges that come from sites. -/
def siteEdges (g : Graph) : List Edge :=
  g.edges.filter fun edge => edge.kind != .member

end Graph

end Monomorph

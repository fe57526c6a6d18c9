import Monomorph.Expr.Basic
import Monomorph.Program.Basic

/-!
# The Table of Declarations

The declarations of a program after registration. Each has a number, its place
in the table, a link to the declaration that encloses it, and its formals: the
parameters of everything that encloses it, outermost first, followed by its
own. Type arguments for a declaration are arguments for its formals.

## Main definitions

* `Entry`: A registered declaration.
* `Table`: The registered declarations in order.
* `Table.find?`: The number of the declaration with a name.
* `Table.chain`: A declaration and what encloses it, from the inside out.
* `Table.encloses`: Whether one declaration is another or encloses it.
-/

namespace Monomorph

/-- A registered declaration. -/
structure Entry where
  name : String
  kind : Kind
  ownParams : List String
  formals : List String
  enclosing : Option DeclId
  requiresSpecialization : Bool
deriving DecidableEq, Repr

/-- How many type arguments the declaration takes. -/
def Entry.arity (entry : Entry) : Nat :=
  entry.formals.length

/-- Links from each declaration to the one that encloses it, by number. -/
abbrev Links := List (Option DeclId)

namespace Links

/-- The declaration that encloses the given one. -/
def parent? (links : Links) (id : DeclId) : Option DeclId :=
  (links[id]?).join

/-- A declaration and what encloses it, from the inside out, for at most `fuel`
    declarations. -/
def chain (links : Links) : Nat → DeclId → List DeclId
  | 0, _ => []
  | fuel + 1, id =>
    id :: match links.parent? id with
      | none => []
      | some parent => chain links fuel parent

end Links

/-- The registered declarations, each at the place of its number. -/
structure Table where
  entries : List Entry := []
deriving DecidableEq, Repr

namespace Table

/-- How many declarations are registered. -/
def size (t : Table) : Nat :=
  t.entries.length

/-- The declaration with a number. -/
def get? (t : Table) (id : DeclId) : Option Entry :=
  t.entries[id]?

/-- The number of the declaration with a name. -/
def find? (t : Table) (name : String) : Option DeclId :=
  t.entries.findIdx? fun entry => entry.name == name

/-- The name of a declaration. -/
def name (t : Table) (id : DeclId) : String :=
  (t.get? id).elim "" Entry.name

/-- The formals of a declaration. -/
def formals (t : Table) (id : DeclId) : List String :=
  (t.get? id).elim [] Entry.formals

/-- The links between the declarations. -/
def links (t : Table) : Links :=
  t.entries.map Entry.enclosing

/-- A declaration and what encloses it, from the inside out. No chain is longer
    than the table. -/
def chain (t : Table) (id : DeclId) : List DeclId :=
  t.links.chain t.size id

/-- Whether `outer` is `inner` or encloses it. -/
def encloses (t : Table) (outer inner : DeclId) : Bool :=
  (t.chain inner).contains outer

/-- The declarations with their numbers. -/
def numbered (t : Table) : List (DeclId × Entry) :=
  t.entries.zipIdx.map fun pair => (pair.2, pair.1)

end Table

end Monomorph

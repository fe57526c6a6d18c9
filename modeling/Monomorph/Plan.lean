import Monomorph.Instantiation.Canonical
import Monomorph.Json.Write

/-!
# Plans

The instantiations to be specialised, in canonical order, each with the texts
that name it.

## Main definitions

* `Plan.Entry`: An instantiation with its texts.
* `Plan`: The entries in order.
* `Plan.ofInstantiations`: The plan of a set of instantiations.

## Theorems

* `Plan.map_instantiation_ofInstantiations`, `Plan.keys_ofInstantiations`: A plan
  lists a set in canonical order.
-/

namespace Monomorph

/-- An instantiation to be specialised, with the name of its declaration, the
    texts of its arguments and its key. -/
structure Plan.Entry where
  declaration : String
  arguments : List String
  key : String
  instantiation : Instantiation
deriving DecidableEq

/-- The instantiations to be specialised, in order. -/
structure Plan where
  entries : List Plan.Entry := []
deriving DecidableEq

namespace Plan

/-- The entry of an instantiation. -/
def entry (t : Table) (i : Instantiation) : Plan.Entry where
  declaration := t.name i.decl
  arguments := i.args.map (Expr.render t.name)
  key := i.key t
  instantiation := i

/-- The plan of a set of instantiations. -/
def ofInstantiations (t : Table) (items : List Instantiation) : Plan where
  entries := (canonicalize t items).map (entry t)

/-- How many entries there are. -/
def size (p : Plan) : Nat :=
  p.entries.length

/-- The keys in order. -/
def keys (p : Plan) : List String :=
  p.entries.map Plan.Entry.key

theorem map_instantiation_ofInstantiations (t : Table) (items : List Instantiation) :
    (ofInstantiations t items).entries.map Plan.Entry.instantiation = canonicalize t items := by
  rw [ofInstantiations, List.map_map]
  exact List.map_id _

theorem keys_ofInstantiations (t : Table) (items : List Instantiation) :
    (ofInstantiations t items).keys = (canonicalize t items).map (Instantiation.key t) := by
  rw [keys, ofInstantiations, List.map_map]
  rfl

/-- The keys, one on a line. -/
def render (p : Plan) : String :=
  "\n".intercalate p.keys

/-- Writes an entry. -/
def Entry.write (e : Plan.Entry) : Json.Writer :=
  Json.Writer.object
    [("declaration", Json.Writer.text e.declaration),
     ("arguments", Json.Writer.texts e.arguments),
     ("key", Json.Writer.text e.key)]

end Plan

end Monomorph

import Monomorph.Instantiation.Basic

/-!
# The Canonical Order of Instantiations

A set of instantiations is listed by key and, where keys agree, by the order of
instantiations, each once. The list is built by inserting one after the other
at its place, so it depends on the set alone.

## Main definitions

* `Keyed`: An instantiation with its key.
* `Keyed.insert`: Inserts one at its place, unless it is there.
* `canonicalize`: The canonical list of a set.
-/

namespace Monomorph

/-- An instantiation with its key. -/
structure Keyed where
  key : String
  inst : Instantiation
deriving DecidableEq

namespace Keyed

/-- By key in code-point order, then by instantiation. -/
def compare (a b : Keyed) : Ordering :=
  (Ord.compare a.key b.key).then (a.inst.compare b.inst)

/-- Inserts an instantiation into a list in ascending order at its place, unless
    it is there. -/
def insert (x : Keyed) : List Keyed → List Keyed
  | [] => [x]
  | y :: rest =>
    match x.compare y with
    | .lt => x :: y :: rest
    | .eq => y :: rest
    | .gt => y :: insert x rest

end Keyed

/-- The instantiations in canonical order, each once. -/
def canonicalize (t : Table) (items : List Instantiation) : List Instantiation :=
  (items.foldr (fun i sorted => Keyed.insert ⟨i.key t, i⟩ sorted) []).map Keyed.inst

end Monomorph

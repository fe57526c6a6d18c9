import Monomorph.Expr.Order
import Monomorph.Table.Basic

/-!
# Closed Instantiations

A declaration with type arguments in which no parameter is left. That nothing
is left is part of the type, so whatever holds of instantiations holds without
a side condition. Two instantiations are the same when they name the same
declaration and their arguments are the same trees; their keys, which are text,
may agree without that.

## Main definitions

* `Instantiation`: A declaration with closed arguments.
* `Instantiation.ofArgs?`: From any arguments, if they are closed.
* `Instantiation.key`: Its text.
* `Instantiation.published`: The form in which it is specialised.
* `Instantiation.compare`: A total order.
-/

namespace Monomorph

/-- A declaration with closed type arguments. -/
structure Instantiation where
  decl : DeclId
  args : List Expr
  closed : Expr.allClosed args = true
deriving DecidableEq

namespace Instantiation

/-- The instantiation with the given arguments, if they are closed. -/
def ofArgs? (decl : DeclId) (args : List Expr) : Option Instantiation :=
  if h : Expr.allClosed args = true then some ⟨decl, args, h⟩ else none

/-- The text of an instantiation. -/
def key (t : Table) (i : Instantiation) : String :=
  Expr.renderApplied t.name i.decl i.args

/-- How deep its arguments are nested, zero for none. -/
def nesting (i : Instantiation) : Nat :=
  Expr.nestingAll i.args

/-- The form in which an instantiation of the given declaration is specialised.
    A declaration without parameters of its own is specialised once, whatever
    the arguments for what encloses it. -/
def published (entry : Entry) (i : Instantiation) : Instantiation :=
  if entry.ownParams.isEmpty then ⟨i.decl, [], rfl⟩ else i

/-- The order of instantiations: by declaration, then by arguments. -/
def compare (a b : Instantiation) : Ordering :=
  (Ord.compare a.decl b.decl).then (Expr.compareAll a.args b.args)

end Instantiation

end Monomorph

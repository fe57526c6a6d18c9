import Monomorph.Expr.Basic

/-!
# The Order of Type Expressions

A total order that breaks ties between instantiations with the same text.
Literals come first, then parameters, then applications; names are compared by
code point, declarations by number, and arguments from left to right, a list
that ends first coming first.

## Main definitions

* `Expr.compare`: The order of two expressions.
* `Expr.compareAll`: The order of two lists of them.
-/

namespace Monomorph

namespace Expr

mutual

/-- The order of two expressions. -/
def compare : Expr → Expr → Ordering
  | literal a, literal b => Ord.compare a b
  | literal _, param _ => .lt
  | literal _, app _ _ => .lt
  | param _, literal _ => .gt
  | param a, param b => Ord.compare a b
  | param _, app _ _ => .lt
  | app _ _, literal _ => .gt
  | app _ _, param _ => .gt
  | app f as, app g bs => (Ord.compare f g).then (compareAll as bs)

/-- The order of two lists of expressions. -/
def compareAll : List Expr → List Expr → Ordering
  | [], [] => .eq
  | [], _ :: _ => .lt
  | _ :: _, [] => .gt
  | a :: as, b :: bs => (compare a b).then (compareAll as bs)

end

end Expr

end Monomorph

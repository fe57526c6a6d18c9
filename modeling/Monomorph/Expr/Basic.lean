/-!
# Type Expressions

A type argument after its text has been understood: a literal, a reference to
a type parameter in scope, or a generic declaration applied to arguments. An
expression without parameters is closed.

Functions on expressions come in pairs, one for an expression and one for a
list of arguments, because the two are defined through each other. The lemmas
here say what the list half is in the vocabulary of lists, so that later
modules need not open the recursion.

## Main definitions

* `Expr`: A type expression.
* `Expr.isClosed`: No parameter occurs in it.
* `Expr.nesting`: How deep applications are nested, a leaf counting one.
* `Expr.chars`, `Expr.render`: The text of an expression.

## Theorems

* `Expr.induct`: Induction on an expression with a hypothesis for each argument.
* `Expr.allClosed_iff`: A list is closed when each of its members is.
* `Expr.nestingAll_le_iff`: A bound on a list bounds each of its members.
* `Expr.charsAll_eq_map`: A list is written by writing its members.
-/

namespace Monomorph

/-- The number of a registered declaration. -/
abbrev DeclId := Nat

/-- A type expression: a literal, a type parameter in scope, or a declaration
    applied to arguments. -/
inductive Expr where
  | literal (name : String)
  | param (name : String)
  | app (head : DeclId) (args : List Expr)
deriving Inhabited, Repr

namespace Expr

/-- Induction on an expression, with a hypothesis for each argument of an
    application. -/
theorem induct {motive : Expr → Prop} (literal : ∀ name, motive (.literal name))
    (param : ∀ name, motive (.param name))
    (app : ∀ head args, (∀ a ∈ args, motive a) → motive (.app head args)) :
    ∀ e, motive e :=
  @Expr.rec motive (fun args => ∀ a ∈ args, motive a) literal param app
    (fun _ h => absurd h List.not_mem_nil)
    (fun _ _ ihHead ihTail a ha => by
      rcases List.mem_cons.mp ha with rfl | ha
      · exact ihHead
      · exact ihTail a ha)

mutual

/-- Decides whether two expressions are the same. -/
def decEq : (a b : Expr) → Decidable (a = b)
  | literal a, literal b =>
    if h : a = b then .isTrue (by rw [h]) else .isFalse (by simp [h])
  | param a, param b =>
    if h : a = b then .isTrue (by rw [h]) else .isFalse (by simp [h])
  | app f as, app g bs =>
    if hf : f = g then
      match decEqAll as bs with
      | .isTrue h => .isTrue (by rw [hf, h])
      | .isFalse h => .isFalse (by simp [h])
    else .isFalse (by simp [hf])
  | literal _, param _ => .isFalse (by simp)
  | literal _, app _ _ => .isFalse (by simp)
  | param _, literal _ => .isFalse (by simp)
  | param _, app _ _ => .isFalse (by simp)
  | app _ _, literal _ => .isFalse (by simp)
  | app _ _, param _ => .isFalse (by simp)

/-- Decides whether two lists of expressions are the same. -/
def decEqAll : (as bs : List Expr) → Decidable (as = bs)
  | [], [] => .isTrue rfl
  | [], _ :: _ => .isFalse (by simp)
  | _ :: _, [] => .isFalse (by simp)
  | a :: as, b :: bs =>
    match decEq a b with
    | .isFalse h => .isFalse (by simp [h])
    | .isTrue h =>
      match decEqAll as bs with
      | .isTrue hs => .isTrue (by rw [h, hs])
      | .isFalse hs => .isFalse (by simp [hs])

end

instance : DecidableEq Expr := decEq

mutual

/-- Whether no parameter occurs in the expression. -/
def isClosed : Expr → Bool
  | literal _ => true
  | param _ => false
  | app _ args => allClosed args

/-- Whether no parameter occurs in any of the expressions. -/
def allClosed : List Expr → Bool
  | [] => true
  | a :: rest => a.isClosed && allClosed rest

end

/-- A list is closed when each of its members is. -/
@[simp]
theorem allClosed_iff (args : List Expr) :
    allClosed args = true ↔ ∀ a ∈ args, a.isClosed = true := by
  induction args with
  | nil => simp [allClosed]
  | cons a rest ih => simp [allClosed, ih]

mutual

/-- How deep applications are nested in the expression, a leaf counting one. -/
def nesting : Expr → Nat
  | literal _ => 1
  | param _ => 1
  | app _ args => 1 + nestingAll args

/-- The deepest nesting among the expressions, zero for none. -/
def nestingAll : List Expr → Nat
  | [] => 0
  | a :: rest => max a.nesting (nestingAll rest)

end

/-- A bound on the nesting of a list bounds that of each of its members. -/
@[simp]
theorem nestingAll_le_iff (args : List Expr) (n : Nat) :
    nestingAll args ≤ n ↔ ∀ a ∈ args, a.nesting ≤ n := by
  induction args with
  | nil => simp [nestingAll]
  | cons a rest ih =>
      simp only [nestingAll, Nat.max_le, List.mem_cons, forall_eq_or_imp, ih]

/-- Pieces of text with commas between them. -/
def commaJoin : List (List Char) → List Char
  | [] => []
  | [piece] => piece
  | piece :: rest => piece ++ ',' :: commaJoin rest

/-- Arguments between angle brackets, and nothing where there are none. -/
def bracketed : List (List Char) → List Char
  | [] => []
  | pieces => '<' :: commaJoin pieces ++ ['>']

mutual

/-- The characters of an expression, a declaration being written by its name and
    its arguments, if it has any, between angle brackets. -/
def chars (name : DeclId → String) : Expr → List Char
  | literal text => text.toList
  | param text => text.toList
  | app head args => (name head).toList ++ bracketed (charsAll name args)

/-- The characters of each of the expressions. -/
def charsAll (name : DeclId → String) : List Expr → List (List Char)
  | [] => []
  | a :: rest => a.chars name :: charsAll name rest

end

/-- The characters of a list are those of its members. -/
@[simp]
theorem charsAll_eq_map (name : DeclId → String) (args : List Expr) :
    charsAll name args = args.map (chars name) := by
  induction args with
  | nil => rfl
  | cons a rest ih => simp [charsAll, ih]

/-- The text of an expression. -/
def render (name : DeclId → String) (e : Expr) : String :=
  String.ofList (e.chars name)

/-- The text of a declaration applied to arguments. -/
def renderApplied (name : DeclId → String) (head : DeclId) (args : List Expr) : String :=
  String.ofList ((app head args).chars name)

end Expr

end Monomorph

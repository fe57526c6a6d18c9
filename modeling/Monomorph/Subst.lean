import Monomorph.Expr.Basic

/-!
# Substitutions

A substitution gives type expressions to some parameter names and leaves all
others alone. Substitutions compose: doing one and then another is one
substitution again, which is what lets a chain of uses reorder, rename and wrap
parameters at every hop.

A substitution is kept as a list of entries in which no name occurs twice, so
looking a name up has one answer and the number of entries is the number of
names. Two substitutions that differ only in the order of their entries are the
same map.

## Main definitions

* `Subst`: A finite map from parameter names to expressions.
* `Subst.ofPairs`: Names paired with expressions, the later pair winning.
* `Subst.apply`: The expression with its parameters replaced.
* `Subst.andThen`: One substitution and then another.
* `Subst.closeAll?`: The arguments replaced, if that leaves no parameter.

## Theorems

* `Subst.get?_empty`: The empty substitution has no expression for any name.
* `Subst.applyAll_eq_map`: A list is replaced by replacing in its members.
* `Subst.apply_literal`, `Subst.apply_param`, `Subst.apply_app`: Replacing in each sort of
  expression.
-/

namespace Monomorph

/-- A finite map from parameter names to expressions, as entries of which no two
    have the same name. -/
structure Subst where
  entries : List (String × Expr)
  nodup : (entries.map Prod.fst).Nodup
deriving DecidableEq

namespace Subst

/-- The substitution that changes nothing. -/
def empty : Subst where
  entries := []
  nodup := List.nodup_nil

instance : Inhabited Subst := ⟨empty⟩

/-- The expression for a name. -/
def get? (s : Subst) (name : String) : Option Expr :=
  s.entries.lookup name

@[simp]
theorem get?_empty (name : String) : empty.get? name = none :=
  rfl

/-- The substitution with the name given a new expression. -/
def insert (s : Subst) (name : String) (e : Expr) : Subst where
  entries := (name, e) :: s.entries.filter (fun entry => entry.1 != name)
  nodup := by
    simp only [List.map_cons, List.nodup_cons, List.mem_map, List.mem_filter]
    refine ⟨?_, ?_⟩
    · rintro ⟨entry, ⟨_, hne⟩, rfl⟩
      simp at hne
    · exact s.nodup.sublist (List.filter_sublist.map Prod.fst)

/-- Names paired with expressions in order, as far as both lists go. A name that
    occurs twice has the later expression. -/
def ofPairs (names : List String) (exprs : List Expr) : Subst :=
  (names.zip exprs).foldl (fun s pair => s.insert pair.1 pair.2) empty

/-- How many names the substitution gives an expression. -/
def size (s : Subst) : Nat :=
  s.entries.length

/-- Whether it gives none. -/
def isEmpty (s : Subst) : Bool :=
  s.entries.isEmpty

/-- Whether every expression it gives is closed. -/
def isClosed (s : Subst) : Bool :=
  s.entries.all fun entry => entry.2.isClosed

mutual

/-- The expression with each parameter that has an expression replaced by it. -/
def apply (s : Subst) : Expr → Expr
  | .literal name => .literal name
  | .param name => (s.get? name).getD (.param name)
  | .app head args => .app head (applyAll s args)

/-- The expressions with their parameters replaced. -/
def applyAll (s : Subst) : List Expr → List Expr
  | [] => []
  | a :: rest => apply s a :: applyAll s rest

end

/-- A list is replaced by replacing in its members. -/
@[simp]
theorem applyAll_eq_map (s : Subst) (args : List Expr) : s.applyAll args = args.map s.apply := by
  induction args with
  | nil => rfl
  | cons a rest ih => simp [applyAll, ih]

@[simp]
theorem apply_literal (s : Subst) (name : String) : s.apply (.literal name) = .literal name :=
  rfl

@[simp]
theorem apply_param (s : Subst) (name : String) :
    s.apply (.param name) = (s.get? name).getD (.param name) :=
  rfl

@[simp]
theorem apply_app (s : Subst) (head : DeclId) (args : List Expr) :
    s.apply (.app head args) = .app head (args.map s.apply) :=
  congrArg (Expr.app head) (s.applyAll_eq_map args)

/-- One substitution and then another: the second is applied to what the first
    gives, and speaks for the names that the first leaves alone. -/
def andThen (first second : Subst) : Subst where
  entries :=
    first.entries.map (fun entry => (entry.1, second.apply entry.2)) ++
      second.entries.filter (fun entry => !(first.entries.map Prod.fst).contains entry.1)
  nodup := by
    simp only [List.map_append, List.map_map]
    refine List.nodup_append.mpr ⟨?_, ?_, ?_⟩
    · exact first.nodup
    · exact second.nodup.sublist (List.filter_sublist.map Prod.fst)
    · rintro a ha b hb rfl
      simp only [List.mem_map, List.mem_filter] at ha hb
      obtain ⟨entry, hentry, rfl⟩ := ha
      obtain ⟨other, ⟨_, hnot⟩, heq⟩ := hb
      simp at hnot
      exact hnot entry.2 (by rw [heq]; exact hentry)

/-- The entries in the order of their names. -/
def sorted (s : Subst) : List (String × Expr) :=
  s.entries.mergeSort fun a b => (compare a.1 b.1).isLE

/-- Whether two substitutions are the same map. -/
def same (s t : Subst) : Bool :=
  s.sorted == t.sorted

/-- The expressions with their parameters replaced, if that leaves none. -/
def closeAll? (s : Subst) (args : List Expr) : Option (List Expr) :=
  let closed := s.applyAll args
  if Expr.allClosed closed then some closed else none

end Subst

end Monomorph

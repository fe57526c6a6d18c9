import Mathlib.Data.List.Nodup
import Monomorph.Proofs.Order

/-!
# The Canonical List of a Set

A set of instantiations has one canonical list, whatever list it was given as.

Keys alone would not be enough for that. A key is text, and different
instantiations may have the same one: a literal is written like a declaration
without arguments, and a declaration may be named like another one applied to
something. What shares a key is therefore ordered further, by declaration and then
by arguments. `Expr.Precedes` says that order in so many words: literals before
parameters before applications, names by code point, declarations by number, and
arguments as in a dictionary. The comparison that runs is the same order
(`Expr.compare_eq_lt_iff`), and since that one is total and tells different things
apart, a list in which everything precedes what comes later is determined by its
members (`eq_of_pairwise_precedes`).

What is canonical already is not changed by making it canonical. The two go
together: a list is its own canonical list exactly when it ascends
(`canonicalize_eq_self_iff`).

## Main definitions

* `Expr.Precedes`: The order of expressions.
* `Instantiation.Precedes`: The order of instantiations, by key and then by
  declaration and arguments.

## Theorems

* `Expr.compareAll_eq_lt_iff_of`, `Expr.compare_eq_lt_iff`,
  `Expr.compareAll_eq_lt_iff`: Comparing expressions decides their order.
* `Instantiation.compare_keyed_eq_lt_iff`: So does comparing instantiations with
  their keys.
* `eq_of_pairwise_precedes`: Ascending lists with the same members are the same.
* `canonicalize_pairwise_precedes`: A canonical list ascends.
* `canonicalize_eq_iff`: Canonical lists are the same where the sets are.
* `canonicalize_eq_self_iff`: What ascends is canonical.
* `canonicalize_congr`: The canonical list depends on the keys alone.
* `canonicalize_canonical`: One list for each set, with what is in the set, in order.
-/

namespace Monomorph

namespace Expr

/-- The order of expressions. Literals come before parameters and those before
    applications. Names are compared by code point, applications by the number of the
    declaration and then by their arguments from left to right, where a list that ends
    first comes first. -/
inductive Precedes : Expr → Expr → Prop
  | literal (a b : String) (hname : a < b) : Precedes (.literal a) (.literal b)
  | literal_param (a b : String) : Precedes (.literal a) (.param b)
  | literal_app (a : String) (g : DeclId) (bs : List Expr) : Precedes (.literal a) (.app g bs)
  | param (a b : String) (hname : a < b) : Precedes (.param a) (.param b)
  | param_app (a : String) (g : DeclId) (bs : List Expr) : Precedes (.param a) (.app g bs)
  | head (f g : DeclId) (as bs : List Expr) (hhead : f < g) : Precedes (.app f as) (.app g bs)
  | args (f : DeclId) (as bs : List Expr) (hargs : List.Lex Precedes as bs) :
      Precedes (.app f as) (.app f bs)

/-- Lists are compared as in a dictionary, if their members are compared in order. -/
theorem compareAll_eq_lt_iff_of (as bs : List Expr)
    (h : ∀ a ∈ as, ∀ b, compare a b = .lt ↔ a.Precedes b) :
    compareAll as bs = .lt ↔ List.Lex Precedes as bs := by
  induction as generalizing bs with
  | nil =>
      cases bs with
      | nil => simp only [compareAll, reduceCtorEq, List.not_lex_nil]
      | cons b bs => exact iff_of_true rfl .nil
  | cons a as ih =>
      cases bs with
      | nil => simp only [compareAll, reduceCtorEq, List.not_lex_nil]
      | cons b bs =>
          -- Two lists agree up to some place exactly as far as their members are the same.
          have heq : compare a b = .eq ↔ a = b :=
            ⟨eq_of_compare a b, fun hab => hab ▸ Std.ReflCmp.compare_self⟩
          rw [compareAll, Ordering.then_eq_lt, h a List.mem_cons_self b, heq,
            ih bs fun x hx => h x (List.mem_cons_of_mem a hx), List.cons_lex_cons_iff]

/-- Comparing two expressions decides which precedes the other. -/
theorem compare_eq_lt_iff (a b : Expr) : compare a b = .lt ↔ a.Precedes b := by
  -- By the kinds of both, since there is a rule for each pair of kinds that is in order.
  induction a using Expr.induct generalizing b with
  | literal name =>
      cases b with
      | literal other =>
          refine (compare_text_eq_lt_iff name other).trans ⟨.literal name other, fun h => ?_⟩
          cases h with
          | literal _ _ hname => exact hname
      | param other => exact iff_of_true rfl (.literal_param name other)
      | app head args => exact iff_of_true rfl (.literal_app name head args)
  | param name =>
      cases b with
      | literal other =>
          refine iff_of_false (by simp only [compare, reduceCtorEq, not_false_eq_true]) fun h => ?_
          cases h
      | param other =>
          refine (compare_text_eq_lt_iff name other).trans ⟨.param name other, fun h => ?_⟩
          cases h with
          | param _ _ hname => exact hname
      | app head args => exact iff_of_true rfl (.param_app name head args)
  | app f as ih =>
      cases b with
      | literal other =>
          refine iff_of_false (by simp only [compare, reduceCtorEq, not_false_eq_true]) fun h => ?_
          cases h
      | param other =>
          refine iff_of_false (by simp only [compare, reduceCtorEq, not_false_eq_true]) fun h => ?_
          cases h
      | app g bs =>
          rw [compare, Ordering.then_eq_lt, compareAll_eq_lt_iff_of as bs ih]
          constructor
          · rintro (hhead | ⟨heq, hargs⟩)
            · exact .head f g as bs (Nat.compare_eq_lt.mp hhead)
            · rw [Nat.compare_eq_eq.mp heq]
              exact .args g as bs hargs
          · intro h
            cases h with
            | head _ _ _ _ hhead => exact Or.inl (Nat.compare_eq_lt.mpr hhead)
            | args _ _ _ hargs => exact Or.inr ⟨Nat.compare_eq_eq.mpr rfl, hargs⟩

theorem compareAll_eq_lt_iff (as bs : List Expr) :
    compareAll as bs = .lt ↔ List.Lex Precedes as bs :=
  compareAll_eq_lt_iff_of as bs fun a _ b => compare_eq_lt_iff a b

end Expr

namespace Instantiation

/-- The order of instantiations in a canonical list: by key, then by the number of the
    declaration, then by the arguments as in a dictionary. -/
def Precedes (t : Table) (i j : Instantiation) : Prop :=
  i.key t < j.key t ∨ i.key t = j.key t ∧
    (i.decl < j.decl ∨ i.decl = j.decl ∧ List.Lex Expr.Precedes i.args j.args)

/-- Comparing instantiations with their keys decides which precedes the other. -/
theorem compare_keyed_eq_lt_iff (t : Table) (i j : Instantiation) :
    Keyed.compare ⟨i.key t, i⟩ ⟨j.key t, j⟩ = .lt ↔ i.Precedes t j := by
  have hkey : Ord.compare (i.key t) (j.key t) = .eq ↔ i.key t = j.key t :=
    Std.LawfulEqOrd.compare_eq_iff_eq
  rw [Keyed.compare, Ordering.then_eq_lt, compare_text_eq_lt_iff, hkey, compare,
    Ordering.then_eq_lt, Nat.compare_eq_lt, Nat.compare_eq_eq, Expr.compareAll_eq_lt_iff]
  rfl

end Instantiation

/-- Two ascending lists with the same members are the same list. -/
theorem eq_of_pairwise_precedes (t : Table) (xs ys : List Instantiation)
    (hxs : xs.Pairwise (Instantiation.Precedes t)) (hys : ys.Pairwise (Instantiation.Precedes t))
    (hmem : ∀ i, i ∈ xs ↔ i ∈ ys) : xs = ys := by
  -- Nothing precedes itself, and of two different things only one precedes the other.
  have hasymm : ∀ i j : Instantiation, i.Precedes t j → ¬ j.Precedes t i := by
    intro i j hij hji
    rw [← Instantiation.compare_keyed_eq_lt_iff] at hij hji
    exact Std.OrientedCmp.not_lt_of_lt hij hji
  have hnodup : ∀ zs : List Instantiation, zs.Pairwise (Instantiation.Precedes t) → zs.Nodup := by
    intro zs hzs
    refine hzs.imp fun {i j} hij heq => ?_
    subst heq
    exact hasymm i i hij hij
  have hperm : xs.Perm ys := (List.perm_ext_iff_of_nodup (hnodup xs hxs) (hnodup ys hys)).mpr hmem
  exact hperm.eq_of_pairwise (fun i j _ _ hij hji => absurd hji (hasymm i j hij)) hxs hys

section Canonical

variable (t : Table) (items : List Instantiation)

theorem canonicalize_pairwise_precedes :
    (canonicalize t items).Pairwise (Instantiation.Precedes t) :=
  (canonicalize_pairwise t items).imp fun {i j} hlt =>
    (Instantiation.compare_keyed_eq_lt_iff t i j).mp hlt

/-- Canonical lists are the same exactly where the sets are. -/
theorem canonicalize_eq_iff (others : List Instantiation) :
    canonicalize t items = canonicalize t others ↔ ∀ i, i ∈ items ↔ i ∈ others := by
  constructor
  · intro heq i
    rw [← mem_canonicalize_iff t items, heq, mem_canonicalize_iff]
  · intro hmem
    refine eq_of_pairwise_precedes t _ _ (canonicalize_pairwise_precedes t items)
      (canonicalize_pairwise_precedes t others) fun i => ?_
    simpa using hmem i

/-- A list is its own canonical list exactly when it ascends. -/
theorem canonicalize_eq_self_iff :
    canonicalize t items = items ↔ items.Pairwise (Instantiation.Precedes t) := by
  constructor
  · intro heq
    rw [← heq]
    exact canonicalize_pairwise_precedes t items
  · intro hascending
    exact eq_of_pairwise_precedes t _ _ (canonicalize_pairwise_precedes t items) hascending
      (mem_canonicalize_iff t items)

end Canonical

/-- The canonical order depends on nothing but the keys. -/
theorem canonicalize_congr (t t' : Table) (items : List Instantiation)
    (h : ∀ i ∈ items, i.key t' = i.key t) : canonicalize t' items = canonicalize t items := by
  unfold canonicalize
  refine congrArg _ (List.foldr_ext _ _ _ fun i hi sorted => ?_)
  rw [h i hi]

/-- Each set of instantiations has one canonical list. Two lists have the same one
    exactly when they have the same members, in whatever order and however often. It
    has what is in the set, each once, in ascending order, and is its own canonical
    list. -/
theorem canonicalize_canonical (t : Table) (items : List Instantiation) :
    (∀ others, canonicalize t items = canonicalize t others ↔ ∀ i, i ∈ items ↔ i ∈ others) ∧
    (∀ i, (canonicalize t items).count i = if i ∈ items then 1 else 0) ∧
    (canonicalize t items).Pairwise (Instantiation.Precedes t) ∧
    canonicalize t (canonicalize t items) = canonicalize t items := by
  refine ⟨canonicalize_eq_iff t items, fun i => ?_, canonicalize_pairwise_precedes t items, ?_⟩
  · rw [(canonicalize_nodup t items).count]
    simp only [mem_canonicalize_iff]
  · exact (canonicalize_eq_self_iff t _).mpr (canonicalize_pairwise_precedes t items)

-- A literal and a declaration without arguments are written alike, and both stay.
example : canonicalize ⟨[⟨"Pair", .type, [], [], none, false⟩]⟩
      [⟨0, [.app 0 []], rfl⟩, ⟨0, [.literal "Pair"], rfl⟩, ⟨0, [.app 0 []], rfl⟩] =
    [⟨0, [.literal "Pair"], rfl⟩, ⟨0, [.app 0 []], rfl⟩] := by
  decide +kernel

end Monomorph

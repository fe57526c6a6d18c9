import Mathlib.Data.List.Nodup
import Mathlib.Data.List.Perm.Basic
import Monomorph.Proofs.Substitution

/-!
# Substitutions as a Monoid

Composing substitutions is associative, the empty one is neutral, and applying a
composition is applying its parts in order. However a chain of substitutions is
bracketed, the result is therefore the same.

The laws hold of substitutions as maps and not of the lists of entries that
represent them: composing appends the names that only the second one knows, so
bracketing differently lists the entries differently. `SameMap` is equality of
maps. It says for each name which expression it has and also whether it has one,
which is more than applying can see, since a name without an expression and a
name that stands for itself are replaced by the same thing.

Everything about maps goes through looking a name up. Of a name that the first
substitution knows, the others only see the expression it was given, and there
the law is the one for applying (`apply_andThen`). A name that the first does not
know is left to the others.

## Main definitions

* `Subst.SameMap`: Two substitutions give each name the same expression, or none.
* `Bracketing`: A way of composing a chain of substitutions.

## Theorems

* `Subst.SameMap.refl`, `Subst.SameMap.symm`, `Subst.SameMap.trans`: Being the same map
  is an equivalence.
* `Subst.SameMap.apply`, `Subst.SameMap.andThen`: Applying and composing respect it.
* `Subst.lookup_eq_some_iff_mem`, `Subst.get?_eq_some_iff_mem`: Looking a name up finds
  its entry.
* `Subst.sameMap_iff_perm`: Equality of maps is equality of entries in any order.
* `Subst.same_iff_sameMap`: The comparison of sorted entries decides equality of
  maps.
* `Subst.apply_empty`: The empty substitution changes nothing.
* `Subst.andThen_assoc`, `Subst.empty_andThen`, `Subst.andThen_empty`: The laws of
  a monoid.
* `Subst.andThenAll_sameMap`: A chain is its first substitution and then the rest.
* `Bracketing.compose_sameMap`, `Bracketing.apply_compose`: Every bracketing of a chain
  gives the same map, and so does the same to an expression.
* `Subst.composition_laws`: All of them together, with the action on expressions.
-/

namespace Monomorph

namespace Subst

/-- The two give each name the same expression, and give one to the same names. -/
def SameMap (s t : Subst) : Prop :=
  ∀ name, s.get? name = t.get? name

namespace SameMap

theorem refl (s : Subst) : s.SameMap s :=
  fun _ => rfl

theorem symm {s t : Subst} (h : s.SameMap t) : t.SameMap s :=
  fun name => (h name).symm

theorem trans {s t u : Subst} (hst : s.SameMap t) (htu : t.SameMap u) : s.SameMap u :=
  fun name => (hst name).trans (htu name)

/-- What a substitution does to an expression depends on the map alone. -/
theorem apply {s t : Subst} (h : s.SameMap t) (e : Expr) : s.apply e = t.apply e := by
  induction e using Expr.induct with
  | literal name => rfl
  | param name => simp [h name]
  | app head args ih => simpa using ih

/-- Composing respects equality of maps on both sides. -/
theorem andThen {s s' t t' : Subst} (hs : s.SameMap s') (ht : t.SameMap t') :
    (s.andThen t).SameMap (s'.andThen t') := by
  intro name
  cases hname : s'.get? name with
  | none => simp [hs name, ht name, hname]
  | some e => simp [hs name, hname, ht.apply e]

end SameMap

theorem lookup_eq_some_iff_mem (name : String) (e : Expr) (entries : List (String × Expr))
    (hnodup : (entries.map Prod.fst).Nodup) :
    entries.lookup name = some e ↔ (name, e) ∈ entries := by
  induction entries with
  | nil => simp only [List.lookup_nil, reduceCtorEq, List.not_mem_nil]
  | cons entry rest ih =>
      rw [List.map_cons, List.nodup_cons] at hnodup
      rw [List.lookup_cons, List.mem_cons]
      by_cases h : name = entry.1
      · -- The name occurs once, so no later entry has it.
        have hnot : (name, e) ∉ rest :=
          fun hmem => hnodup.1 (List.mem_map.mpr ⟨(name, e), hmem, h⟩)
        rw [beq_iff_eq.mpr h, Option.some.injEq]
        constructor
        · intro he
          exact Or.inl (Prod.ext h he.symm)
        · rintro (heq | hmem)
          · rw [← heq]
          · exact absurd hmem hnot
      · -- The entry is passed over on both sides.
        have hne : (name, e) ≠ entry := fun heq => h (congrArg Prod.fst heq)
        rw [beq_eq_false_iff_ne.mpr h, ih hnodup.2]
        exact (or_iff_right hne).symm

/-- Looking a name up finds its entry, of which there is only one. -/
theorem get?_eq_some_iff_mem (s : Subst) (name : String) (e : Expr) :
    s.get? name = some e ↔ (name, e) ∈ s.entries :=
  lookup_eq_some_iff_mem name e s.entries s.nodup

/-- Equality of maps is equality of entries in any order. -/
theorem sameMap_iff_perm (s t : Subst) : s.SameMap t ↔ s.entries.Perm t.entries := by
  rw [List.perm_ext_iff_of_nodup s.nodup.of_map t.nodup.of_map]
  constructor
  · intro h entry
    rw [← get?_eq_some_iff_mem, ← get?_eq_some_iff_mem, h entry.1]
  · -- Having the same entries is having the same answers, name by name.
    intro h name
    refine Option.ext fun e => ?_
    rw [get?_eq_some_iff_mem, get?_eq_some_iff_mem]
    exact h (name, e)

/-- Comparing the sorted entries decides equality of maps. No name occurs twice, so
    sorting by name leaves no choice. -/
theorem same_iff_sameMap (s t : Subst) : s.same t = true ↔ s.SameMap t := by
  have hsorted : ∀ u : Subst,
      u.sorted.Pairwise fun a b => (compare a.1 b.1).isLE = true := by
    intro u
    refine List.pairwise_mergeSort (fun a b c hab hbc => ?_) (fun a b => ?_) u.entries
    · exact Std.TransOrd.isLE_trans hab hbc
    · have hswap : compare b.1 a.1 = (compare a.1 b.1).swap := Std.OrientedOrd.eq_swap
      rw [hswap]
      cases compare a.1 b.1 <;> rfl
  have hperm : ∀ u : Subst, u.sorted.Perm u.entries := fun u => List.mergeSort_perm u.entries _
  rw [same, beq_iff_eq, sameMap_iff_perm]
  constructor
  · intro heq
    exact (hperm s).symm.trans (heq ▸ hperm t)
  · intro h
    refine List.Perm.eq_of_pairwise (fun a b ha hb hab hba => ?_) (hsorted s) (hsorted t)
      ((hperm s).trans (h.trans (hperm t).symm))
    -- Two that could change places have one name, hence one expression.
    have hname : a.1 = b.1 :=
      Std.LawfulEqOrd.eq_of_compare (Std.OrientedCmp.isLE_antisymm hab hba)
    have hfirst := (s.get?_eq_some_iff_mem a.1 a.2).mpr ((hperm s).mem_iff.mp ha)
    have hsecond := (s.get?_eq_some_iff_mem b.1 b.2).mpr
      (h.mem_iff.mpr ((hperm t).mem_iff.mp hb))
    rw [hname, hsecond, Option.some.injEq] at hfirst
    exact Prod.ext hname hfirst.symm

instance (s t : Subst) : Decidable (s.SameMap t) :=
  decidable_of_iff (s.same t = true) (same_iff_sameMap s t)

@[simp]
theorem apply_empty (e : Expr) : empty.apply e = e := by
  induction e using Expr.induct with
  | literal name => rfl
  | param name => rfl
  | app head args ih =>
      rw [apply_app, List.map_congr_left ih, List.map_id']

theorem andThen_assoc (s t u : Subst) :
    ((s.andThen t).andThen u).SameMap (s.andThen (t.andThen u)) := by
  intro name
  -- What the first one gives, the other two are applied to; what it leaves alone, they
  -- look up in order.
  cases hname : s.get? name with
  | none => simp [hname]
  | some e => simp [hname]

theorem empty_andThen (s : Subst) : (empty.andThen s).SameMap s := by
  intro name
  simp

theorem andThen_empty (s : Subst) : (s.andThen empty).SameMap s := by
  intro name
  cases hname : s.get? name with
  | none => simp [hname]
  | some e => simp [hname]

/-- A chain that starts with a substitution is that one and then the rest. -/
theorem andThenAll_sameMap (s : Subst) (later : List Subst) :
    (s.andThenAll later).SameMap (s.andThen (empty.andThenAll later)) := by
  induction later generalizing s with
  | nil => exact (andThen_empty s).symm
  | cons t rest ih =>
      -- The chain after the first is itself a chain, so it can be split off and put back.
      have hrest : (t.andThen (empty.andThenAll rest)).SameMap (empty.andThenAll (t :: rest)) :=
        ((empty_andThen t).symm.andThen (.refl _)).trans (ih (empty.andThen t)).symm
      exact ((ih (s.andThen t)).trans (andThen_assoc s t _)).trans ((SameMap.refl s).andThen hrest)

end Subst

/-- A way of composing a chain of substitutions: an empty chain, a single one, or two
    chains one after the other, each composed in its own way. -/
inductive Bracketing where
  | none
  | one (s : Subst)
  | join (first second : Bracketing)

namespace Bracketing

/-- The substitutions in order, without the brackets. -/
def chain : Bracketing → List Subst
  | none => []
  | one s => [s]
  | join first second => first.chain ++ second.chain

/-- The substitution that is composed along the brackets. -/
def compose : Bracketing → Subst
  | none => .empty
  | one s => s
  | join first second => first.compose.andThen second.compose

/-- Every bracketing of a chain composes to the same map, that of the chain taken
    from the left. -/
theorem compose_sameMap (b : Bracketing) :
    b.compose.SameMap (Subst.empty.andThenAll b.chain) := by
  induction b with
  | none => exact .refl _
  | one s => exact (Subst.empty_andThen s).symm
  | join first second ihFirst ihSecond =>
      -- The chain of both halves goes on with the second where the first has ended.
      have hsplit : Subst.empty.andThenAll (first.chain ++ second.chain) =
          (Subst.empty.andThenAll first.chain).andThenAll second.chain := List.foldl_append
      rw [chain, hsplit]
      exact (ihFirst.andThen ihSecond).trans (Subst.andThenAll_sameMap _ _).symm

theorem apply_compose (b : Bracketing) (e : Expr) :
    b.compose.apply e = b.chain.foldl (fun e s => s.apply e) e := by
  rw [b.compose_sameMap.apply e, Subst.apply_andThenAll, Subst.apply_empty]

end Bracketing

/-- Substitutions are a monoid that acts on expressions. Doing one and then another
    is one substitution, composing is associative and the empty substitution is
    neutral, as maps; so a chain that is applied in order does what its composition
    does, whatever the brackets, and all ways of bracketing it are one map. -/
theorem Subst.composition_laws (s₁ s₂ s₃ : Subst) (b : Bracketing) (e : Expr) :
    s₂.apply (s₁.apply e) = (s₁.andThen s₂).apply e ∧
    ((s₁.andThen s₂).andThen s₃).SameMap (s₁.andThen (s₂.andThen s₃)) ∧
    (empty.andThen s₁).SameMap s₁ ∧
    (s₁.andThen empty).SameMap s₁ ∧
    b.chain.foldl (fun e s => s.apply e) e = b.compose.apply e ∧
    b.compose.SameMap (empty.andThenAll b.chain) :=
  ⟨(apply_andThen s₁ s₂ e).symm, andThen_assoc s₁ s₂ s₃, empty_andThen s₁, andThen_empty s₁,
    (b.apply_compose e).symm, b.compose_sameMap⟩

end Monomorph

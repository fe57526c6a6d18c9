import Mathlib.Data.List.Nodup
import Monomorph.Diagnostic
import Monomorph.Instantiation.Canonical

/-!
# Total Orders

The orders by which results are listed are total, and of two different things
one always comes first. A sorted list is then determined by what is in it.

For type expressions this is not immediate, since they are trees: the order of
two expressions looks at their arguments, and that of two lists of arguments at
the expressions in them. Each law is therefore proved by induction on the first
of the expressions, with a lemma about lists that asks for the law of their
members only. Orientation and equality come first, because transitivity uses
both: if the heads of a first and a third list are the same, nothing between
them can differ from them.

Everything else is made of these orders by comparing one field after the other,
and inherits the laws from that.

Diagnostics are the exception. Their order looks at code, subject and message and
not at level and suggestions, so it determines a report only where the former
three determine the latter two. `Diagnostic.sort_eq_of_perm` asks for that.

## Theorems

* `isLE_then_trans`: Comparing field by field is transitive.
* `compare_text_eq_lt_iff`: Texts are compared by the order of their characters.
* `Expr.compareAll_swap`, `Expr.eq_of_compareAll`, `Expr.compareAll_isLE_trans`: The
  laws for lists of expressions, from those for their members.
* `Expr.compare_swap`, `Expr.eq_of_compare`, `Expr.compare_isLE_trans`: The laws
  for expressions.
* `Keyed.mem_insert_iff`: Inserting adds one member.
* `Keyed.insert_pairwise`: Inserting at its place keeps a list ascending.
* `foldr_insert_spec`: Inserting one after the other gives an ascending list.
* `mem_canonicalize_iff`: A canonical list has the members of the list it is made of.
* `canonicalize_pairwise`, `canonicalize_nodup`: It is strictly ascending, hence
  without repetitions.
* `keys_canonicalize_pairwise`: Its keys are ascending.
* `Diagnostic.compareSubject_isLE_trans`: The order of subjects is transitive.
* `Diagnostic.Code.rank_injective`: No two codes share a rank.
* `Diagnostic.compare_eq_iff`: What the order of diagnostics looks at.
* `Diagnostic.sort_perm`, `Diagnostic.sort_pairwise`: Sorting sorts.
* `Diagnostic.sort_eq_of_perm`: A report depends only on what is reported.
-/

namespace Monomorph

/-- Comparing by a first field and then by others is transitive where both
    comparisons are. The first is asked for the three values alone. -/
theorem isLE_then_trans {α : Type} {cmp : α → α → Ordering} [Std.OrientedCmp cmp]
    [Std.LawfulEqCmp cmp] {a b c : α} {ab bc ac : Ordering}
    (hfirst : (cmp a b).isLE = true → (cmp b c).isLE = true → (cmp a c).isLE = true)
    (hrest : ab.isLE = true → bc.isLE = true → ac.isLE = true)
    (hab : ((cmp a b).then ab).isLE = true) (hbc : ((cmp b c).then bc).isLE = true) :
    ((cmp a c).then ac).isLE = true := by
  rw [Ordering.isLE_then_iff_and] at hab hbc ⊢
  have hac := hfirst hab.1 hbc.1
  refine ⟨hac, ?_⟩
  by_cases heq : cmp a c = .eq
  · -- Then what lies between is the same too, and the rest decides.
    have hsame : a = c := Std.LawfulEqCmp.eq_of_compare heq
    subst hsame
    have hba : cmp a b = .eq := Std.OrientedCmp.isLE_antisymm hab.1 hbc.1
    have hbeq : a = b := Std.LawfulEqCmp.eq_of_compare hba
    subst hbeq
    rw [heq] at hab hbc
    exact Or.inr (hrest (hab.2.resolve_left (by decide)) (hbc.2.resolve_left (by decide)))
  · left
    cases hcmp : cmp a c with
    | lt => rfl
    | eq => exact absurd hcmp heq
    | gt => rw [hcmp] at hac; exact absurd hac (by decide)

/-- Texts are compared by code point, as they are by `<`. -/
theorem compare_text_eq_lt_iff (a b : String) : Ord.compare a b = .lt ↔ a < b :=
  compareOfLessAndEq_eq_lt

namespace Expr

theorem compareAll_swap (as bs : List Expr)
    (h : ∀ a ∈ as, ∀ b, compare a b = (compare b a).swap) :
    compareAll as bs = (compareAll bs as).swap := by
  -- On the first list, which the comparison takes apart along with the second.
  induction as generalizing bs with
  | nil => cases bs <;> rfl
  | cons a as ih =>
      cases bs with
      | nil => rfl
      | cons b bs =>
          rw [compareAll, compareAll, Ordering.swap_then, h a List.mem_cons_self b,
            ih bs fun x hx => h x (List.mem_cons_of_mem a hx)]

/-- The order of two expressions is that of the two the other way round,
    reversed. -/
theorem compare_swap (a b : Expr) : compare a b = (compare b a).swap := by
  induction a using Expr.induct generalizing b with
  | literal name =>
      cases b with
      | literal other => exact Std.OrientedOrd.eq_swap
      | param other => rfl
      | app head args => rfl
  | param name =>
      cases b with
      | literal other => rfl
      | param other => exact Std.OrientedOrd.eq_swap
      | app head args => rfl
  | app f as ih =>
      cases b with
      | literal other => rfl
      | param other => rfl
      | app g bs =>
          -- Heads first, and the arguments have the law by induction.
          rw [compare, compare, Ordering.swap_then, compareAll_swap as bs ih]
          congr 1
          exact Std.OrientedOrd.eq_swap

instance : Std.OrientedCmp compare where
  eq_swap := compare_swap _ _

theorem eq_of_compareAll (as bs : List Expr) (h : ∀ a ∈ as, ∀ b, compare a b = .eq → a = b)
    (heq : compareAll as bs = .eq) : as = bs := by
  induction as generalizing bs with
  | nil =>
      cases bs with
      | nil => rfl
      | cons b bs => exact absurd heq (by simp only [compareAll, reduceCtorEq, not_false_eq_true])
  | cons a as ih =>
      cases bs with
      | nil => exact absurd heq (by simp only [compareAll, reduceCtorEq, not_false_eq_true])
      | cons b bs =>
          rw [compareAll, Ordering.then_eq_eq] at heq
          rw [h a List.mem_cons_self b heq.1,
            ih bs (fun x hx => h x (List.mem_cons_of_mem a hx)) heq.2]

/-- Only the same expression is equal in order. -/
theorem eq_of_compare (a b : Expr) (heq : compare a b = .eq) : a = b := by
  -- Expressions of different kinds are never equal in order, whatever is in them.
  induction a using Expr.induct generalizing b with
  | literal name =>
      cases b with
      | literal other => rw [Std.LawfulEqOrd.eq_of_compare heq]
      | param other => exact absurd heq (by simp only [compare, reduceCtorEq, not_false_eq_true])
      | app head args =>
          exact absurd heq (by simp only [compare, reduceCtorEq, not_false_eq_true])
  | param name =>
      cases b with
      | literal other => exact absurd heq (by simp only [compare, reduceCtorEq, not_false_eq_true])
      | param other => rw [Std.LawfulEqOrd.eq_of_compare heq]
      | app head args =>
          exact absurd heq (by simp only [compare, reduceCtorEq, not_false_eq_true])
  | app f as ih =>
      cases b with
      | literal other => exact absurd heq (by simp only [compare, reduceCtorEq, not_false_eq_true])
      | param other => exact absurd heq (by simp only [compare, reduceCtorEq, not_false_eq_true])
      | app g bs =>
          rw [compare, Ordering.then_eq_eq] at heq
          rw [Std.LawfulEqOrd.eq_of_compare heq.1, eq_of_compareAll as bs ih heq.2]

instance : Std.LawfulEqCmp compare where
  eq_of_compare := eq_of_compare _ _

theorem compareAll_isLE_trans (as bs cs : List Expr)
    (h : ∀ a ∈ as, ∀ b c, (compare a b).isLE = true → (compare b c).isLE = true →
      (compare a c).isLE = true)
    (hab : (compareAll as bs).isLE = true) (hbc : (compareAll bs cs).isLE = true) :
    (compareAll as cs).isLE = true := by
  induction as generalizing bs cs with
  | nil => cases cs <;> rfl
  | cons a as ih =>
      cases bs with
      | nil => exact absurd hab (by simp only [compareAll, Ordering.isLE, Bool.false_eq_true,
          not_false_eq_true])
      | cons b bs =>
          cases cs with
          | nil => exact absurd hbc (by simp only [compareAll, Ordering.isLE, Bool.false_eq_true,
              not_false_eq_true])
          | cons c cs =>
              rw [compareAll] at hab hbc ⊢
              exact isLE_then_trans (h a List.mem_cons_self b c)
                (ih bs cs fun x hx => h x (List.mem_cons_of_mem a hx)) hab hbc

theorem compare_isLE_trans (a b c : Expr) (hab : (compare a b).isLE = true)
    (hbc : (compare b c).isLE = true) : (compare a c).isLE = true := by
  -- Kinds ascend from the first to the third. Where the first and the third are of
  -- one kind, so is what lies between, and only there is anything left to compare.
  induction a using Expr.induct generalizing b c with
  | literal name =>
      cases c with
      | param other => rfl
      | app head args => rfl
      | literal third =>
          cases b with
          | literal second => exact Std.TransOrd.isLE_trans hab hbc
          | param second => exact absurd hbc Bool.false_ne_true
          | app head args => exact absurd hbc Bool.false_ne_true
  | param name =>
      cases c with
      | app head args => rfl
      | literal third =>
          cases b with
          | literal second => exact absurd hab Bool.false_ne_true
          | param second => exact absurd hbc Bool.false_ne_true
          | app head args => exact absurd hbc Bool.false_ne_true
      | param third =>
          cases b with
          | literal second => exact absurd hab Bool.false_ne_true
          | param second => exact Std.TransOrd.isLE_trans hab hbc
          | app head args => exact absurd hbc Bool.false_ne_true
  | app f as ih =>
      cases b with
      | literal second => exact absurd hab Bool.false_ne_true
      | param second => exact absurd hab Bool.false_ne_true
      | app g bs =>
          cases c with
          | literal third => exact absurd hbc Bool.false_ne_true
          | param third => exact absurd hbc Bool.false_ne_true
          | app h cs =>
              rw [compare] at hab hbc ⊢
              exact isLE_then_trans Std.TransOrd.isLE_trans
                (compareAll_isLE_trans as bs cs ih) hab hbc

instance : Std.OrientedCmp compareAll where
  eq_swap := compareAll_swap _ _ fun a _ b => compare_swap a b

instance : Std.LawfulEqCmp compareAll where
  eq_of_compare := eq_of_compareAll _ _ fun a _ b => eq_of_compare a b

end Expr

namespace Instantiation

instance : Std.OrientedCmp Instantiation.compare where
  eq_swap := by
    intro a b
    rw [compare, compare, Ordering.swap_then, ← Std.OrientedOrd.eq_swap,
      ← Std.OrientedCmp.eq_swap]

instance : Std.LawfulEqCmp Instantiation.compare where
  eq_of_compare := by
    intro a b h
    rw [compare, Ordering.then_eq_eq] at h
    have hdecl : a.decl = b.decl := Std.LawfulEqOrd.eq_of_compare h.1
    have hargs : a.args = b.args := Std.LawfulEqCmp.eq_of_compare h.2
    cases a
    cases b
    simp only [mk.injEq]
    exact ⟨hdecl, hargs⟩

instance : Std.TransCmp Instantiation.compare where
  isLE_trans := by
    intro a b c
    exact isLE_then_trans Std.TransOrd.isLE_trans
      (Expr.compareAll_isLE_trans _ _ _ fun x _ y z => Expr.compare_isLE_trans x y z)

end Instantiation

namespace Keyed

instance : Std.OrientedCmp Keyed.compare where
  eq_swap := by
    intro a b
    rw [compare, compare, Ordering.swap_then, ← Std.OrientedOrd.eq_swap,
      ← Std.OrientedCmp.eq_swap]

instance : Std.LawfulEqCmp Keyed.compare where
  eq_of_compare := by
    intro a b h
    rw [compare, Ordering.then_eq_eq] at h
    have hkey : a.key = b.key := Std.LawfulEqOrd.eq_of_compare h.1
    have hinst : a.inst = b.inst := Std.LawfulEqCmp.eq_of_compare h.2
    cases a
    cases b
    simp only [mk.injEq]
    exact ⟨hkey, hinst⟩

instance : Std.TransCmp Keyed.compare where
  isLE_trans := by
    intro a b c
    exact isLE_then_trans Std.TransOrd.isLE_trans Std.TransCmp.isLE_trans

@[simp]
theorem mem_insert_iff (x z : Keyed) (items : List Keyed) :
    z ∈ insert x items ↔ z = x ∨ z ∈ items := by
  induction items with
  | nil => simp only [insert, List.mem_singleton, List.not_mem_nil, or_false]
  | cons y rest ih =>
      rw [insert]
      cases hcmp : x.compare y with
      | lt => simp only [List.mem_cons]
      | eq =>
          -- It is in the list already, and nothing is inserted.
          have hxy : x = y := Std.LawfulEqCmp.eq_of_compare hcmp
          simp only [hxy, List.mem_cons, or_self_left]
      | gt =>
          simp only [List.mem_cons, ih]
          exact or_left_comm

/-- Inserting at its place keeps a list strictly ascending. -/
theorem insert_pairwise (x : Keyed) (items : List Keyed)
    (h : items.Pairwise fun a b => a.compare b = .lt) :
    (insert x items).Pairwise fun a b => a.compare b = .lt := by
  induction items with
  | nil => exact List.pairwise_singleton _ x
  | cons y rest ih =>
      rcases List.pairwise_cons.mp h with ⟨hy, hrest⟩
      rw [insert]
      cases hcmp : x.compare y with
      | lt =>
          -- Before the first is before everything.
          refine List.pairwise_cons.mpr ⟨fun z hz => ?_, h⟩
          rcases List.mem_cons.mp hz with rfl | hz
          · exact hcmp
          · exact Std.TransCmp.lt_trans hcmp (hy z hz)
      | eq => exact h
      | gt =>
          -- The first stays the first, now also before what is inserted.
          refine List.pairwise_cons.mpr ⟨fun z hz => ?_, ih hrest⟩
          rcases (mem_insert_iff x z rest).mp hz with rfl | hz
          · exact Std.OrientedCmp.lt_of_gt hcmp
          · exact hy z hz

end Keyed

section Canonical

variable (t : Table) (items : List Instantiation)

/-- The canonical list before the keys are taken off: strictly ascending, and what
    was put in, each with its key. -/
theorem foldr_insert_spec :
    (items.foldr (fun i sorted => Keyed.insert ⟨i.key t, i⟩ sorted) []).Pairwise
        (fun a b => a.compare b = .lt) ∧
      ∀ z, z ∈ items.foldr (fun i sorted => Keyed.insert ⟨i.key t, i⟩ sorted) [] ↔
        ∃ i ∈ items, z = ⟨i.key t, i⟩ := by
  induction items with
  | nil =>
      refine ⟨List.Pairwise.nil, fun z => ?_⟩
      simp only [List.foldr_nil, List.not_mem_nil, false_and, exists_false]
  | cons i rest ih =>
      rw [List.foldr_cons]
      refine ⟨Keyed.insert_pairwise _ _ ih.1, fun z => ?_⟩
      rw [Keyed.mem_insert_iff, ih.2]
      simp only [List.mem_cons, exists_eq_or_imp]

@[simp]
theorem mem_canonicalize_iff (i : Instantiation) : i ∈ canonicalize t items ↔ i ∈ items := by
  rw [canonicalize, List.mem_map]
  constructor
  · rintro ⟨z, hz, rfl⟩
    rcases ((foldr_insert_spec t items).2 z).mp hz with ⟨j, hj, rfl⟩
    exact hj
  · intro hi
    exact ⟨⟨i.key t, i⟩, ((foldr_insert_spec t items).2 _).mpr ⟨i, hi, rfl⟩, rfl⟩

/-- A canonical list is strictly ascending by key and then by instantiation. -/
theorem canonicalize_pairwise : (canonicalize t items).Pairwise fun a b =>
    Keyed.compare ⟨a.key t, a⟩ ⟨b.key t, b⟩ = .lt := by
  rw [canonicalize, List.pairwise_map]
  refine (foldr_insert_spec t items).1.imp_of_mem fun {a b} ha hb hlt => ?_
  rcases ((foldr_insert_spec t items).2 a).mp ha with ⟨i, _, rfl⟩
  rcases ((foldr_insert_spec t items).2 b).mp hb with ⟨j, _, rfl⟩
  exact hlt

theorem canonicalize_nodup : (canonicalize t items).Nodup := by
  -- In a strictly ascending list nothing stands before itself.
  refine (canonicalize_pairwise t items).imp fun {a b} hlt heq => ?_
  have hself : Keyed.compare ⟨b.key t, b⟩ ⟨b.key t, b⟩ = .eq := Std.ReflCmp.compare_self
  rw [heq, hself] at hlt
  exact absurd hlt (by simp only [reduceCtorEq, not_false_eq_true])

/-- The keys of a canonical list are in ascending order. -/
theorem keys_canonicalize_pairwise :
    ((canonicalize t items).map (Instantiation.key t)).Pairwise fun a b =>
      (Ord.compare a b).isLE = true := by
  rw [List.pairwise_map]
  refine (canonicalize_pairwise t items).imp fun {a b} hlt => ?_
  rw [Keyed.compare, Ordering.then_eq_lt] at hlt
  rcases hlt with hlt | ⟨heq, _⟩
  · rw [hlt]
    rfl
  · -- Different instantiations may share a key.
    rw [heq]
    rfl

end Canonical

namespace Diagnostic

instance : Std.OrientedCmp compareSubject where
  eq_swap := by
    intro a b
    cases a with
    | none => cases b <;> rfl
    | some x =>
        cases b with
        | none => rfl
        | some y => exact Std.OrientedOrd.eq_swap

instance : Std.LawfulEqCmp compareSubject where
  eq_of_compare := by
    intro a b h
    cases a with
    | none =>
        cases b with
        | none => rfl
        | some y => exact absurd h (by simp only [compareSubject, reduceCtorEq, not_false_eq_true])
    | some x =>
        cases b with
        | none => exact absurd h (by simp only [compareSubject, reduceCtorEq, not_false_eq_true])
        | some y => rw [Std.LawfulEqOrd.eq_of_compare h]

theorem compareSubject_isLE_trans (a b c : Option String)
    (hab : (compareSubject a b).isLE = true) (hbc : (compareSubject b c).isLE = true) :
    (compareSubject a c).isLE = true := by
  -- Having no subject comes first, so what follows a subject has one.
  cases a with
  | none => cases c <;> rfl
  | some x =>
      cases b with
      | none => exact absurd hab Bool.false_ne_true
      | some y =>
          cases c with
          | none => exact absurd hbc Bool.false_ne_true
          | some z => exact Std.TransOrd.isLE_trans hab hbc

instance : Std.OrientedCmp Diagnostic.compare where
  eq_swap := by
    intro a b
    rw [compare, compare, Ordering.swap_then, Ordering.swap_then, ← Std.OrientedOrd.eq_swap,
      ← Std.OrientedCmp.eq_swap, ← Std.OrientedOrd.eq_swap]

instance : Std.TransCmp Diagnostic.compare where
  isLE_trans := by
    intro a b c
    exact isLE_then_trans Std.TransOrd.isLE_trans
      (isLE_then_trans (compareSubject_isLE_trans _ _ _) Std.TransOrd.isLE_trans)

theorem Code.rank_injective (a b : Code) (h : a.rank = b.rank) : a = b := by
  revert h
  cases a <;> cases b <;> decide

/-- Two diagnostics are equal in order when they agree in code, subject and
    message. -/
theorem compare_eq_iff (a b : Diagnostic) :
    compare a b = .eq ↔ a.code = b.code ∧ a.subject = b.subject ∧ a.message = b.message := by
  rw [compare, Ordering.then_eq_eq, Ordering.then_eq_eq]
  constructor
  · rintro ⟨hrank, hsubject, hmessage⟩
    exact ⟨Code.rank_injective _ _ (Std.LawfulEqOrd.eq_of_compare hrank),
      Std.LawfulEqCmp.eq_of_compare hsubject, Std.LawfulEqOrd.eq_of_compare hmessage⟩
  · rintro ⟨hcode, hsubject, hmessage⟩
    rw [hcode, hsubject, hmessage]
    exact ⟨Std.ReflOrd.compare_self, Std.ReflCmp.compare_self, Std.ReflOrd.compare_self⟩

theorem sort_perm (ds : List Diagnostic) : (sort ds).Perm ds :=
  List.mergeSort_perm ds _

theorem sort_pairwise (ds : List Diagnostic) :
    (sort ds).Pairwise fun a b => (compare a b).isLE = true := by
  refine List.pairwise_mergeSort (fun a b c => Std.TransCmp.isLE_trans) (fun a b => ?_) ds
  have hswap : compare b a = (compare a b).swap := Std.OrientedCmp.eq_swap
  rw [hswap]
  cases compare a b <;> rfl

/-- A report depends only on what is reported, where what is equal in order is the
    same. -/
theorem sort_eq_of_perm (ds ds' : List Diagnostic) (hperm : ds.Perm ds')
    (hsame : ∀ a ∈ ds, ∀ b ∈ ds, compare a b = .eq → a = b) : sort ds = sort ds' := by
  refine List.Perm.eq_of_pairwise (fun a b ha hb hab hba => ?_) (sort_pairwise ds)
    (sort_pairwise ds') ((sort_perm ds).trans (hperm.trans (sort_perm ds').symm))
  -- Two that could change places are equal in order, hence the same.
  refine hsame a ((sort_perm ds).mem_iff.mp ha) b ?_ (Std.OrientedCmp.isLE_antisymm hab hba)
  exact hperm.mem_iff.mpr ((sort_perm ds').mem_iff.mp hb)

end Diagnostic

end Monomorph

import Monomorph.Subst

/-!
# What Substitutions Do

How looking a name up goes through the operations on substitutions, and what
follows for expressions.

A substitution is a list of entries, but none of the laws depends on how the
list is ordered. Each operation is therefore described by what looking a name up
gives afterwards, and everything about expressions is derived from that. The
case of a parameter is the only one with content; the others pass to the
arguments.

Names may repeat when they are paired with expressions, since an inner
declaration may call its parameter what an outer one calls its own. The later
pair wins, so pairing is looking up from the end (`get?_ofPairs`). What matters
afterwards is that this choice does not depend on the expressions: replacing in
the expressions first, or in what is found afterwards, comes to the same
(`get?_ofPairs_map`).

## Main definitions

* `Subst.andThenAll`: One substitution and then several others, in order.

## Theorems

* `Subst.lookup_map_snd`, `Subst.lookup_filter`: Looking a name up in entries that
  were changed or left out.
* `Subst.get?_insert`, `Subst.get?_ofPairs`, `Subst.get?_andThen`: Looking a
  name up after each operation.
* `Subst.get?_foldl_insert`: Looking a name up after writing pairs in order.
* `Subst.get?_ofPairs_map`: Which expression a name is paired with does not
  depend on the expressions.
* `Subst.exists_get?_ofPairs`: With enough expressions every name has one.
* `Subst.mem_of_get?_ofPairs`: What a name is paired with is one of them.
* `Subst.apply_andThen`: Doing one and then another is one substitution.
* `Subst.apply_andThenAll`: The same for a whole chain.
-/

namespace Monomorph

namespace Subst

/-- Changing the values of entries changes what is found in the same way. -/
theorem lookup_map_snd (f : Expr → Expr) (name : String) (entries : List (String × Expr)) :
    (entries.map fun entry => (entry.1, f entry.2)).lookup name =
      (entries.lookup name).map f := by
  induction entries with
  | nil => rfl
  | cons entry rest ih =>
      rw [List.map_cons, List.lookup_cons, List.lookup_cons, ih]
      by_cases h : (name == entry.1) = true
      · simp only [h, Option.map_some]
      · simp only [h]

/-- Leaving out entries with other names changes nothing for this one. -/
theorem lookup_filter (keep : String → Bool) (name : String) (entries : List (String × Expr))
    (h : keep name = true) :
    (entries.filter fun entry => keep entry.1).lookup name = entries.lookup name := by
  induction entries with
  | nil => rfl
  | cons entry rest ih =>
      by_cases hname : name = entry.1
      · -- The entry has the name, so it is kept and found first in both lists.
        rw [List.filter_cons_of_pos (by rw [← hname]; exact h), List.lookup_cons,
          List.lookup_cons, ih]
      · by_cases hkeep : keep entry.1 = true
        · rw [List.filter_cons_of_pos (by exact hkeep), List.lookup_cons, List.lookup_cons, ih]
        · rw [List.filter_cons_of_neg (by exact hkeep), ih, List.lookup_cons]
          simp only [beq_eq_false_iff_ne.mpr hname]

@[simp]
theorem get?_insert (s : Subst) (name other : String) (e : Expr) :
    (s.insert name e).get? other = if other = name then some e else s.get? other := by
  unfold get? insert
  rw [List.lookup_cons]
  by_cases h : other = name
  · simp only [h, beq_self_eq_true, if_true]
  · -- Only entries with the new name were taken out.
    simp only [beq_eq_false_iff_ne.mpr h, h, if_false]
    exact lookup_filter (fun key => key != name) other s.entries (by simpa using h)

theorem get?_foldl_insert (pairs : List (String × Expr)) (s : Subst) (name : String) :
    (pairs.foldl (fun s pair => s.insert pair.1 pair.2) s).get? name =
      (pairs.reverse.lookup name).or (s.get? name) := by
  -- What is written later is found first, so the pairs are searched from the end and the
  -- substitution that was there before comes last.
  induction pairs generalizing s with
  | nil => rfl
  | cons pair rest ih =>
      rw [List.foldl_cons, ih, get?_insert, List.reverse_cons, List.lookup_append,
        Option.or_assoc]
      congr 1
      rw [List.lookup_cons]
      by_cases h : name = pair.1
      · simp only [h, if_true, beq_self_eq_true, Option.some_or]
      · simp only [h, if_false, beq_eq_false_iff_ne.mpr h, List.lookup_nil, Option.none_or]

/-- Of pairs with the same name the last one counts. -/
theorem get?_ofPairs (names : List String) (exprs : List Expr) (name : String) :
    (ofPairs names exprs).get? name = (names.zip exprs).reverse.lookup name := by
  unfold ofPairs
  rw [get?_foldl_insert]
  exact Option.or_none

@[simp]
theorem get?_ofPairs_map (f : Expr → Expr) (names : List String) (exprs : List Expr)
    (name : String) :
    (ofPairs names (exprs.map f)).get? name = ((ofPairs names exprs).get? name).map f := by
  rw [get?_ofPairs, get?_ofPairs, List.zip_map_right, ← List.map_reverse]
  exact lookup_map_snd f name _

theorem exists_get?_ofPairs (names : List String) (exprs : List Expr) (name : String)
    (hlen : names.length ≤ exprs.length) (hname : name ∈ names) :
    ∃ e, (ofPairs names exprs).get? name = some e := by
  rw [← Option.isSome_iff_exists, Option.isSome_iff_ne_none, get?_ofPairs]
  intro hnone
  rw [List.lookup_eq_none_iff] at hnone
  -- The name stands at some place, and the pair at that place has it.
  rw [← List.map_fst_zip hlen] at hname
  rcases List.mem_map.mp hname with ⟨pair, hpair, rfl⟩
  have hne := hnone pair (List.mem_reverse.mpr hpair)
  simp only [bne_self_eq_false, Bool.false_eq_true] at hne

theorem mem_of_get?_ofPairs (names : List String) (exprs : List Expr) (name : String) (e : Expr)
    (h : (ofPairs names exprs).get? name = some e) : e ∈ exprs := by
  rw [get?_ofPairs, List.lookup_eq_some_iff] at h
  rcases h with ⟨before, after, heq, _⟩
  have hmem : (name, e) ∈ (names.zip exprs).reverse := by
    rw [heq]
    exact List.mem_append_right _ List.mem_cons_self
  exact (List.of_mem_zip (List.mem_reverse.mp hmem)).2

/-- The second substitution speaks for a name only if the first does not. -/
@[simp]
theorem get?_andThen (first second : Subst) (name : String) :
    (first.andThen second).get? name =
      ((first.get? name).map second.apply).or (second.get? name) := by
  unfold get? andThen
  rw [List.lookup_append, lookup_map_snd]
  cases h : first.entries.lookup name with
  | some e => rfl
  | none =>
      -- No entry of the first has the name, so composing took none of its entries away from
      -- the second.
      rw [Option.map_none, Option.none_or, Option.none_or]
      refine lookup_filter (fun key => !(first.entries.map Prod.fst).contains key) name
        second.entries ?_
      rw [Bool.not_eq_true', ← Bool.not_eq_true, List.contains_iff_mem, List.mem_map]
      rintro ⟨entry, hentry, rfl⟩
      have hne := List.lookup_eq_none_iff.mp h entry hentry
      simp only [bne_self_eq_false, Bool.false_eq_true] at hne

@[simp]
theorem apply_andThen (first second : Subst) (e : Expr) :
    (first.andThen second).apply e = second.apply (first.apply e) := by
  induction e using Expr.induct with
  | literal name => rfl
  | param name =>
      -- The only case with content: the name is the first's to replace or is left to the second.
      rw [apply_param, apply_param, get?_andThen]
      cases first.get? name with
      | some e => rfl
      | none => simp
  | app head args ih =>
      simpa using ih

/-- One substitution and then others, each applied to what came before. -/
def andThenAll : Subst → List Subst → Subst :=
  List.foldl andThen

@[simp]
theorem apply_andThenAll (s : Subst) (later : List Subst) (e : Expr) :
    (s.andThenAll later).apply e = later.foldl (fun e t => t.apply e) (s.apply e) := by
  unfold andThenAll
  induction later generalizing s with
  | nil => rfl
  | cons t rest ih => rw [List.foldl_cons, ih, List.foldl_cons, apply_andThen]

end Subst

end Monomorph

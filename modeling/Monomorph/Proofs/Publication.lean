import Monomorph.Proofs.Order
import Monomorph.Proofs.Reached
import Monomorph.Proofs.Renaming

/-!
# What a Plan Lists

A plan lists the forms in which what was reached is to be specialised: all of
them, nothing else, and none of them twice.

Between a resolution and its plan lie three steps, and each of them could lose
something or repeat it. Of what was reached, only the instantiations of
declarations that ask for it are taken. These are brought into the form in which
they are specialised, and there many may become one: a declaration without
parameters of its own is specialised once, however many bindings of what encloses
it were reached. The forms are then put in order, which is where repetitions go.
What is a member before such a step and after it is said step by step, so that
nothing has to be known about the order in which the search went.

The texts of an entry are made in two ways. Its arguments are rendered one by one,
and its key is rendered in one go, as if the instantiation were an expression.
`Instantiation.key_eq` says that the key is made of the same pieces.

## Theorems

* `Instantiation.args_published`, `Instantiation.decl_published`,
  `Instantiation.eq_published_iff`: Which arguments are kept.
* `Resolution.mem_published_iff`: What is published comes from what is reached.
* `Expr.commaJoin_eq_intercalate`, `Instantiation.key_eq`: A key in terms of the
  texts of its parts.
* `Plan.eq_entry_of_mem`: An entry follows from its instantiation.
* `Plan.entries_pairwise`: Entries are in order.
* `Program.mem_plan_iff`: What is listed is the published form of something reached.
* `Program.plan_exact`: What the plan of a program lists, and how.
* `Depot.plan_program`: Two bindings, one of which leaves no trace in the plan.
-/

namespace Monomorph

namespace Instantiation

/-- Publishing keeps the arguments of a declaration with parameters of its own,
    and those for what encloses it along with them; otherwise it keeps none. -/
@[simp]
theorem args_published (entry : Entry) (i : Instantiation) :
    (i.published entry).args = if entry.ownParams = [] then [] else i.args := by
  unfold published
  by_cases hown : entry.ownParams = []
  · simp only [hown, List.isEmpty_nil, if_true]
  · have hsome : ¬ entry.ownParams.isEmpty = true := fun h => hown (List.isEmpty_iff.mp h)
    rw [if_neg hsome, if_neg hown]

@[simp]
theorem decl_published (entry : Entry) (i : Instantiation) :
    (i.published entry).decl = i.decl := by
  unfold published
  by_cases hown : entry.ownParams.isEmpty = true
  · rw [if_pos hown]
  · rw [if_neg hown]

theorem eq_published_iff (entry : Entry) (i j : Instantiation) :
    i = j.published entry ↔
      i.decl = j.decl ∧ i.args = if entry.ownParams = [] then [] else j.args := by
  simp [ext_iff]

end Instantiation

/-- What is published is the published form of something reached, whose
    declaration asks for it. -/
theorem Resolution.mem_published_iff (r : Resolution) (t : Table) (i : Instantiation) :
    i ∈ r.published t ↔ ∃ j ∈ r.reached.keys, ∃ entry, t.get? j.decl = some entry ∧
      entry.requiresSpecialization = true ∧ i = j.published entry := by
  unfold published
  rw [List.mem_filterMap]
  -- For one that was reached: whether it is published, and then in which form.
  refine exists_congr fun j => and_congr_right fun _ => ?_
  cases hget : t.get? j.decl with
  | none => simp only [reduceCtorEq, false_and, exists_false]
  | some entry =>
      simp only [Option.some.injEq, exists_eq_left']
      by_cases hspecial : entry.requiresSpecialization = true
      · simp only [hspecial, if_true, Option.some.injEq, true_and]
        exact eq_comm
      · simp only [hspecial, Bool.false_eq_true, if_false, reduceCtorEq, false_and]

theorem Expr.commaJoin_eq_intercalate (pieces : List (List Char)) :
    commaJoin pieces = List.intercalate [','] pieces := by
  induction pieces with
  | nil => rfl
  | cons piece rest ih =>
      cases rest with
      | nil => exact (List.append_nil piece).symm
      | cons next more =>
          -- A comma is written only where another piece follows.
          rw [commaJoin, ih]
          · rfl
          · exact List.cons_ne_nil _ _

/-- A key is the name of the declaration and, if there are any, the texts of the
    arguments between angle brackets with commas between them. -/
theorem Instantiation.key_eq (t : Table) (i : Instantiation) :
    i.key t = t.name i.decl ++ if i.args.map (Expr.render t.name) = [] then ""
      else "<" ++ ",".intercalate (i.args.map (Expr.render t.name)) ++ ">" := by
  -- The texts of the arguments have the characters that the key is made of.
  have hpieces : (i.args.map (Expr.render t.name)).map String.toList =
      i.args.map (Expr.chars t.name) := by
    rw [List.map_map]
    exact List.map_congr_left fun e _ => String.toList_ofList
  rw [← String.toList_inj, key, Expr.renderApplied, String.toList_ofList, Expr.chars,
    Expr.charsAll_eq_map, String.toList_append]
  cases hargs : i.args with
  | nil => simp only [List.map_nil, Expr.bracketed, if_true, String.toList_empty]
  | cons arg rest =>
      rw [hargs] at hpieces
      rw [if_neg (by simp only [List.map_cons, reduceCtorEq, not_false_eq_true]),
        String.toList_append, String.toList_append, String.toList_intercalate, hpieces,
        List.map_cons, Expr.bracketed, Expr.commaJoin_eq_intercalate]
      · rfl
      · exact List.cons_ne_nil _ _

namespace Plan

variable (t : Table) (items : List Instantiation)

/-- Everything that an entry says follows from its instantiation. -/
theorem eq_entry_of_mem (e : Plan.Entry) (h : e ∈ (ofInstantiations t items).entries) :
    e = entry t e.instantiation := by
  rcases List.mem_map.mp h with ⟨i, _, rfl⟩
  rfl

/-- Entries are in the order of their keys and, where keys agree, in that of their
    instantiations. -/
theorem entries_pairwise : (ofInstantiations t items).entries.Pairwise fun e f =>
    e.key < f.key ∨ e.key = f.key ∧ e.instantiation.compare f.instantiation = .lt := by
  rw [ofInstantiations, List.pairwise_map]
  refine (canonicalize_pairwise t items).imp fun {i j} hlt => ?_
  rw [Keyed.compare, Ordering.then_eq_lt] at hlt
  -- Instantiations are looked at only where keys do not decide.
  rcases hlt with hlt | ⟨heq, hlt⟩
  · exact Or.inl ((compare_text_eq_lt_iff _ _).mp hlt)
  · exact Or.inr ⟨Std.LawfulEqOrd.eq_of_compare heq, hlt⟩

end Plan

theorem Program.mem_plan_iff (p : Program) (settings : Settings) (i : Instantiation) :
    i ∈ (p.analyze settings).plan.entries.map Plan.Entry.instantiation ↔
      ∃ j ∈ (p.analyze settings).resolution.reached.keys, ∃ entry,
        (p.analyze settings).table.get? j.decl = some entry ∧
        entry.requiresSpecialization = true ∧ i = j.published entry := by
  have hlisted := Plan.map_instantiation_ofInstantiations (p.analyze settings).table
    ((p.analyze settings).resolution.published (p.analyze settings).table)
  rw [show (p.analyze settings).plan.entries.map Plan.Entry.instantiation = _ from hlisted,
    mem_canonicalize_iff, Resolution.mem_published_iff]

/-- The plan of a program lists the published forms of what was reached and asks
    for it, each once, in the order of their keys. A declaration without parameters
    of its own is listed without arguments, and any other with an argument for each
    formal, those of what encloses it included. -/
theorem Program.plan_exact (p : Program) (settings : Settings) :
    let a := p.analyze settings
    (a.plan.entries.map Plan.Entry.instantiation).Nodup ∧
    (∀ i, i ∈ a.plan.entries.map Plan.Entry.instantiation ↔
      ∃ j ∈ a.resolution.reached.keys, ∃ entry, a.table.get? j.decl = some entry ∧
        entry.requiresSpecialization = true ∧ i.decl = j.decl ∧
        i.args = if entry.ownParams = [] then [] else j.args) ∧
    (a.plan.entries.Pairwise fun e f => e.key < f.key ∨
      e.key = f.key ∧ e.instantiation.compare f.instantiation = .lt) ∧
    ∀ e ∈ a.plan.entries,
      e.declaration = a.table.name e.instantiation.decl ∧
      e.arguments = e.instantiation.args.map (Expr.render a.table.name) ∧
      (∃ entry, a.table.get? e.instantiation.decl = some entry ∧
        e.arguments.length = if entry.ownParams = [] then 0 else entry.arity) ∧
      e.key = e.declaration ++ if e.arguments = [] then ""
        else "<" ++ ",".intercalate e.arguments ++ ">" := by
  intro a
  have hlisted : a.plan.entries.map Plan.Entry.instantiation =
      canonicalize a.table (a.resolution.published a.table) :=
    Plan.map_instantiation_ofInstantiations _ _
  have hmem : ∀ i, i ∈ a.plan.entries.map Plan.Entry.instantiation ↔
      ∃ j ∈ a.resolution.reached.keys, ∃ entry, a.table.get? j.decl = some entry ∧
        entry.requiresSpecialization = true ∧ i.decl = j.decl ∧
        i.args = if entry.ownParams = [] then [] else j.args := by
    intro i
    rw [p.mem_plan_iff settings i]
    simp only [Instantiation.eq_published_iff, a]
  refine ⟨hlisted ▸ canonicalize_nodup _ _, hmem, Plan.entries_pairwise _ _, fun e he => ?_⟩
  have hentry := Plan.eq_entry_of_mem _ _ e he
  refine ⟨congrArg Plan.Entry.declaration hentry, congrArg Plan.Entry.arguments hentry, ?_, ?_⟩
  · -- What was reached has an argument for each formal, and publishing keeps all or none.
    rcases (hmem e.instantiation).mp (List.mem_map_of_mem he) with
      ⟨j, hj, entry, hget, _, hdecl, hargs⟩
    have hwell := p.scan_wellFormed settings.maxTypeNesting
    rcases (Graph.mem_reached_iff _ settings j).mp hj with ⟨n, _, hwalk⟩
    have hfits : j.args.length = entry.arity := by
      rw [(hwalk.fits _ _ _ n hwell j).2, Entry.arity]
      exact congrArg List.length (Table.formals_of_get? _ j.decl entry hget)
    refine ⟨entry, hdecl ▸ hget, ?_⟩
    rw [congrArg Plan.Entry.arguments hentry]
    change (e.instantiation.args.map _).length = _
    rw [List.length_map, hargs, apply_ite List.length, hfits, List.length_nil]
  · rw [hentry]
    exact Instantiation.key_eq _ _

namespace Depot

/-- A depot of something has two jobs, one with a parameter of its own and one
    without. Running it schedules both. -/
def program : Program where
  declarations :=
    [{ name := "main", kind := .method,
       body := [⟨"Depot", ["int"], .construct⟩, ⟨"Depot", ["str"], .construct⟩] },
     { name := "Depot", kind := .type, typeParams := ["A"] },
     { name := "Depot.Tick", kind := .type, enclosing := some "Depot",
       requiresSpecialization := true },
     { name := "Depot.Pack", kind := .type, typeParams := ["U"], enclosing := some "Depot",
       requiresSpecialization := true },
     { name := "Depot.run", kind := .method, enclosing := some "Depot",
       body := [⟨"Depot.Tick", [], .schedule⟩, ⟨"Depot.Pack", ["Depot<A>"], .schedule⟩] }]

/-- Ticks are reached under two bindings and listed once; packs are listed under
    both, with the argument for what encloses them. -/
theorem plan_program :
    (⟨2, [.literal "int"], rfl⟩ : Instantiation) ∈ (program.analyze {}).resolution.reached.keys ∧
    (⟨2, [.literal "str"], rfl⟩ : Instantiation) ∈ (program.analyze {}).resolution.reached.keys ∧
    (⟨2, [], rfl⟩ : Instantiation) ∈
      (program.analyze {}).plan.entries.map Plan.Entry.instantiation ∧
    ((program.analyze {}).plan.entries.map Plan.Entry.instantiation).Nodup ∧
    (program.analyze {}).plan.keys =
      ["Depot.Pack<int,Depot<int>>", "Depot.Pack<str,Depot<str>>", "Depot.Tick"] := by
  have hint : (⟨2, [.literal "int"], rfl⟩ : Instantiation) ∈
      (program.analyze {}).resolution.reached.keys := by decide +kernel
  have htick : (program.analyze {}).table.get? 2 =
      some ⟨"Depot.Tick", .type, [], ["A"], some 1, true⟩ := by decide +kernel
  rcases program.plan_exact {} with ⟨hnodup, hmem, _, _⟩
  have hlisted := (hmem ⟨2, [], rfl⟩).mpr
    ⟨⟨2, [.literal "int"], rfl⟩, hint, _, htick, rfl, rfl, rfl⟩
  exact ⟨hint, by decide +kernel, hlisted, hnodup, by decide +kernel⟩

end Depot

end Monomorph

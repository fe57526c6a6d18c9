import Monomorph.Proofs.Publication
import Monomorph.Proofs.Schedules
import Monomorph.Proofs.Sites

/-!
# How Deeply Nested Things Get

No expression that comes up while a program is resolved is nested deeper than
twice the limit, less one.

The limit is held against an instantiation when it is offered, and by then its
arguments have been built. So something is built that exceeds the limit, and what
has to be shown is that it does so by little. Replacing parameters makes an
expression deeper only by what stands for a parameter, and the parameter itself was
a level that is then gone (`Subst.nesting_apply_le`). The arguments of a hop are
within the limit because they were read under it, and those of an instantiation
that is expanded are within it because that was known before, and nothing that
exceeds a limit becomes known. The two add up to twice the limit less one. What
exceeds the limit is given up and never expanded, so the excess does not
accumulate, however long the search goes on.

For the search in order, `Closure.Traced` is the invariant: everything in a state
was built by expanding something that the state has recorded, and everything that
is known or to be expanded is within the limit. Where workers share what they find
the same bound holds of every frontier they come to (`Closure.Reached.within`).

## Main definitions

* `Expr.Occurs`: A parameter occurs in an expression.
* `Subst.Touches`: A parameter occurs that the substitution replaces.
* `Graph.BuiltFrom`: What is a seed, or built by expanding what is given.
* `Graph.Builds`: What a resolution builds, whatever becomes of it.
* `Closure.Traced`: Where everything in a state of the search comes from.

## Theorems

* `Expr.nesting_pos`, `Expr.nesting_le_nestingAll`: Every expression has a level, and
  no argument has more than all of them.
* `Subst.Touches.app`, `Subst.apply_of_not_touches`: What is not touched stays as it is.
* `Subst.nesting_apply_le`: How much deeper an expression gets that is touched.
* `Graph.nesting_applyAll_le`, `Graph.nesting_le_of_mem_successors`: How deep the
  arguments of a hop get.
* `Graph.BuiltFrom.mono`: What was built stays so when more is expanded.
* `Closure.offer_traced`, `Closure.offerAll_traced`, `Closure.start_traced`,
  `Closure.level_traced`: What a step keeps.
* `Closure.drain_traced`, `Closure.Traced.snapshot`, `Closure.passes_traced`,
  `Graph.resolve_traced`: So does a whole run, whose passes record everything that was
  expanded.
* `Closure.Outcome.within`, `Closure.Reached.within`: No frontier of workers exceeds
  the limit.
* `Instantiation.nesting_published_le`: Publishing makes nothing deeper.
* `Program.nesting_bounded`: What is built is nested less than twice as deep as
  what is reached.
* `Onion.touches_binding`, `Onion.nesting_binding`, `Onion.nesting_program`: A program
  that attains the bound.
-/

namespace Monomorph

namespace Expr

/-- The parameter occurs in the expression, at any depth. -/
inductive Occurs (name : String) : Expr → Prop
  | param : Occurs name (.param name)
  | app (head : DeclId) (args : List Expr) (a : Expr) (ha : a ∈ args) (h : Occurs name a) :
      Occurs name (.app head args)

theorem nesting_pos (e : Expr) : 1 ≤ e.nesting := by
  cases e with
  | literal name => exact Nat.le_refl 1
  | param name => exact Nat.le_refl 1
  | app head args => exact Nat.le_add_right 1 _

theorem nesting_le_nestingAll (args : List Expr) (a : Expr) (ha : a ∈ args) :
    a.nesting ≤ nestingAll args :=
  (nestingAll_le_iff args _).mp (Nat.le_refl _) a ha

end Expr

namespace Subst

/-- A parameter occurs in the expression for which the substitution has another
    one. -/
def Touches (s : Subst) (e : Expr) : Prop :=
  ∃ name v, e.Occurs name ∧ s.get? name = some v

theorem Touches.app {s : Subst} {a : Expr} (h : s.Touches a) (head : DeclId) (args : List Expr)
    (ha : a ∈ args) : s.Touches (.app head args) := by
  rcases h with ⟨name, v, hoccurs, hget⟩
  exact ⟨name, v, .app head args a ha hoccurs, hget⟩

theorem apply_of_not_touches (s : Subst) (e : Expr) (h : ¬ s.Touches e) : s.apply e = e := by
  induction e using Expr.induct with
  | literal name => rfl
  | param name =>
      have hnone : s.get? name = none := by
        rw [Option.eq_none_iff_forall_ne_some]
        intro v hv
        exact h ⟨name, v, .param, hv⟩
      simp [hnone]
  | app head args ih =>
      -- What would touch an argument would touch the whole.
      rw [apply_app, List.map_congr_left (g := id), List.map_id]
      intro a ha
      exact ih a ha fun htouches => h (htouches.app head args ha)

/-- The level of a parameter is taken by what replaces it. -/
theorem nesting_apply_le (s : Subst) (m : Nat)
    (hvalues : ∀ name v, s.get? name = some v → v.nesting ≤ m) (e : Expr) (h : s.Touches e) :
    (s.apply e).nesting ≤ e.nesting - 1 + m := by
  -- Something is replaced, and whatever it is replaced by has a level of its own.
  have hpos : 1 ≤ m := by
    rcases h with ⟨name, v, _, hget⟩
    exact Nat.le_trans v.nesting_pos (hvalues name v hget)
  induction e using Expr.induct with
  | literal name =>
      rcases h with ⟨_, _, hoccurs, _⟩
      exact nomatch hoccurs
  | param name =>
      rcases h with ⟨_, v, hoccurs, hget⟩
      cases hoccurs
      simpa [hget, Expr.nesting] using hvalues name v hget
  | app head args ih =>
      have hargs : Expr.nestingAll (s.applyAll args) ≤ Expr.nestingAll args - 1 + m := by
        rw [Expr.nestingAll_le_iff, applyAll_eq_map]
        intro e he
        rcases List.mem_map.mp he with ⟨a, ha, rfl⟩
        have hdeepest := Expr.nesting_le_nestingAll args a ha
        have hlevel := a.nesting_pos
        -- An argument that is not touched needs the level that the other ones gain.
        by_cases htouches : s.Touches a
        · have hgrown := ih a ha htouches
          omega
        · rw [apply_of_not_touches s a htouches]
          omega
      -- The touched argument has a level, so there is one to take off among all of them.
      rcases h with ⟨name, v, hoccurs, _⟩
      cases hoccurs with
      | app _ _ a ha _ =>
          have hdeepest := Expr.nesting_le_nestingAll args a ha
          have hlevel := a.nesting_pos
          simp only [apply, Expr.nesting]
          omega

end Subst

namespace Graph

variable (g : Graph) (limit : Nat)

/-- Following a hop from what is within the limit builds arguments within twice the
    limit, less one, whether they are closed or not. -/
theorem nesting_applyAll_le (hwell : g.WellFormed limit) (hpos : 1 ≤ limit) (i : Instantiation)
    (hi : i.nesting ≤ limit) (hop : Hop) (hhop : hop ∈ g.hops) (e : Expr)
    (he : e ∈ (g.binding i).applyAll hop.args) : e.nesting ≤ 2 * limit - 1 := by
  rw [Subst.applyAll_eq_map] at he
  rcases List.mem_map.mp he with ⟨arg, harg, rfl⟩
  -- Arguments are read under the limit, or are names that were passed on.
  have hwritten : arg.nesting ≤ limit := by
    rcases (hwell hop hhop).nesting arg harg with hle | ⟨name, rfl⟩
    · exact hle
    · exact hpos
  have hvalues : ∀ name v, (g.binding i).get? name = some v → v.nesting ≤ limit := by
    intro name v hget
    exact (Expr.nestingAll_le_iff i.args limit).mp hi v (Subst.mem_of_get?_ofPairs _ _ _ _ hget)
  by_cases htouches : (g.binding i).Touches arg
  · have hgrown := Subst.nesting_apply_le (g.binding i) limit hvalues arg htouches
    omega
  · rw [Subst.apply_of_not_touches _ _ htouches]
    omega

theorem nesting_le_of_mem_successors (hwell : g.WellFormed limit) (hpos : 1 ≤ limit)
    (i j : Instantiation) (hi : i.nesting ≤ limit) (hj : j ∈ g.successors i) :
    j.nesting ≤ 2 * limit - 1 := by
  rcases (g.mem_successors_iff i j).mp hj with ⟨hop, hhop, _, _, hargs⟩
  refine (Expr.nestingAll_le_iff j.args _).mpr fun e he => ?_
  exact g.nesting_applyAll_le limit hwell hpos i hi hop hhop e (by rw [hargs]; exact he)

/-- The instantiation is built as a seed, or by expanding something. -/
def BuiltFrom (expanded : List Work) (i : Instantiation) : Prop :=
  i ∈ g.seeds ∨ ∃ work ∈ expanded, i ∈ g.successors work.inst

theorem BuiltFrom.mono {g : Graph} {expanded expanded' : List Work} {i : Instantiation}
    (h : g.BuiltFrom expanded i) (hsubset : expanded ⊆ expanded') : g.BuiltFrom expanded' i := by
  rcases h with hseed | ⟨work, hwork, hi⟩
  · exact Or.inl hseed
  · exact Or.inr ⟨work, hsubset hwork, hi⟩

/-- What a resolution builds, whatever becomes of it: the seeds, what the hops lead to
    from anything that one of the passes expands, and the forms that are published. -/
inductive Builds (r : Resolution) : Instantiation → Prop
  | seed (i : Instantiation) (h : i ∈ g.seeds) : Builds r i
  | successor (pass : Pass) (hpass : pass ∈ r.passes) (work : Work) (hwork : work ∈ pass.expanded)
      (j : Instantiation) (hj : j ∈ g.successors work.inst) : Builds r j
  | published (i : Instantiation) (h : i ∈ r.published g.table) : Builds r i

end Graph

namespace Closure

/-- Everything that is known or given up was built by expanding what the state has
    recorded, and what is known, to be expanded or expanded is within the limit. -/
structure Traced (g : Graph) (settings : Settings) (state : State) (frontier : List Work) :
    Prop where
  known : ∀ i ∈ state.index.keys, g.BuiltFrom state.expanded i ∧
    i.nesting ≤ settings.maxTypeNesting
  given : ∀ i ∈ state.abandoned.keys, g.BuiltFrom state.expanded i
  ahead : ∀ work ∈ frontier, work.inst.nesting ≤ settings.maxTypeNesting
  expanded : ∀ work ∈ state.expanded, work.inst.nesting ≤ settings.maxTypeNesting

section Traced

variable {g : Graph} {settings : Settings} {state : State} {frontier : List Work}

/-- A candidate that was built from what has been expanded leaves everything traced,
    whatever becomes of it. -/
theorem offer_traced (h : Traced g settings state frontier) (work : Work)
    (hbuilt : g.BuiltFrom state.expanded work.inst) :
    (offer settings state work).1.expanded = state.expanded ∧
      Traced g settings (offer settings state work).1
        (frontier ++ (offer settings state work).2) := by
  rcases offer_cases settings state work with ⟨_, _, heq⟩ | ⟨_, limit, _, heq⟩ | ⟨_, hnone, heq⟩
  · rw [heq, List.append_nil]
    exact ⟨rfl, h⟩
  · -- Given up, so it may exceed the limit.
    rw [heq, List.append_nil]
    refine ⟨rfl, h.known, fun i hi => ?_, h.ahead, h.expanded⟩
    rcases FirstMap.mem_keys_insert _ _ _ _ hi with hold | rfl
    · exact h.given i hold
    · exact hbuilt
  · -- Only here is something taken, and not before the limit was held against it.
    have hnest := ((exceeded?_eq_none_iff settings work).mp hnone).2
    rw [heq]
    refine ⟨rfl, fun i hi => ?_, h.given, fun w hw => ?_, h.expanded⟩
    · rcases FirstMap.mem_keys_insert _ _ _ _ hi with hold | rfl
      · exact h.known i hold
      · exact ⟨hbuilt, hnest⟩
    · rcases List.mem_append.mp hw with hw | hw
      · exact h.ahead w hw
      · rw [List.mem_singleton.mp hw]
        exact hnest

theorem offerAll_traced (works : List Work) (h : Traced g settings state frontier)
    (hbuilt : ∀ work ∈ works, g.BuiltFrom state.expanded work.inst) :
    (offerAll settings state works).1.expanded = state.expanded ∧
      Traced g settings (offerAll settings state works).1
        (frontier ++ (offerAll settings state works).2) := by
  induction works generalizing state frontier with
  | nil =>
      simp only [offerAll, List.append_nil]
      exact ⟨trivial, h⟩
  | cons work rest ih =>
      rcases offer_traced h work (hbuilt work List.mem_cons_self) with ⟨hsame, hoffer⟩
      have hrest : ∀ w ∈ rest, g.BuiltFrom (offer settings state work).1.expanded w.inst := by
        intro w hw
        rw [hsame]
        exact hbuilt w (List.mem_cons_of_mem _ hw)
      rcases ih hoffer hrest with ⟨hexpanded, htraced⟩
      simp only [offerAll]
      rw [← List.append_assoc]
      exact ⟨hexpanded.trans hsame, htraced⟩

theorem start_traced (g : Graph) (settings : Settings) :
    (start g settings).1.expanded = [] ∧
      Traced g settings (start g settings).1 (start g settings).2 := by
  have hempty : Traced g settings {} [] :=
    ⟨fun _ hi => absurd hi List.not_mem_nil, fun _ hi => absurd hi List.not_mem_nil,
      fun _ hw => absurd hw List.not_mem_nil, fun _ hw => absurd hw List.not_mem_nil⟩
  refine offerAll_traced _ hempty fun work hwork => ?_
  rcases List.mem_map.mp hwork with ⟨i, hi, rfl⟩
  exact Or.inl hi

/-- A level records the frontier before it offers what that leads to. -/
theorem level_traced (h : Traced g settings state frontier) :
    (level g settings state frontier).1.expanded = state.expanded ++ frontier ∧
      Traced g settings (level g settings state frontier).1
        (level g settings state frontier).2 := by
  -- Recording the frontier makes more count as built, and nothing less.
  have hmore : state.expanded ⊆ state.expanded ++ frontier := List.subset_append_left _ _
  have hrecorded :
      Traced g settings { state with expanded := state.expanded ++ frontier } [] := by
    refine ⟨fun i hi => ⟨(h.known i hi).1.mono hmore, (h.known i hi).2⟩,
      fun i hi => (h.given i hi).mono hmore, fun _ hw => absurd hw List.not_mem_nil,
      fun work hwork => ?_⟩
    rcases List.mem_append.mp hwork with hold | hnew
    · exact h.expanded work hold
    · exact h.ahead work hnew
  refine offerAll_traced _ hrecorded fun work hwork => ?_
  rcases List.mem_flatMap.mp hwork with ⟨parent, hparent, hmem⟩
  rcases List.mem_map.mp hmem with ⟨j, hj, rfl⟩
  exact Or.inr ⟨parent, List.mem_append_right _ hparent, hj⟩

theorem drain_traced (levels : Nat) (h : Traced g settings state frontier) :
    state.expanded <+: (drain g settings levels state frontier).expanded ∧
      Traced g settings (drain g settings levels state frontier) [] := by
  induction levels generalizing state frontier with
  | zero => exact ⟨List.prefix_rfl, h.known, h.given, fun _ hw => absurd hw List.not_mem_nil,
      h.expanded⟩
  | succ levels ih =>
      rcases level_traced h with ⟨hexpanded, hlevel⟩
      rcases ih hlevel with ⟨hbefore, htraced⟩
      rw [drain_succ]
      rw [hexpanded] at hbefore
      exact ⟨(List.prefix_append _ _).trans hbefore, htraced⟩

/-- What is known can be expanded again. -/
theorem Traced.snapshot (h : Traced g settings state []) :
    Traced g settings state state.snapshot := by
  refine ⟨h.known, h.given, fun work hwork => ?_, h.expanded⟩
  have hget := (mem_snapshot_iff state work).mp hwork
  exact (h.known work.inst ((FirstMap.mem_keys_iff _ _).mpr ⟨work.depth, hget⟩)).2

/-- The passes leave everything traced, and together they have recorded all that was
    expanded since they began. -/
theorem passes_traced (remaining number : Nat) (h : Traced g settings state frontier) :
    (passes g settings remaining number state frontier).state.expanded =
        state.expanded ++
          (passes g settings remaining number state frontier).passes.flatMap Pass.expanded ∧
      Traced g settings (passes g settings remaining number state frontier).state [] := by
  -- On the passes that are left: each starts from the snapshot that the one before leaves.
  induction remaining using Nat.strong_induction_on generalizing number state frontier with
  | _ remaining ih =>
      rcases drain_traced (levels settings) h with ⟨⟨later, hlater⟩, hdrain⟩
      rcases passes_cases g settings remaining number state frontier with
        ⟨pass, hpass, ⟨_, hlast⟩ | ⟨fewer, run, hfewer, rfl, hmore⟩⟩
      · -- A pass records what the drain has added to what was there before it.
        rw [hlast, List.flatMap_singleton, hpass, ← hlater, List.drop_left]
        exact ⟨rfl, hdrain⟩
      · rcases ih fewer (by omega) (number + 1) hdrain.snapshot with ⟨hexpanded, htraced⟩
        rw [hmore, List.flatMap_cons, hpass]
        refine ⟨?_, htraced⟩
        rw [hexpanded, ← hlater, List.drop_left, List.append_assoc]

end Traced

section Shared

variable {g : Graph} {settings : Settings} {base shared : Shared} {frontier works next : List Work}
  {items : Nat} {given : List (Instantiation × Limit)}

/-- Workers that are done have made known only what is within the limit, and given up
    only what they were offered. -/
theorem Outcome.within (bound : Nat) (h : Outcome g settings base works items shared next given)
    (hknown : ∀ i ∈ base.index.keys, i.nesting ≤ settings.maxTypeNesting)
    (hgiven : ∀ i ∈ base.abandoned.keys, i.nesting ≤ bound)
    (hworks : ∀ work ∈ works, work.inst.nesting ≤ bound) :
    (∀ i ∈ shared.index.keys, i.nesting ≤ settings.maxTypeNesting) ∧
      (∀ i ∈ shared.abandoned.keys, i.nesting ≤ bound) ∧
      ∀ work ∈ next, work.inst.nesting ≤ settings.maxTypeNesting := by
  have hnext : ∀ work ∈ next, work.inst.nesting ≤ settings.maxTypeNesting := fun work hwork =>
    ((exceeded?_eq_none_iff settings work).mp (h.next_mem work hwork).2).2
  refine ⟨fun i hi => ?_, fun i hi => ?_, hnext⟩
  · rcases List.mem_append.mp (h.index_keys.mem_iff.mp hi) with hold | hnew
    · exact hknown i hold
    · rcases List.mem_map.mp hnew with ⟨work, hwork, rfl⟩
      exact hnext work hwork
  · rcases List.mem_append.mp (h.abandoned.mem_iff.mp hi) with hold | hnew
    · exact hgiven i hold
    · rcases List.mem_map.mp hnew with ⟨pair, hpair, rfl⟩
      rcases (h.given_mem pair hpair).2 with ⟨work, hwork, hinst, _⟩
      rw [← hinst]
      exact hworks work hwork

/-- However the steps of workers interleave, what they know and what they are about to
    expand is within the limit, and what they give up exceeds it by little. -/
theorem Reached.within (hwell : g.WellFormed settings.maxTypeNesting)
    (hpos : 1 ≤ settings.maxTypeNesting) (h : Reached g settings shared frontier) :
    (∀ i ∈ shared.index.keys, i.nesting ≤ settings.maxTypeNesting) ∧
      (∀ i ∈ shared.abandoned.keys, i.nesting ≤ 2 * settings.maxTypeNesting - 1) ∧
      ∀ work ∈ frontier, work.inst.nesting ≤ settings.maxTypeNesting := by
  induction h with
  | seeds shared worker hrun hdone =>
      rcases hrun.exists_outcome (isFresh_of_mem_look _)
        (fun w hw => List.mem_singleton.mp hw ▸ hdone) with ⟨given, houtcome⟩
      rw [List.flatMap_singleton, List.flatMap_singleton] at houtcome
      refine houtcome.within _ (fun _ hi => absurd hi List.not_mem_nil)
        (fun _ hi => absurd hi List.not_mem_nil) fun work hwork => ?_
      rcases List.mem_map.mp hwork with ⟨i, hi, rfl⟩
      have hle := g.nesting_le_of_isSeed _ hwell i ((g.mem_seeds_iff i).mp hi)
      simp only
      omega
  | expand shared shared' frontier next _ hexpands ih =>
      rcases ih with ⟨hknown, hgiven, hahead⟩
      -- Candidates come from a frontier that is within the limit.
      rcases hexpands.exists_outcome with ⟨given, houtcome⟩
      refine houtcome.within _ hknown hgiven fun work hwork => ?_
      rcases List.mem_flatMap.mp hwork with ⟨parent, hparent, hmem⟩
      rcases List.mem_map.mp hmem with ⟨j, hj, rfl⟩
      exact g.nesting_le_of_mem_successors _ hwell hpos parent.inst j (hahead parent hparent) hj
  | pass shared frontier _ hall ih =>
      rcases ih with ⟨hknown, hgiven, _⟩
      refine ⟨hknown, hgiven, fun work hwork => ?_⟩
      rcases List.mem_map.mp (hall.mem_iff.mp hwork) with ⟨entry, hentry, rfl⟩
      exact hknown entry.1 (List.mem_map_of_mem hentry)

end Shared

end Closure

namespace Graph

variable (g : Graph) (settings : Settings)

/-- A resolution has traced everything, and its passes have recorded what was
    expanded. -/
theorem resolve_traced : ∃ state : Closure.State,
    Closure.Traced g settings state [] ∧ (g.resolve settings).reached = state.index ∧
      (g.resolve settings).abandoned = state.abandoned ∧
      (g.resolve settings).passes.flatMap Pass.expanded = state.expanded := by
  rcases Closure.start_traced g settings with ⟨hnone, hstart⟩
  rcases Closure.passes_traced (settings.maxPasses - 1) 1 hstart with ⟨hexpanded, htraced⟩
  rw [hnone, List.nil_append] at hexpanded
  exact ⟨_, htraced, rfl, rfl, hexpanded.symm⟩

end Graph

theorem Instantiation.nesting_published_le (entry : Entry) (i : Instantiation) :
    (i.published entry).nesting ≤ i.nesting := by
  unfold Instantiation.published
  by_cases hown : entry.ownParams.isEmpty = true
  · rw [if_pos hown]
    exact Nat.zero_le _
  · rw [if_neg hown]

/-- Replacing parameters makes an expression deeper by at most what replaces them, less
    the level that they had, and does not change it where nothing is replaced. So
    under valid settings everything that is reached is within the limit on nesting,
    and everything that is ever built, what is given up included, is within twice that
    limit less one. This holds of every list of arguments that is built by expanding,
    closed or not, and however workers that share the search take their steps. -/
theorem Program.nesting_bounded (p : Program) (settings : Settings)
    (hvalid : settings.validate = .ok settings) :
    let a := p.analyze settings
    let g := a.scan.graph
    let r := a.resolution
    let limit := settings.maxTypeNesting
    (∀ (s : Subst) (m : Nat) (e : Expr), (∀ name v, s.get? name = some v → v.nesting ≤ m) →
      (s.Touches e → (s.apply e).nesting ≤ e.nesting - 1 + m) ∧
        (¬ s.Touches e → (s.apply e).nesting = e.nesting)) ∧
    (∀ i ∈ r.reached.keys, i.nesting ≤ limit) ∧
    (∀ i, g.Builds r i → i.nesting ≤ 2 * limit - 1) ∧
    (∀ i, i ∈ r.reached.keys ∨ i ∈ r.abandoned.keys → g.Builds r i) ∧
    (∀ pass ∈ r.passes, ∀ work ∈ pass.expanded, ∀ target ∈ g.targets work.inst.decl,
      ∀ e ∈ (g.binding work.inst).applyAll target.2, e.nesting ≤ 2 * limit - 1) ∧
    (∀ shared frontier, Closure.Reached g settings shared frontier →
      (∀ i ∈ shared.index.keys, i.nesting ≤ limit) ∧
      (∀ i ∈ shared.abandoned.keys, i.nesting ≤ 2 * limit - 1) ∧
      ∀ work ∈ frontier, ∀ j ∈ g.successors work.inst, j.nesting ≤ 2 * limit - 1) := by
  intro a g r limit
  have hwell : g.WellFormed limit := p.scan_wellFormed limit
  have hpos : 1 ≤ limit := settings.maxTypeNesting_pos hvalid
  rcases g.resolve_traced settings with ⟨state, htraced, hreached, habandoned, hpasses⟩
  have hknown : ∀ i ∈ r.reached.keys, i.nesting ≤ limit := by
    intro i hi
    exact (htraced.known i (hreached ▸ hi)).2
  have hexpanded : ∀ pass ∈ r.passes, ∀ work ∈ pass.expanded, work.inst.nesting ≤ limit := by
    intro pass hpass work hwork
    exact htraced.expanded work (hpasses ▸ List.mem_flatMap.mpr ⟨pass, hpass, hwork⟩)
  refine ⟨fun s m e hvalues => ⟨s.nesting_apply_le m hvalues e, fun huntouched => ?_⟩, hknown,
    fun i hbuilds => ?_, fun i hi => ?_, fun pass hpass work hwork target htarget e he => ?_,
    fun shared frontier hshared => ?_⟩
  · rw [s.apply_of_not_touches e huntouched]
  · cases hbuilds with
    | seed i h =>
        have hwithin := g.nesting_le_of_isSeed limit hwell i ((g.mem_seeds_iff i).mp h)
        omega
    | successor pass hpass work hwork j hj =>
        exact g.nesting_le_of_mem_successors limit hwell hpos work.inst i
          (hexpanded pass hpass work hwork) hj
    | published i h =>
        rcases (Resolution.mem_published_iff r g.table i).mp h with ⟨j, hj, entry, _, _, rfl⟩
        have hle := j.nesting_published_le entry
        have hwithin := hknown j hj
        omega
  · -- Reached or given up, it was a candidate once, and candidates are built.
    have hbuilt : g.BuiltFrom state.expanded i := by
      rcases hi with hi | hi
      · exact (htraced.known i (hreached ▸ hi)).1
      · exact htraced.given i (habandoned ▸ hi)
    rcases hbuilt with hseed | ⟨work, hwork, hsuccessor⟩
    · exact .seed i hseed
    · rw [← hpasses] at hwork
      rcases List.mem_flatMap.mp hwork with ⟨pass, hpass, hmem⟩
      exact .successor pass hpass work hmem i hsuccessor
  · rcases (g.mem_targets_iff work.inst.decl target).mp htarget with ⟨hop, hhop, _, rfl⟩
    exact g.nesting_applyAll_le limit hwell hpos work.inst (hexpanded pass hpass work hwork) hop
      hhop e he
  · rcases hshared.within hwell hpos with ⟨hindex, hgiven, hahead⟩
    refine ⟨hindex, hgiven, fun work hwork j hj => ?_⟩
    exact g.nesting_le_of_mem_successors limit hwell hpos work.inst j (hahead work hwork) hj

namespace Onion

/-- Peeling an onion of something peels one with two more layers. -/
def program : Program where
  declarations :=
    [{ name := "main", kind := .method, body := [⟨"peel", ["pearl"], .call⟩] },
     { name := "Layer", kind := .type, typeParams := ["L"] },
     { name := "peel", kind := .method, typeParams := ["O"],
       body := [⟨"peel", ["Layer<Layer<O>>"], .call⟩] }]

/-- Three levels of nesting are allowed. -/
def settings : Settings :=
  { maxTypeNesting := 3 }

/-- An expression in this many layers. -/
def layered : Nat → Expr → Expr
  | 0, e => e
  | n + 1, e => .app 1 [layered n e]

/-- What peeling binds when it has been given an onion of two layers. -/
def binding : Subst :=
  Subst.ofPairs ["O"] [layered 2 (.literal "pearl")]

theorem touches_binding : binding.Touches (layered 2 (.param "O")) := by
  have hinner : binding.Touches (.param "O") :=
    ⟨"O", layered 2 (.literal "pearl"), .param, by decide⟩
  exact (hinner.app 1 [.param "O"] List.mem_cons_self).app 1 [layered 1 (.param "O")]
    List.mem_cons_self

theorem nesting_binding (name : String) (v : Expr) (h : binding.get? name = some v) :
    v.nesting ≤ 3 := by
  have hv := Subst.mem_of_get?_ofPairs _ _ _ _ h
  rw [List.mem_singleton.mp hv]
  decide

/-- Both bounds are attained: an onion of two layers in two more is nested as deeply as
    the bound allows, and it is built, and given up, when the other one is peeled. -/
theorem nesting_program :
    settings.validate = .ok settings ∧
    binding.Touches (layered 2 (.param "O")) ∧
    ((binding.apply (layered 2 (.param "O"))).nesting = 3 - 1 + 3 ∧
      (binding.apply (layered 2 (.param "O"))).nesting ≤
        (layered 2 (.param "O")).nesting - 1 + 3) ∧
    (program.analyze settings).resolution.reached.keys.map Instantiation.nesting = [1, 3] ∧
    (program.analyze settings).resolution.abandoned.keys.map Instantiation.nesting = [5] ∧
    (∀ i ∈ (program.analyze settings).resolution.reached.keys, i.nesting ≤ 3) ∧
    ∀ i ∈ (program.analyze settings).resolution.abandoned.keys, i.nesting ≤ 2 * 3 - 1 := by
  have hvalid : settings.validate = .ok settings := by decide
  rcases program.nesting_bounded settings hvalid with
    ⟨hgrowth, hreached, hbuilds, hbuilt, _, _⟩
  refine ⟨hvalid, touches_binding, ⟨by decide, ?_⟩, by decide +kernel, by decide +kernel, hreached,
    fun i hi => hbuilds i (hbuilt i (Or.inr hi))⟩
  exact (hgrowth binding 3 _ nesting_binding).1 touches_binding

end Onion

end Monomorph

import Mathlib.Data.Set.Card
import Monomorph.Proofs.Order
import Monomorph.Proofs.Reached

/-!
# The Figures of a Resolution

How many passes a resolution makes, how many expansions, and how many seeds.

The first pass decides everything, so the second one finds nothing and is the
last, unless the limit on passes allows only one. Either way there is never a
closure that was still growing when the passes were used up.

Expansions are counted by a balance. In the first pass everything that becomes
known is expanded one level later, so at any time what has been expanded and
what is on the frontier make up what is known (`drain_expanded`), and at the end
there is no frontier. The second pass expands everything once more. So each pass
expands as many instantiations as are reached in the end.

Seeds are counted when they are taken. A seed would not be taken if it exceeded a
limit, but it is at no hops, and scanning refuses what is nested too deeply under
the same limit that resolving holds against it. So the seeds that are counted are
all there are.

## Main definitions

* `Closure.firstPass`: The state after the first pass.

## Theorems

* `Closure.size_offerAll`, `Closure.size_level`: As many become known as are to be
  expanded.
* `Closure.drain_expanded`: The balance of a drain.
* `Closure.passes_of_stable`: A pass over what is stable confirms it.
* `Closure.firstPass_stable`: The first pass decides everything.
* `Closure.drain_levels_add`: No pass is ended by the count of its levels.
* `Closure.passes_start`: The run of all passes.
* `Graph.resolve_passes`: How many passes are made, and with which outcome.
* `Graph.resolve_expansions`: Every pass expands what is reached.
* `Graph.resolve_firstPass`: The first pass settles what is reached and given up.
* `Graph.resolve_confirmation`, `Graph.drain_firstPass`: A further pass finds
  nothing, whatever its order.
* `Graph.resolve_seeds`: Every seed that is taken is known at once.
* `Graph.resolve_seeds_eq_ncard`: Every seed is taken once.
* `Graph.length_diagnostics`: What is given up is reported once.
* `Program.code_ne_nonConvergence`: No closure is reported to be still growing.
* `Program.figures_exact`: The figures of an analysis.
-/

namespace Monomorph

namespace Closure

/-- As many instantiations become known as are to be expanded. -/
theorem size_offerAll (settings : Settings) (works : List Work) (state : State) :
    (offerAll settings state works).1.index.size =
        state.index.size + (offerAll settings state works).2.length ∧
      (offerAll settings state works).1.expanded = state.expanded := by
  induction works generalizing state with
  | nil => exact ⟨rfl, rfl⟩
  | cons work rest ih =>
      have hoffer : (offer settings state work).1.index.size =
            state.index.size + (offer settings state work).2.length ∧
          (offer settings state work).1.expanded = state.expanded := by
        rcases offer_cases settings state work with ⟨depth, _, heq⟩ | ⟨_, limit, _, heq⟩ |
          ⟨hnew, _, heq⟩
        · rw [heq]
          exact ⟨rfl, rfl⟩
        · rw [heq]
          exact ⟨rfl, rfl⟩
        · -- Only here does anything become known, and it is new.
          have hcontains : state.index.contains work.inst = false := by
            rw [FirstMap.contains_eq_isSome, hnew]
            rfl
          simp [heq, FirstMap.size, hcontains]
      rcases ih (offer settings state work).1 with ⟨hsize, hexpanded⟩
      simp only [offerAll, List.length_append]
      exact ⟨by omega, hexpanded.trans hoffer.2⟩

theorem size_level (g : Graph) (settings : Settings) (state : State) (frontier : List Work) :
    (level g settings state frontier).1.index.size =
        state.index.size + (level g settings state frontier).2.length ∧
      (level g settings state frontier).1.expanded = state.expanded ++ frontier :=
  size_offerAll settings _ _

/-- A drain leaves known what was known and not on the frontier, and as many more
    as it expands. -/
theorem drain_expanded (g : Graph) (settings : Settings) (levels n : Nat) (state : State)
    (frontier : List Work) (hn : n + levels = settings.maxDepth + 1)
    (h : DecidedBelow g settings (n + 1) state) (hfrontier : IsFrontier g settings n frontier) :
    (drain g settings levels state frontier).expanded.length + state.index.size =
      state.expanded.length + frontier.length +
        (drain g settings levels state frontier).index.size := by
  induction levels generalizing n state frontier with
  | zero =>
      rw [hfrontier.eq_nil (by omega), drain_nil, List.length_nil]
      omega
  | succ levels ih =>
      rcases level_decidedBelow g settings n state frontier (by omega) h hfrontier with
        ⟨hlevel, hnext⟩
      rcases size_level g settings state frontier with ⟨hsize, hexpanded⟩
      -- A level moves the frontier to what was expanded, and what it makes known is the
      -- next frontier, so the balance of the rest is that of the whole.
      have hrest := ih (n + 1) _ _ (by omega) hlevel hnext
      have hlength := congrArg List.length hexpanded
      rw [List.length_append] at hlength
      rw [drain_succ]
      omega

/-- A pass over everything known, where that is stable, finds nothing, gives up
    nothing and is the last one. -/
theorem passes_of_stable (g : Graph) (settings : Settings) (remaining number : Nat)
    (state : State) (hnumber : 1 < number) (h : Stable g settings state) :
    ∃ pass, pass.discovered = 0 ∧ pass.abandoned = [] ∧
      passes g settings remaining number state state.snapshot =
        ⟨{ state with expanded := state.expanded ++ state.snapshot }, [pass], true⟩ := by
  unfold passes
  rw [drain_of_stable g settings state _ h fun _ hwork => hwork]
  simp only [Nat.sub_self, and_true, hnumber, if_true]
  exact ⟨_, rfl, List.drop_length, rfl⟩

/-- The state after the first pass. -/
def firstPass (g : Graph) (settings : Settings) : State :=
  drain g settings (levels settings) (start g settings).1 (start g settings).2

/-- The first pass decides everything and expands all that it makes known. -/
theorem firstPass_stable (g : Graph) (settings : Settings) :
    Stable g settings (firstPass g settings) ∧
      (firstPass g settings).expanded.length = (firstPass g settings).index.size := by
  rcases start_decidedBelow g settings with ⟨hstart, hfrontier⟩
  refine ⟨stable_of_decidedBelow g settings _ (drain_decidedBelow g settings (levels settings) 0
    _ _ (Nat.zero_add _) hstart hfrontier), ?_⟩
  have hbalance := drain_expanded g settings (levels settings) 0 _ _ (Nat.zero_add _) hstart
    hfrontier
  -- At the start nothing is expanded and the frontier is all that is known.
  rcases size_offerAll settings (g.seeds.map fun inst => ⟨inst, 0⟩) {} with ⟨hsize, hexpanded⟩
  have hknown : (start g settings).1.index.size = (start g settings).2.length :=
    hsize.trans (Nat.zero_add _)
  have hnone : (start g settings).1.expanded.length = 0 := congrArg List.length hexpanded
  rw [firstPass]
  omega

/-- The count of levels ends neither the first pass nor one that expands what the first
    one made known: with any more levels each of them comes to the same. -/
theorem drain_levels_add (g : Graph) (settings : Settings) (more : Nat) :
    drain g settings (levels settings + more) (start g settings).1 (start g settings).2 =
        firstPass g settings ∧
      ∀ order : List Work, order.Perm (firstPass g settings).snapshot →
        drain g settings (levels settings + more) (firstPass g settings) order =
          drain g settings (levels settings) (firstPass g settings) order := by
  rcases start_decidedBelow g settings with ⟨hstart, hfrontier⟩
  refine ⟨drain_add g settings (levels settings) more 0 _ _ (Nat.zero_add _) hstart hfrontier,
    fun order horder => ?_⟩
  have hknown : ∀ work ∈ order, work ∈ (firstPass g settings).snapshot :=
    fun _ hwork => horder.mem_iff.mp hwork
  have hstable := (firstPass_stable g settings).1
  rw [drain_of_stable g settings _ order hstable hknown, levels, Nat.add_right_comm,
    drain_succ_of_stable g settings _ _ order hstable hknown]

/-- The run of all passes: the first one alone, or it and one more that confirms
    it. -/
theorem passes_start (g : Graph) (settings : Settings) (remaining : Nat) :
    (remaining = 0 ∧ ∃ pass,
        passes g settings remaining 1 (start g settings).1 (start g settings).2 =
          ⟨firstPass g settings, [pass], false⟩) ∨
      (0 < remaining ∧ ∃ pass pass', pass'.discovered = 0 ∧ pass'.abandoned = [] ∧
        passes g settings remaining 1 (start g settings).1 (start g settings).2 =
          ⟨{ firstPass g settings with
              expanded := (firstPass g settings).expanded ++ (firstPass g settings).snapshot },
            [pass, pass'], true⟩) := by
  cases remaining with
  | zero =>
      refine Or.inl ⟨rfl, ?_⟩
      unfold passes
      simp only [Nat.lt_irrefl, false_and, if_false]
      exact ⟨_, rfl⟩
  | succ fewer =>
      right
      -- The first pass cannot be the last, even if it finds nothing.
      rcases passes_of_stable g settings fewer 2 (firstPass g settings) (by omega)
        (firstPass_stable g settings).1 with ⟨pass', hdiscovered, habandoned, hpass⟩
      rw [firstPass] at hpass
      rw [passes]
      simp only [Nat.lt_irrefl, false_and, if_false, Nat.reduceAdd]
      rw [hpass]
      exact ⟨Nat.succ_pos _, _, pass', hdiscovered, habandoned, rfl⟩

end Closure

namespace Graph

variable (g : Graph) (settings : Settings)

/-- There are two passes, the second of which confirms the first, or only one
    where no more are allowed. Nothing is ever said about a closure that was still
    growing. -/
theorem resolve_passes :
    (g.resolve settings).stats.passes = (if 1 < settings.maxPasses then 2 else 1) ∧
      (g.resolve settings).stats.converged = decide (1 < settings.maxPasses) ∧
      (g.resolve settings).stalled = none := by
  unfold resolve
  rcases Closure.passes_start g settings (settings.maxPasses - 1) with
    ⟨hzero, pass, hrun⟩ | ⟨hpos, pass, pass', _, _, hrun⟩
  · have hone : ¬ 1 < settings.maxPasses := by omega
    simp only [hrun, hone, List.length_singleton, if_false, decide_false, and_false, and_self]
  · have hmore : 1 < settings.maxPasses := by omega
    simp only [hrun, hmore, List.length_cons, List.length_nil, if_true, decide_true,
      Bool.not_true, Bool.false_eq_true, false_and, if_false, Nat.zero_add, and_self]

/-- Every pass expands what is reached, each instantiation once. -/
theorem resolve_expansions :
    (g.resolve settings).stats.expansions =
      (g.resolve settings).stats.passes * (g.resolve settings).reached.size := by
  have hfirst := (Closure.firstPass_stable g settings).2
  unfold resolve
  rcases Closure.passes_start g settings (settings.maxPasses - 1) with
    ⟨_, pass, hrun⟩ | ⟨_, pass, pass', _, _, hrun⟩
  · simp only [hrun, List.length_singleton, Nat.one_mul]
    exact hfirst
  · have hsnapshot : ∀ state : Closure.State, state.snapshot.length = state.index.size :=
      fun state => List.length_map _
    simp only [hrun, List.length_cons, List.length_nil, List.length_append, hsnapshot]
    omega

/-- What is reached and what is given up is settled by the first pass. -/
theorem resolve_firstPass :
    (g.resolve settings).reached = (Closure.firstPass g settings).index ∧
      (g.resolve settings).abandoned = (Closure.firstPass g settings).abandoned := by
  unfold resolve
  rcases Closure.passes_start g settings (settings.maxPasses - 1) with
    ⟨_, pass, hrun⟩ | ⟨_, pass, pass', _, _, hrun⟩
  · simp only [hrun, and_self]
  · simp only [hrun, and_self]

/-- A pass after the first one finds nothing and gives up nothing. -/
theorem resolve_confirmation :
    ∀ pass ∈ (g.resolve settings).passes.tail, pass.discovered = 0 ∧ pass.abandoned = [] := by
  unfold resolve
  rcases Closure.passes_start g settings (settings.maxPasses - 1) with
    ⟨_, pass, hrun⟩ | ⟨_, pass, pass', hdiscovered, habandoned, hrun⟩
  · simp only [hrun, List.tail_cons, List.not_mem_nil, false_implies, implies_true]
  · simp only [hrun, List.tail_cons, List.mem_singleton, forall_eq]
    exact ⟨hdiscovered, habandoned⟩

/-- Nor would it if it expanded what is known in another order. -/
theorem drain_firstPass (order : List Work)
    (horder : order.Perm (Closure.firstPass g settings).snapshot) :
    (Closure.drain g settings (Closure.levels settings) (Closure.firstPass g settings)
        order).index = (g.resolve settings).reached ∧
      (Closure.drain g settings (Closure.levels settings) (Closure.firstPass g settings)
        order).abandoned = (g.resolve settings).abandoned := by
  rw [Closure.drain_of_stable g settings _ order (Closure.firstPass_stable g settings).1
    fun _ hwork => horder.mem_iff.mp hwork, (g.resolve_firstPass settings).1,
    (g.resolve_firstPass settings).2]
  exact ⟨rfl, rfl⟩

/-- The seeds that are counted are those that are known before anything is
    expanded. -/
theorem resolve_seeds :
    (g.resolve settings).stats.seeds = (Closure.start g settings).1.index.size := by
  have hsize := (Closure.size_offerAll settings (g.seeds.map fun inst => ⟨inst, 0⟩) {}).1
  exact (hsize.trans (Nat.zero_add _)).symm

/-- Where no seed is nested too deeply, every seed is counted, and counted once. -/
theorem resolve_seeds_eq_ncard (hseeds : g.SeedsWithin settings.maxTypeNesting) :
    (g.resolve settings).stats.seeds = {i | g.IsSeed i}.ncard := by
  -- What is known at the start is exactly the seeds, for none of them exceeds a limit.
  have hkeys : {i | g.IsSeed i} = ↑(Closure.start g settings).1.index.keys.toFinset := by
    ext i
    rw [Set.mem_ofPred_eq, List.coe_toFinset, Set.mem_ofPred_eq, FirstMap.mem_keys_iff]
    constructor
    · intro hseed
      refine ⟨0, ((Closure.start_decidedBelow g settings).1.index i 0).mpr
        ⟨Nat.zero_lt_one, (firstMet_zero_iff g _ i).mpr hseed, ?_⟩⟩
      exact (Closure.exceeded?_eq_none_iff settings ⟨i, 0⟩).mpr ⟨Nat.zero_le _, hseeds i hseed⟩
    · rintro ⟨d, hd⟩
      rcases ((Closure.start_decidedBelow g settings).1.index i d).mp hd with ⟨hlt, hfirst, _⟩
      rw [Nat.lt_one_iff.mp hlt] at hfirst
      exact (firstMet_zero_iff g _ i).mp hfirst
  have hnodup : (Closure.start g settings).1.index.keys.Nodup :=
    (Closure.start g settings).1.index.nodup
  rw [resolve_seeds, hkeys, Set.ncard_coe_finset, List.toFinset_card_of_nodup hnodup]
  exact (List.length_map _).symm

/-- There is one report for each instantiation that was given up, and no other. -/
theorem length_diagnostics :
    ((g.resolve settings).diagnostics g.table).length = (g.resolve settings).stats.abandoned := by
  unfold Resolution.diagnostics
  rw [(Diagnostic.sort_perm _).length_eq, (g.resolve_passes settings).2.2, Option.toList_none,
    List.append_nil, List.length_map]
  rfl

end Graph

/-- No analysis reports a closure that was still growing. -/
theorem Program.code_ne_nonConvergence (p : Program) (settings : Settings) :
    ∀ d ∈ (p.analyze settings).diagnostics, d.code ≠ .nonConvergence := by
  intro d hd
  rcases List.mem_append.mp ((Diagnostic.sort_perm _).mem_iff.mp hd) with hscan | hresolve
  · refine Program.forall_scan (fun d => d.code ≠ .nonConvergence)
      (fun _ => Diagnostic.Code.noConfusion) (fun _ _ => Diagnostic.Code.noConfusion)
      (fun subject fault => ?_) p settings.maxTypeNesting d hscan
    cases fault <;> exact Diagnostic.Code.noConfusion
  · rcases List.mem_append.mp ((Diagnostic.sort_perm _).mem_iff.mp hresolve) with hgiven | hstalled
    · rcases List.mem_map.mp hgiven with ⟨given, _, rfl⟩
      exact Diagnostic.Code.noConfusion
    · have hnone : (p.analyze settings).resolution.stalled = none :=
        ((p.scan settings.maxTypeNesting).graph.resolve_passes settings).2.2
      rw [hnone, Option.toList_none] at hstalled
      exact absurd hstalled List.not_mem_nil

/-- Under any settings the second pass only confirms. It finds nothing, in whatever
    order it expands what is known, so two passes are made where more than one is
    allowed, and nothing is ever said about a closure that was still growing. Neither
    pass is ended by the count of its levels: it ends because nothing is left to be
    expanded. Every pass expands what is reached. The seeds are the distinct
    instantiations that sites write closed, none of which is given up, and each
    instantiation that is given up is reported once. -/
theorem Program.figures_exact (p : Program) (settings : Settings) :
    let a := p.analyze settings
    let g := a.scan.graph
    let r := a.resolution
    (∀ pass ∈ r.passes.tail, pass.discovered = 0 ∧ pass.abandoned = []) ∧
    (∀ order : List Work, order.Perm (Closure.firstPass g settings).snapshot →
      (Closure.drain g settings (Closure.levels settings) (Closure.firstPass g settings)
          order).index = r.reached ∧
        (Closure.drain g settings (Closure.levels settings) (Closure.firstPass g settings)
          order).abandoned = r.abandoned) ∧
    (∀ more, Closure.drain g settings (Closure.levels settings + more)
          (Closure.start g settings).1 (Closure.start g settings).2 =
        Closure.firstPass g settings ∧
      ∀ order : List Work, order.Perm (Closure.firstPass g settings).snapshot →
        Closure.drain g settings (Closure.levels settings + more)
            (Closure.firstPass g settings) order =
          Closure.drain g settings (Closure.levels settings) (Closure.firstPass g settings)
            order) ∧
    r.passes.length = r.stats.passes ∧
    r.stats.passes = (if 2 ≤ settings.maxPasses then 2 else 1) ∧
    r.stats.converged = decide (2 ≤ settings.maxPasses) ∧
    (∀ d ∈ a.diagnostics, d.code ≠ .nonConvergence) ∧
    r.stats.expansions = r.stats.passes * r.reached.size ∧
    r.stats.seeds = {i | g.IsSeed i}.ncard ∧
    (∀ i, g.IsSeed i → i ∈ r.reached.keys ∧ i ∉ r.abandoned.keys) ∧
    r.stats.abandoned = (r.diagnostics a.table).length := by
  intro a g r
  have hseeds : g.SeedsWithin settings.maxTypeNesting :=
    g.nesting_le_of_isSeed settings.maxTypeNesting (p.scan_wellFormed settings.maxTypeNesting)
  rcases g.resolve_passes settings with ⟨hpasses, hconverged, _⟩
  refine ⟨g.resolve_confirmation settings, g.drain_firstPass settings,
    Closure.drain_levels_add g settings, rfl, hpasses, hconverged,
    p.code_ne_nonConvergence settings, g.resolve_expansions settings,
    g.resolve_seeds_eq_ncard settings hseeds, fun i hi => ?_, (g.length_diagnostics settings).symm⟩
  have hreached := g.mem_reached_of_isSeed settings hseeds i hi
  exact ⟨hreached, fun hgiven => g.not_mem_reached_of_mem_abandoned settings i hgiven hreached⟩

end Monomorph

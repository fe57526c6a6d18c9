import Monomorph.Proofs.Walk

/-!
# The Search Decides Everything at First Sight

What the search of a closure leaves behind, said in terms of walks.

The search goes level by level, and that is the whole argument. Everything that
a level brings up is brought up at the same number of hops, so within a level it
does not matter in which order candidates come, nor which of several parents
brought one up. An instantiation is decided the first time it is met: it is
taken then, or given up then. Later meetings change nothing. If it was taken it
is known, and if it was given up it would be given up again, because neither its
nesting nor the limit on hops gets better with more hops.

`DecidedBelow` is that invariant. It pins the index and the list of what was
given up exactly, hops and limits included, which makes it closed under a level
(`level_decidedBelow`) without any fact about the levels before.

Later passes expand everything known in one go, at mixed depths, so the
invariant of levels does not apply to them. They are handled by the other
observation, that there is nothing left to decide (`Stable`): each of their
candidates is known or has been given up before.

The end of the module gives the two facts that everything else uses, so that no
later proof opens the search again.

## Main definitions

* `Closure.DecidedBelow`: Exactly what is met in fewer hops is decided.
* `Closure.IsFrontier`: Exactly what is first met at a number of hops is next.
* `Closure.IsOld`: A candidate that will change nothing.
* `Closure.Stable`: Expanding everything known brings up only such candidates.

## Theorems

* `Closure.exceeded?_eq_none_iff`, `Closure.exceeded?_eq_some_iff`,
  `Closure.exceeded?_eq_none_of_le`: When a limit is exceeded, and that it stays so.
* `Closure.offer_cases`: What can become of a candidate.
* `Closure.get?_index_offer`, `Closure.get?_abandoned_offer`, `Closure.mem_offer_iff`: What
  does become of it.
* `Closure.get?_index_offerAll`, `Closure.get?_abandoned_offerAll`,
  `Closure.mem_offerAll_iff`: What becomes of a batch at one number of hops.
* `Closure.IsFrontier.eq_nil`: Past the limit on hops there is no frontier.
* `Closure.undecided_of_firstMet`, `Closure.firstMet_of_undecided`: What is first met now
  is what is met and not decided.
* `Closure.get?_index_level_iff`, `Closure.get?_abandoned_level_iff`,
  `Closure.offerAll_isFrontier`, `Closure.offerAll_decidedBelow`: A batch decides what is
  met at its number of hops.
* `Closure.start_decidedBelow`: The seeds are decided first.
* `Closure.mem_candidates_iff`: What an expansion brings up.
* `Closure.level_decidedBelow`: A level decides what is one hop further.
* `Closure.drain_nil`, `Closure.drain_succ`: Draining level by level.
* `Closure.drain_decidedBelow`: All levels decide all that the limit allows.
* `Closure.drain_add`: More levels would change nothing.
* `Closure.mem_snapshot_iff`: What is known, with its hops.
* `Closure.offerAll_of_isOld`, `Closure.isOld_of_subset_snapshot`: What is old changes
  nothing.
* `Closure.stable_of_decidedBelow`: After all levels nothing is left to decide.
* `Closure.drain_succ_of_stable`, `Closure.drain_of_stable`: Expanding what is known once
  more only counts it.
* `Closure.passes_cases`, `Closure.passes_state_cases`: What one more pass does, and what
  it records.
* `Closure.passes_state`: Further passes find nothing and give up nothing.
* `Graph.resolve_decidedBelow`: So a resolution has decided everything.
* `Graph.get?_reached_iff`: What a resolution reaches, and at how many hops.
* `Graph.get?_abandoned_iff`: What it gives up, and why.
-/

namespace Monomorph

namespace Closure

theorem exceeded?_eq_none_iff (settings : Settings) (work : Work) :
    exceeded? settings work = none ↔
      work.depth ≤ settings.maxDepth ∧ work.inst.nesting ≤ settings.maxTypeNesting := by
  unfold exceeded?
  by_cases hdepth : settings.maxDepth < work.depth
  · rw [if_pos hdepth]
    simp only [reduceCtorEq, false_iff, not_and]
    omega
  · rw [if_neg hdepth]
    by_cases hnest : settings.maxTypeNesting < work.inst.nesting
    · rw [if_pos hnest]
      simp only [reduceCtorEq, false_iff, not_and]
      omega
    · rw [if_neg hnest]
      simp only [true_iff]
      omega

/-- Too many hops are named whatever the nesting. -/
theorem exceeded?_eq_some_iff (settings : Settings) (work : Work) (limit : Limit) :
    exceeded? settings work = some limit ↔
      (settings.maxDepth < work.depth ∧ limit = .hops settings.maxDepth) ∨
      (work.depth ≤ settings.maxDepth ∧ settings.maxTypeNesting < work.inst.nesting ∧
        limit = .nesting settings.maxTypeNesting) := by
  unfold exceeded?
  -- The hops are looked at first.
  by_cases hdepth : settings.maxDepth < work.depth
  · simp only [hdepth, if_true, Option.some.injEq, true_and, eq_comm,
      Nat.not_le_of_lt hdepth, false_and, or_false]
  · by_cases hnest : settings.maxTypeNesting < work.inst.nesting
    · simp only [hdepth, if_false, hnest, if_true, Option.some.injEq, false_and, false_or,
        Nat.le_of_not_lt hdepth, true_and, eq_comm]
    · simp only [hdepth, if_false, hnest, reduceCtorEq, false_and, and_false, or_false]

/-- Fewer hops never hurt: what exceeds no limit would not exceed one earlier. -/
theorem exceeded?_eq_none_of_le (settings : Settings) (i : Instantiation) (m n : Nat)
    (hle : m ≤ n) (h : exceeded? settings ⟨i, n⟩ = none) : exceeded? settings ⟨i, m⟩ = none := by
  rw [exceeded?_eq_none_iff] at h ⊢
  exact ⟨Nat.le_trans hle h.1, h.2⟩

/-- The three things that can become of a candidate. -/
theorem offer_cases (settings : Settings) (state : State) (work : Work) :
    (∃ depth, state.index.get? work.inst = some depth ∧
      offer settings state work = (state, [])) ∨
    (state.index.get? work.inst = none ∧ ∃ limit, exceeded? settings work = some limit ∧
      offer settings state work =
        ({ state with abandoned := state.abandoned.insert work.inst limit }, [])) ∨
    (state.index.get? work.inst = none ∧ exceeded? settings work = none ∧
      offer settings state work =
        ({ state with index := state.index.insert work.inst work.depth }, [work])) := by
  unfold offer
  rw [FirstMap.contains_eq_isSome]
  cases hknown : state.index.get? work.inst with
  | some depth => exact Or.inl ⟨depth, rfl, rfl⟩
  | none =>
      cases hlimit : exceeded? settings work with
      | some limit => exact Or.inr (Or.inl ⟨rfl, limit, rfl, rfl⟩)
      | none => exact Or.inr (Or.inr ⟨rfl, rfl, rfl⟩)

theorem get?_index_offer (settings : Settings) (state : State) (work : Work) (i : Instantiation) :
    (offer settings state work).1.index.get? i = (state.index.get? i).or
      (if i = work.inst ∧ exceeded? settings work = none then some work.depth else none) := by
  rcases offer_cases settings state work with ⟨depth, hknown, heq⟩ | ⟨_, limit, hlimit, heq⟩ |
    ⟨_, hnone, heq⟩
  · -- A candidate that is known keeps the number of hops it has.
    rw [heq]
    by_cases hi : i = work.inst
    · rw [hi, hknown, Option.some_or]
    · rw [if_neg (fun hc => hi hc.1), Option.or_none]
  · rw [heq, hlimit, if_neg (fun hc => nomatch hc.2), Option.or_none]
  · simp [heq, hnone]

theorem get?_abandoned_offer (settings : Settings) (state : State) (work : Work)
    (j : Instantiation) :
    (offer settings state work).1.abandoned.get? j = (state.abandoned.get? j).or
      (if j = work.inst ∧ state.index.get? j = none then exceeded? settings work else none) := by
  rcases offer_cases settings state work with ⟨depth, hknown, heq⟩ | ⟨hnew, limit, hlimit, heq⟩ |
    ⟨_, hnone, heq⟩
  · have hnot : ¬ (j = work.inst ∧ state.index.get? j = none) := by
      rintro ⟨rfl, hc⟩
      rw [hknown] at hc
      exact absurd hc (by simp only [reduceCtorEq, not_false_eq_true])
    rw [heq, if_neg hnot, Option.or_none]
  · rw [heq, FirstMap.get?_insert, hlimit]
    by_cases hj : j = work.inst
    · rw [if_pos hj, if_pos ⟨hj, hj ▸ hnew⟩]
    · rw [if_neg hj, if_neg (fun hc => hj hc.1)]
  · rw [heq, hnone, ite_self, Option.or_none]

theorem mem_offer_iff (settings : Settings) (state : State) (work w : Work) :
    w ∈ (offer settings state work).2 ↔
      w = work ∧ state.index.get? work.inst = none ∧ exceeded? settings work = none := by
  rcases offer_cases settings state work with ⟨depth, hknown, heq⟩ | ⟨_, limit, hlimit, heq⟩ |
    ⟨hnew, hnone, heq⟩
  · simp only [heq, hknown, List.not_mem_nil, reduceCtorEq, false_and, and_false]
  · simp only [heq, hlimit, List.not_mem_nil, reduceCtorEq, and_false]
  · simp only [heq, hnew, hnone, List.mem_singleton, and_true]

section Batch

-- All candidates of a batch are at the same number of hops, so it does not
-- matter which of those for one instantiation comes first.
variable (settings : Settings) (depth : Nat)

theorem get?_index_offerAll (works : List Work) (hdepth : ∀ work ∈ works, work.depth = depth)
    (state : State) (i : Instantiation) :
    (offerAll settings state works).1.index.get? i = (state.index.get? i).or
      (if ⟨i, depth⟩ ∈ works ∧ exceeded? settings ⟨i, depth⟩ = none then some depth else none) := by
  induction works generalizing state with
  | nil => simp only [offerAll, List.not_mem_nil, false_and, if_false, Option.or_none]
  | cons work rest ih =>
      have hwork : work = ⟨work.inst, depth⟩ := by rw [← hdepth work List.mem_cons_self]
      simp only [offerAll]
      rw [ih (fun w hw => hdepth w (List.mem_cons_of_mem _ hw)), get?_index_offer, Option.or_assoc]
      congr 1
      -- The head matters only for its own instantiation.
      by_cases hi : i = work.inst
      · rw [hi, ← hwork]
        cases hlimit : exceeded? settings work with
        | none =>
            simp only [List.mem_cons_self, and_self, if_true, Option.some_or,
              hdepth work List.mem_cons_self]
        | some limit => simp only [reduceCtorEq, and_false, if_false, Option.or_none]
      · have hne : ¬ (⟨i, depth⟩ : Work) = work := fun hc => hi (congrArg Work.inst hc)
        simp only [hi, hne, List.mem_cons, false_and, if_false, Option.none_or, false_or]

theorem get?_abandoned_offerAll (works : List Work) (hdepth : ∀ work ∈ works, work.depth = depth)
    (state : State) (j : Instantiation) :
    (offerAll settings state works).1.abandoned.get? j = (state.abandoned.get? j).or
      (if ⟨j, depth⟩ ∈ works ∧ state.index.get? j = none then exceeded? settings ⟨j, depth⟩
        else none) := by
  induction works generalizing state with
  | nil => simp only [offerAll, List.not_mem_nil, false_and, if_false, Option.or_none]
  | cons work rest ih =>
      have hwork : work = ⟨work.inst, depth⟩ := by rw [← hdepth work List.mem_cons_self]
      simp only [offerAll]
      rw [ih (fun w hw => hdepth w (List.mem_cons_of_mem _ hw)), get?_abandoned_offer,
        get?_index_offer, Option.or_assoc]
      congr 1
      -- For its own instantiation the head settles the matter if it exceeds a limit. If it does
      -- not, then no later candidate for it does, being at the same number of hops.
      by_cases hj : j = work.inst
      · rw [hj, ← hwork]
        cases hlimit : exceeded? settings work with
        | none => simp only [ite_self, Option.or_none]
        | some limit =>
            simp only [List.mem_cons_self, reduceCtorEq, and_false, if_false, Option.or_none,
              true_and]
            by_cases hnew : state.index.get? work.inst = none
            · simp only [hnew, if_true, Option.some_or]
            · simp only [hnew, and_false, if_false, Option.or_none]
      · have hne : ¬ (⟨j, depth⟩ : Work) = work := fun hc => hj (congrArg Work.inst hc)
        simp only [hj, hne, List.mem_cons, false_and, if_false, Option.none_or, Option.or_none,
          false_or]

theorem mem_offerAll_iff (works : List Work) (hdepth : ∀ work ∈ works, work.depth = depth)
    (state : State) (w : Work) :
    w ∈ (offerAll settings state works).2 ↔
      w ∈ works ∧ state.index.get? w.inst = none ∧ exceeded? settings w = none := by
  induction works generalizing state with
  | nil => simp only [offerAll, List.not_mem_nil, false_and]
  | cons work rest ih =>
      have hrest : ∀ w ∈ rest, w.depth = depth := fun w hw => hdepth w (List.mem_cons_of_mem _ hw)
      simp only [offerAll]
      rw [List.mem_append, mem_offer_iff, ih hrest, get?_index_offer, List.mem_cons,
        Option.or_eq_none_iff]
      constructor
      · rintro (⟨rfl, hnew, hnone⟩ | ⟨hmem, ⟨hnew, _⟩, hnone⟩)
        · exact ⟨Or.inl rfl, hnew, hnone⟩
        · exact ⟨Or.inr hmem, hnew, hnone⟩
      · rintro ⟨rfl | hmem, hnew, hnone⟩
        · exact Or.inl ⟨rfl, hnew, hnone⟩
        · -- At one number of hops, the same instantiation is the same candidate.
          by_cases hinst : w.inst = work.inst
          · have heq : w = work := by
              cases w
              cases work
              simp only [Work.mk.injEq] at hinst ⊢
              exact ⟨hinst, (hrest _ hmem).trans (hdepth _ List.mem_cons_self).symm⟩
            rw [heq] at hnew hnone ⊢
            exact Or.inl ⟨rfl, hnew, hnone⟩
          · exact Or.inr ⟨hmem, ⟨hnew, by simp only [hinst, false_and, if_false]⟩, hnone⟩

end Batch

/-- Everything met in fewer than `n` hops is decided, and nothing else: it is
    known if no limit was exceeded when it was first met, and given up with that
    limit otherwise. -/
structure DecidedBelow (g : Graph) (settings : Settings) (n : Nat) (state : State) : Prop where
  index : ∀ i d, state.index.get? i = some d ↔
    d < n ∧ g.FirstMet settings.maxTypeNesting d i ∧ exceeded? settings ⟨i, d⟩ = none
  abandoned : ∀ j limit, state.abandoned.get? j = some limit ↔
    ∃ d < n, g.FirstMet settings.maxTypeNesting d j ∧ exceeded? settings ⟨j, d⟩ = some limit

/-- The frontier at `n` hops: what is first met there and exceeds no limit. -/
def IsFrontier (g : Graph) (settings : Settings) (n : Nat) (frontier : List Work) : Prop :=
  ∀ work, work ∈ frontier ↔ work.depth = n ∧
    g.FirstMet settings.maxTypeNesting n work.inst ∧ exceeded? settings work = none

/-- Past the limit on hops there is no frontier. -/
theorem IsFrontier.eq_nil {g : Graph} {settings : Settings} {n : Nat} {frontier : List Work}
    (h : IsFrontier g settings n frontier) (hn : settings.maxDepth < n) : frontier = [] := by
  rw [List.eq_nil_iff_forall_not_mem]
  intro work hwork
  rcases (h work).mp hwork with ⟨hdepth, _, hnone⟩
  have hle := ((exceeded?_eq_none_iff settings work).mp hnone).1
  omega

theorem undecided_of_firstMet (g : Graph) (settings : Settings) (n : Nat) (state : State)
    (h : DecidedBelow g settings n state) (i : Instantiation)
    (hfirst : g.FirstMet settings.maxTypeNesting n i) :
    state.index.get? i = none ∧ state.abandoned.get? i = none := by
  constructor
  · rw [Option.eq_none_iff_forall_ne_some]
    intro d hd
    rcases (h.index i d).mp hd with ⟨hlt, hfirst', _⟩
    exact absurd (IsLeast.unique hfirst' hfirst) (Nat.ne_of_lt hlt)
  · rw [Option.eq_none_iff_forall_ne_some]
    intro limit hlimit
    rcases (h.abandoned i limit).mp hlimit with ⟨d, hlt, hfirst', _⟩
    exact absurd (IsLeast.unique hfirst' hfirst) (Nat.ne_of_lt hlt)

/-- What is met and not decided is first met now. Where it could still be taken
    it is enough that it is not known, for an earlier refusal would be a reason
    to refuse it now. -/
theorem firstMet_of_undecided (g : Graph) (settings : Settings) (n : Nat) (state : State)
    (h : DecidedBelow g settings n state) (i : Instantiation)
    (hmeets : g.Meets settings.maxTypeNesting n i) (hindex : state.index.get? i = none)
    (hopen : state.abandoned.get? i = none ∨ exceeded? settings ⟨i, n⟩ = none) :
    g.FirstMet settings.maxTypeNesting n i := by
  rcases g.exists_firstMet_le settings.maxTypeNesting n i hmeets with ⟨m, hle, hfirst⟩
  rcases Nat.lt_or_eq_of_le hle with hlt | rfl
  · -- Met earlier, it would have been decided then, one way or the other.
    exfalso
    cases hlimit : exceeded? settings ⟨i, m⟩ with
    | none =>
        rw [(h.index i m).mpr ⟨hlt, hfirst, hlimit⟩] at hindex
        exact absurd hindex (by simp only [reduceCtorEq, not_false_eq_true])
    | some limit =>
        rcases hopen with hgiven | hnone
        · rw [(h.abandoned i limit).mpr ⟨m, hlt, hfirst, hlimit⟩] at hgiven
          exact absurd hgiven (by simp only [reduceCtorEq, not_false_eq_true])
        · rw [exceeded?_eq_none_of_le settings i m n hle hnone] at hlimit
          exact absurd hlimit (by simp only [reduceCtorEq, not_false_eq_true])
  · exact hfirst

section Level

-- A batch at `n` hops that holds everything first met there, and nothing that is
-- not met there, offered once everything met earlier is decided.
variable (g : Graph) (settings : Settings) (n : Nat) (state : State)
  (h : DecidedBelow g settings n state) (works : List Work)
  (hdepth : ∀ work ∈ works, work.depth = n)
  (hmeets : ∀ i, ⟨i, n⟩ ∈ works → g.Meets settings.maxTypeNesting n i)
  (hall : ∀ i, g.FirstMet settings.maxTypeNesting n i → ⟨i, n⟩ ∈ works)

include h hdepth hmeets hall

theorem get?_index_level_iff (i : Instantiation) (d : Nat) :
    (offerAll settings state works).1.index.get? i = some d ↔
      d < n + 1 ∧ g.FirstMet settings.maxTypeNesting d i ∧ exceeded? settings ⟨i, d⟩ = none := by
  rw [get?_index_offerAll settings n works hdepth, Option.or_eq_some_iff, h.index]
  constructor
  · rintro (⟨hlt, hfirst, hnone⟩ | ⟨hnew, hd⟩)
    · exact ⟨by omega, hfirst, hnone⟩
    · -- Taken only now, and an earlier refusal would be one now.
      rw [Option.ite_none_right_eq_some, Option.some.injEq] at hd
      rcases hd with ⟨⟨hmem, hnone⟩, rfl⟩
      exact ⟨by omega, firstMet_of_undecided g settings n state h i (hmeets i hmem) hnew
        (Or.inr hnone), hnone⟩
  · rintro ⟨hlt, hfirst, hnone⟩
    rcases Nat.lt_or_eq_of_le (Nat.le_of_lt_succ hlt) with hlt' | rfl
    · exact Or.inl ⟨hlt', hfirst, hnone⟩
    · refine Or.inr ⟨(undecided_of_firstMet g settings d state h i hfirst).1, ?_⟩
      rw [if_pos ⟨hall i hfirst, hnone⟩]

theorem get?_abandoned_level_iff (j : Instantiation) (limit : Limit) :
    (offerAll settings state works).1.abandoned.get? j = some limit ↔
      ∃ d < n + 1, g.FirstMet settings.maxTypeNesting d j ∧
        exceeded? settings ⟨j, d⟩ = some limit := by
  rw [get?_abandoned_offerAll settings n works hdepth, Option.or_eq_some_iff, h.abandoned]
  constructor
  · rintro (⟨d, hlt, hfirst, hlimit⟩ | ⟨hopen, hd⟩)
    · exact ⟨d, by omega, hfirst, hlimit⟩
    · -- Given up only now, so it had not been given up before.
      rw [Option.ite_none_right_eq_some] at hd
      rcases hd with ⟨⟨hmem, hnew⟩, hlimit⟩
      exact ⟨n, by omega, firstMet_of_undecided g settings n state h j (hmeets j hmem) hnew
        (Or.inl hopen), hlimit⟩
  · rintro ⟨d, hlt, hfirst, hlimit⟩
    rcases Nat.lt_or_eq_of_le (Nat.le_of_lt_succ hlt) with hlt' | rfl
    · exact Or.inl ⟨d, hlt', hfirst, hlimit⟩
    · rcases undecided_of_firstMet g settings d state h j hfirst with ⟨hnew, hopen⟩
      refine Or.inr ⟨hopen, ?_⟩
      rw [if_pos ⟨hall j hfirst, hnew⟩, hlimit]

theorem offerAll_isFrontier : IsFrontier g settings n (offerAll settings state works).2 := by
  intro work
  rw [mem_offerAll_iff settings n works hdepth]
  constructor
  · rintro ⟨hmem, hnew, hnone⟩
    have hwork : work.depth = n := hdepth work hmem
    subst hwork
    exact ⟨rfl, firstMet_of_undecided g settings _ state h work.inst (hmeets _ hmem) hnew
      (Or.inr hnone), hnone⟩
  · rintro ⟨hwork, hfirst, hnone⟩
    subst hwork
    exact ⟨hall _ hfirst, (undecided_of_firstMet g settings _ state h _ hfirst).1, hnone⟩

/-- Offering the batch decides what is met at `n` hops and leaves the frontier
    there. -/
theorem offerAll_decidedBelow :
    DecidedBelow g settings (n + 1) (offerAll settings state works).1 ∧
      IsFrontier g settings n (offerAll settings state works).2 :=
  ⟨⟨get?_index_level_iff g settings n state h works hdepth hmeets hall,
    get?_abandoned_level_iff g settings n state h works hdepth hmeets hall⟩,
    offerAll_isFrontier g settings n state h works hdepth hmeets hall⟩

end Level

theorem start_decidedBelow (g : Graph) (settings : Settings) :
    DecidedBelow g settings 1 (start g settings).1 ∧
      IsFrontier g settings 0 (start g settings).2 := by
  have hempty : DecidedBelow g settings 0 {} := by
    refine ⟨fun i d => ?_, fun j limit => ?_⟩
    · simp
    · simp
  have hmem : ∀ i, (⟨i, 0⟩ : Work) ∈ g.seeds.map (fun inst => (⟨inst, 0⟩ : Work)) ↔ g.IsSeed i := by
    intro i
    rw [← g.mem_seeds_iff, List.mem_map]
    simp only [Work.mk.injEq, and_true, exists_eq_right]
  refine offerAll_decidedBelow g settings 0 {} hempty _ (fun work hwork => ?_)
    (fun i hi => (hmem i).mp hi) (fun i hi => (hmem i).mpr hi.1)
  rcases List.mem_map.mp hwork with ⟨_, _, rfl⟩
  rfl

theorem mem_candidates_iff (g : Graph) (work : Work) (j : Instantiation) (n : Nat) :
    ⟨j, n⟩ ∈ candidates g work ↔ n = work.depth + 1 ∧ g.Leads work.inst j := by
  unfold candidates
  rw [List.mem_map, ← g.mem_successors_iff]
  constructor
  · rintro ⟨i, hi, heq⟩
    simp only [Work.mk.injEq] at heq
    rw [← heq.1, ← heq.2]
    exact ⟨rfl, hi⟩
  · rintro ⟨rfl, hj⟩
    exact ⟨j, hj, rfl⟩

/-- Expanding the frontier at `n` hops brings up what is met one hop later, so a
    level takes one frontier to the next. -/
theorem level_decidedBelow (g : Graph) (settings : Settings) (n : Nat) (state : State)
    (frontier : List Work) (hn : n ≤ settings.maxDepth)
    (h : DecidedBelow g settings (n + 1) state) (hfrontier : IsFrontier g settings n frontier) :
    DecidedBelow g settings (n + 2) (level g settings state frontier).1 ∧
      IsFrontier g settings (n + 1) (level g settings state frontier).2 := by
  refine offerAll_decidedBelow g settings (n + 1)
    { state with expanded := state.expanded ++ frontier } ⟨h.index, h.abandoned⟩ _
    (fun work hwork => ?_) (fun j hj => ?_) (fun j hj => ?_)
  · rcases List.mem_flatMap.mp hwork with ⟨parent, hparent, hmem⟩
    rw [((mem_candidates_iff g parent work.inst work.depth).mp hmem).1,
      ((hfrontier parent).mp hparent).1]
  · -- What is expanded was within the limits, so a walk ends there.
    rcases List.mem_flatMap.mp hj with ⟨parent, hparent, hmem⟩
    rcases (hfrontier parent).mp hparent with ⟨_, hfirst, hnone⟩
    have hnest := ((exceeded?_eq_none_iff settings parent).mp hnone).2
    exact ⟨parent.inst, (g.walk_iff _ n parent.inst).mpr ⟨hfirst.1, hnest⟩,
      ((mem_candidates_iff g parent j (n + 1)).mp hmem).2⟩
  · -- What is first met next has a predecessor that was first met just now.
    rcases g.firstMet_succ _ n j hj with ⟨i, hfirst, hnest, hleads⟩
    have hparent : (⟨i, n⟩ : Work) ∈ frontier :=
      (hfrontier ⟨i, n⟩).mpr ⟨rfl, hfirst, (exceeded?_eq_none_iff settings ⟨i, n⟩).mpr ⟨hn, hnest⟩⟩
    exact List.mem_flatMap.mpr
      ⟨⟨i, n⟩, hparent, (mem_candidates_iff g ⟨i, n⟩ j (n + 1)).mpr ⟨rfl, hleads⟩⟩

/-- An empty frontier has an empty level, so stopping there is the same as going
    on. -/
theorem drain_nil (g : Graph) (settings : Settings) (levels : Nat) (state : State) :
    drain g settings levels state [] = state := by
  cases levels with
  | zero => rfl
  | succ levels => rfl

theorem drain_succ (g : Graph) (settings : Settings) (levels : Nat) (state : State)
    (frontier : List Work) :
    drain g settings (levels + 1) state frontier =
      drain g settings levels (level g settings state frontier).1
        (level g settings state frontier).2 := by
  cases frontier with
  | nil =>
      have hlevel : level g settings state [] = (state, []) := by
        simp only [level, List.append_nil, List.flatMap_nil, offerAll]
      rw [hlevel, drain_nil, drain_nil]
  | cons work rest => rfl

theorem drain_decidedBelow (g : Graph) (settings : Settings) (levels n : Nat) (state : State)
    (frontier : List Work) (hn : n + levels = settings.maxDepth + 1)
    (h : DecidedBelow g settings (n + 1) state) (hfrontier : IsFrontier g settings n frontier) :
    DecidedBelow g settings (settings.maxDepth + 2) (drain g settings levels state frontier) := by
  -- The levels done and the levels left always add up to one more than the limit.
  induction levels generalizing n state frontier with
  | zero =>
      have hend : n + 1 = settings.maxDepth + 2 := by omega
      rw [← hend]
      exact h
  | succ levels ih =>
      rcases level_decidedBelow g settings n state frontier (by omega) h hfrontier with
        ⟨hlevel, hnext⟩
      rw [drain_succ]
      exact ih (n + 1) _ _ (by omega) hlevel hnext

/-- The limit on levels is never what ends the search: after as many levels as
    the limit on hops allows, the frontier is empty. -/
theorem drain_add (g : Graph) (settings : Settings) (levels more n : Nat) (state : State)
    (frontier : List Work) (hn : n + levels = settings.maxDepth + 1)
    (h : DecidedBelow g settings (n + 1) state) (hfrontier : IsFrontier g settings n frontier) :
    drain g settings (levels + more) state frontier = drain g settings levels state frontier := by
  -- When the levels are used up, the frontier is past the limit on hops.
  induction levels generalizing n state frontier with
  | zero => rw [hfrontier.eq_nil (by omega), drain_nil, drain_nil]
  | succ levels ih =>
      rcases level_decidedBelow g settings n state frontier (by omega) h hfrontier with
        ⟨hlevel, hnext⟩
      rw [Nat.add_right_comm, drain_succ, drain_succ]
      exact ih (n + 1) _ _ (by omega) hlevel hnext

theorem mem_snapshot_iff (state : State) (work : Work) :
    work ∈ state.snapshot ↔ state.index.get? work.inst = some work.depth := by
  rw [FirstMap.get?_eq_some_iff, State.snapshot, List.mem_map]
  constructor
  · rintro ⟨entry, hentry, rfl⟩
    exact hentry
  · intro hentry
    exact ⟨_, hentry, rfl⟩

/-- A candidate that will change nothing: it is known, or it exceeds a limit and
    has been given up before. -/
def IsOld (settings : Settings) (state : State) (work : Work) : Prop :=
  state.index.contains work.inst = true ∨
    (state.abandoned.contains work.inst = true ∧ exceeded? settings work ≠ none)

theorem offerAll_of_isOld (settings : Settings) (state : State) (works : List Work)
    (h : ∀ work ∈ works, IsOld settings state work) :
    offerAll settings state works = (state, []) := by
  induction works with
  | nil => rfl
  | cons work rest ih =>
      have hoffer : offer settings state work = (state, []) := by
        unfold offer
        rcases h work List.mem_cons_self with hknown | ⟨hgiven, hlimit⟩
        · rw [if_pos hknown]
        · by_cases hknown : state.index.contains work.inst = true
          · rw [if_pos hknown]
          · rw [if_neg hknown]
            cases hex : exceeded? settings work with
            | none => exact absurd hex hlimit
            | some limit => simp [hgiven]
      simp only [offerAll, hoffer, ih (fun w hw => h w (List.mem_cons_of_mem _ hw)),
        List.append_nil]

/-- Expanding everything known brings up nothing new. -/
def Stable (g : Graph) (settings : Settings) (state : State) : Prop :=
  ∀ work ∈ state.snapshot.flatMap (candidates g), IsOld settings state work

/-- What is known leads only to what was met at most one hop after the limit,
    and all of that is decided. If it was given up, it would be given up again,
    wherever it is met from. -/
theorem stable_of_decidedBelow (g : Graph) (settings : Settings) (state : State)
    (h : DecidedBelow g settings (settings.maxDepth + 2) state) : Stable g settings state := by
  intro work hwork
  rcases List.mem_flatMap.mp hwork with ⟨parent, hparent, hmem⟩
  rcases (mem_candidates_iff g parent work.inst work.depth).mp hmem with ⟨hdepth, hleads⟩
  rcases (h.index _ _).mp ((mem_snapshot_iff state parent).mp hparent) with ⟨_, hfirst, hnone⟩
  rcases (exceeded?_eq_none_iff settings parent).mp hnone with ⟨hle, hnest⟩
  have hmeets : g.Meets settings.maxTypeNesting work.depth work.inst := by
    rw [hdepth]
    exact ⟨parent.inst, (g.walk_iff _ _ _).mpr ⟨hfirst.1, hnest⟩, hleads⟩
  rcases g.exists_firstMet_le _ _ _ hmeets with ⟨m, hm, hfirst'⟩
  -- How it was decided when first met settles what becomes of it now.
  cases hlimit : exceeded? settings ⟨work.inst, m⟩ with
  | none =>
      left
      exact FirstMap.contains_of_get? _ _ m ((h.index work.inst m).mpr ⟨by omega, hfirst', hlimit⟩)
  | some limit =>
      right
      refine ⟨FirstMap.contains_of_get? _ _ limit
        ((h.abandoned work.inst limit).mpr ⟨m, by omega, hfirst', hlimit⟩), fun hc => ?_⟩
      rw [exceeded?_eq_none_of_le settings work.inst m work.depth hm hc] at hlimit
      exact absurd hlimit (by simp only [reduceCtorEq, not_false_eq_true])

/-- Where everything is decided, each candidate of what is known is old. -/
theorem isOld_of_subset_snapshot {g : Graph} {settings : Settings} {state : State}
    {frontier : List Work} (hstable : Stable g settings state)
    (hsubset : ∀ work ∈ frontier, work ∈ state.snapshot) :
    ∀ work ∈ frontier.flatMap (candidates g), IsOld settings state work := by
  intro work hwork
  rcases List.mem_flatMap.mp hwork with ⟨parent, hparent, hmem⟩
  exact hstable work (List.mem_flatMap.mpr ⟨parent, hsubset parent hparent, hmem⟩)

/-- A pass over what is known only counts it again, in whatever order that is
    expanded, and it needs no more than one level for it. -/
theorem drain_succ_of_stable (g : Graph) (settings : Settings) (levels : Nat) (state : State)
    (frontier : List Work) (h : Stable g settings state)
    (hsubset : ∀ work ∈ frontier, work ∈ state.snapshot) :
    drain g settings (levels + 1) state frontier =
      { state with expanded := state.expanded ++ frontier } := by
  have hlevel : level g settings state frontier =
      ({ state with expanded := state.expanded ++ frontier }, []) :=
    offerAll_of_isOld settings _ _ (isOld_of_subset_snapshot h hsubset)
  rw [drain_succ, hlevel, drain_nil]

theorem drain_of_stable (g : Graph) (settings : Settings) (state : State) (frontier : List Work)
    (h : Stable g settings state) (hsubset : ∀ work ∈ frontier, work ∈ state.snapshot) :
    drain g settings (levels settings) state frontier =
      { state with expanded := state.expanded ++ frontier } :=
  drain_succ_of_stable g settings settings.maxDepth state frontier h hsubset

/-- A pass is the last one, or the rest of the passes start from what it left
    known. Either way it records what it expanded. -/
theorem passes_cases (g : Graph) (settings : Settings) (remaining number : Nat)
    (state : State) (frontier : List Work) :
    ∃ pass : Pass, pass.expanded =
        (drain g settings (levels settings) state frontier).expanded.drop state.expanded.length ∧
      ((∃ converged, passes g settings remaining number state frontier =
          ⟨drain g settings (levels settings) state frontier, [pass], converged⟩) ∨
        ∃ fewer run, remaining = fewer + 1 ∧
          run = passes g settings fewer (number + 1)
            (drain g settings (levels settings) state frontier)
            (drain g settings (levels settings) state frontier).snapshot ∧
          passes g settings remaining number state frontier =
            ⟨run.state, pass :: run.passes, run.converged⟩) := by
  -- Either the pass confirms what was known, or passes are used up, or there is another one.
  by_cases hconfirmed : 1 < number ∧
      (drain g settings (levels settings) state frontier).index.size - state.index.size = 0
  · unfold passes
    simp only [hconfirmed, and_self, if_true]
    exact ⟨_, rfl, Or.inl ⟨_, rfl⟩⟩
  · cases remaining with
    | zero =>
        unfold passes
        simp only [hconfirmed, if_false]
        exact ⟨_, rfl, Or.inl ⟨_, rfl⟩⟩
    | succ fewer =>
        rw [passes]
        simp only [hconfirmed, if_false]
        exact ⟨_, rfl, Or.inr ⟨fewer, _, rfl, rfl, rfl⟩⟩

theorem passes_state_cases (g : Graph) (settings : Settings) (remaining number : Nat)
    (state : State) (frontier : List Work) :
    (passes g settings remaining number state frontier).state =
        drain g settings (levels settings) state frontier ∨
      ∃ fewer, remaining = fewer + 1 ∧
        (passes g settings remaining number state frontier).state =
          (passes g settings fewer (number + 1)
            (drain g settings (levels settings) state frontier)
            (drain g settings (levels settings) state frontier).snapshot).state := by
  rcases passes_cases g settings remaining number state frontier with
    ⟨_, _, ⟨_, hlast⟩ | ⟨fewer, _, hfewer, rfl, hmore⟩⟩
  · exact Or.inl (by rw [hlast])
  · exact Or.inr ⟨fewer, hfewer, by rw [hmore]⟩

/-- Whatever the first drain decided stays as it is in all passes, provided that
    it is stable. -/
theorem passes_state (g : Graph) (settings : Settings) (remaining number : Nat) (state : State)
    (frontier : List Work)
    (h : Stable g settings (drain g settings (levels settings) state frontier)) :
    (passes g settings remaining number state frontier).state.index =
        (drain g settings (levels settings) state frontier).index ∧
      (passes g settings remaining number state frontier).state.abandoned =
        (drain g settings (levels settings) state frontier).abandoned := by
  induction remaining generalizing number state frontier with
  | zero =>
      rcases passes_state_cases g settings 0 number state frontier with hlast | ⟨_, hzero, _⟩
      · rw [hlast]
        exact ⟨rfl, rfl⟩
      · omega
  | succ remaining ih =>
      rcases passes_state_cases g settings (remaining + 1) number state frontier with
        hlast | ⟨fewer, hfewer, hmore⟩
      · rw [hlast]
        exact ⟨rfl, rfl⟩
      · have heq : fewer = remaining := by omega
        subst heq
        -- The next pass starts from the snapshot, and draining that adds nothing.
        have hagain := drain_of_stable g settings _ _ h fun _ hwork => hwork
        have hnext := ih (number + 1) (drain g settings (levels settings) state frontier)
          (drain g settings (levels settings) state frontier).snapshot (by rw [hagain]; exact h)
        rw [hmore, hnext.1, hnext.2, hagain]
        exact ⟨rfl, rfl⟩

end Closure

namespace Graph

theorem resolve_decidedBelow (g : Graph) (settings : Settings) :
    ∃ state, Closure.DecidedBelow g settings (settings.maxDepth + 2) state ∧
      (g.resolve settings).reached = state.index ∧
      (g.resolve settings).abandoned = state.abandoned := by
  rcases Closure.start_decidedBelow g settings with ⟨hstart, hfrontier⟩
  have hdecided := Closure.drain_decidedBelow g settings (Closure.levels settings) 0 _ _
    (Nat.zero_add _) hstart hfrontier
  exact ⟨_, hdecided, Closure.passes_state g settings _ _ _ _
    (Closure.stable_of_decidedBelow g settings _ hdecided)⟩

/-- An instantiation is reached, at the depth recorded for it, exactly when it is
    first met there and exceeds no limit. -/
theorem get?_reached_iff (g : Graph) (settings : Settings) (i : Instantiation) (d : Nat) :
    (g.resolve settings).reached.get? i = some d ↔
      g.FirstMet settings.maxTypeNesting d i ∧ Closure.exceeded? settings ⟨i, d⟩ = none := by
  rcases g.resolve_decidedBelow settings with ⟨state, h, hreached, _⟩
  rw [hreached, h.index]
  constructor
  · rintro ⟨_, hfirst, hnone⟩
    exact ⟨hfirst, hnone⟩
  · rintro ⟨hfirst, hnone⟩
    have hle := ((Closure.exceeded?_eq_none_iff settings ⟨i, d⟩).mp hnone).1
    exact ⟨by simp only at hle; omega, hfirst, hnone⟩

theorem get?_abandoned_iff (g : Graph) (settings : Settings) (j : Instantiation) (limit : Limit) :
    (g.resolve settings).abandoned.get? j = some limit ↔
      ∃ d ≤ settings.maxDepth + 1, g.FirstMet settings.maxTypeNesting d j ∧
        Closure.exceeded? settings ⟨j, d⟩ = some limit := by
  rcases g.resolve_decidedBelow settings with ⟨state, h, _, habandoned⟩
  rw [habandoned, h.abandoned]
  simp only [Nat.lt_succ_iff]

end Graph

end Monomorph

import Monomorph.Proofs.Edges
import Monomorph.Proofs.Search

/-!
# What a Resolution Reaches and What It Gives Up

The answers of the search, in the words of walks alone.

A resolution reaches exactly what a walk within both limits ends at, and records
the length of a shortest one. The limit on hops is thereby a limit on walks and
not on the order in which the search happened to go.

What it gives up is exactly the rim: what something reached leads to and is not
reached itself. A seed is never given up, because a site that writes an argument
nested too deeply gives no edge at all. Two limits can be at fault, and which one
is reported depends on what leads there. If something reached with a hop to spare
does, the hops would have sufficed and the nesting is at fault; otherwise the hops
ran out first. Where nothing is given up there is no rim, so the limits have
played no part and the closure is the one without any.

## Main definitions

* `Graph.SeedsWithin`: No seed is nested too deeply.
* `Graph.LedToInTime`: Something reached leads there with a hop to spare.
* `Graph.Reachable`: Reached by a walk of any length and nesting.

## Theorems

* `Graph.get?_reached_iff_isLeast`: The recorded hops are those of a shortest walk.
* `Graph.mem_reached_iff`: What is reached is where walks end.
* `Graph.meets_of_leads`, `Graph.mem_reached_or_abandoned`: Every hop from what is reached
  is accounted for.
* `Graph.not_mem_reached_of_mem_abandoned`: Nothing is both.
* `Graph.exists_leads_of_abandoned`, `Graph.mem_abandoned_iff`: What is given up is what
  lies just outside.
* `Graph.limit_of_abandoned`: Which limit is at fault.
* `Graph.Walk.reachable`, `Graph.mem_reached_of_isSeed`, `Graph.mem_reached_of_leads`,
  `Graph.mem_reached_iff_reachable`: Where nothing is given up, all is reached.
* `successes_map`, `failures_map`: Outcomes that were changed.
* `Table.forall_register`, `Program.forall_scan`: What everything that a scan reports has
  in common.
* `Program.code_scan_ne`, `Graph.code_stalled`: What is not about limits of the search.
* `Resolution.filter_diagnostics_perm`, `Program.limitDiagnostics_perm`: What is reported
  about limits.
* `Program.reached_iff_shortest_walk`: What is reached, for a program.
* `Program.abandoned_exact`: What is given up and reported, for a program.
-/

namespace Monomorph

namespace Graph

/-- The hops recorded for an instantiation are those of a shortest walk to it
    within both limits. -/
theorem get?_reached_iff_isLeast (g : Graph) (settings : Settings) (i : Instantiation) (d : Nat) :
    (g.resolve settings).reached.get? i = some d ↔
      IsLeast {n | n ≤ settings.maxDepth ∧ g.Walk settings.maxTypeNesting n i} d := by
  rw [get?_reached_iff, Closure.exceeded?_eq_none_iff]
  constructor
  · rintro ⟨⟨hmeets, hleast⟩, hdepth, hnest⟩
    refine ⟨⟨hdepth, (walk_iff g _ d i).mpr ⟨hmeets, hnest⟩⟩, ?_⟩
    rintro n ⟨_, hwalk⟩
    exact hleast ((walk_iff g _ n i).mp hwalk).1
  · rintro ⟨⟨hdepth, hwalk⟩, hleast⟩
    rcases (walk_iff g _ d i).mp hwalk with ⟨hmeets, hnest⟩
    refine ⟨⟨hmeets, fun n hn => ?_⟩, hdepth, hnest⟩
    -- A meeting beyond the limit on hops comes later anyway.
    by_cases hle : n ≤ settings.maxDepth
    · exact hleast ⟨hle, (walk_iff g _ n i).mpr ⟨hn, hnest⟩⟩
    · exact Nat.le_trans hdepth (Nat.le_of_not_le hle)

theorem mem_reached_iff (g : Graph) (settings : Settings) (i : Instantiation) :
    i ∈ (g.resolve settings).reached.keys ↔
      ∃ n ≤ settings.maxDepth, g.Walk settings.maxTypeNesting n i := by
  rw [FirstMap.mem_keys_iff]
  constructor
  · rintro ⟨d, hd⟩
    rcases (get?_reached_iff_isLeast g settings i d).mp hd with ⟨⟨hdepth, hwalk⟩, _⟩
    exact ⟨d, hdepth, hwalk⟩
  · rintro ⟨n, hdepth, hwalk⟩
    rcases (walk_iff g _ n i).mp hwalk with ⟨hmeets, hnest⟩
    rcases exists_firstMet_le g _ n i hmeets with ⟨m, hle, hfirst⟩
    exact ⟨m, (get?_reached_iff g settings i m).mpr ⟨hfirst,
      (Closure.exceeded?_eq_none_iff settings ⟨i, m⟩).mpr ⟨Nat.le_trans hle hdepth, hnest⟩⟩⟩

/-- What a reached instantiation leads to is met one hop later. -/
theorem meets_of_leads (g : Graph) (settings : Settings) (i j : Instantiation) (d : Nat)
    (hreached : (g.resolve settings).reached.get? i = some d) (hleads : g.Leads i j) :
    d ≤ settings.maxDepth ∧ g.Meets settings.maxTypeNesting (d + 1) j := by
  rcases (get?_reached_iff_isLeast g settings i d).mp hreached with ⟨⟨hdepth, hwalk⟩, _⟩
  exact ⟨hdepth, i, hwalk, hleads⟩

/-- No hop from what is reached is forgotten. -/
theorem mem_reached_or_abandoned (g : Graph) (settings : Settings) (i j : Instantiation)
    (hreached : i ∈ (g.resolve settings).reached.keys) (hleads : g.Leads i j) :
    j ∈ (g.resolve settings).reached.keys ∨ j ∈ (g.resolve settings).abandoned.keys := by
  rcases (FirstMap.mem_keys_iff _ _).mp hreached with ⟨d, hd⟩
  rcases meets_of_leads g settings i j d hd hleads with ⟨hdepth, hmeets⟩
  rcases exists_firstMet_le g _ _ j hmeets with ⟨m, hle, hfirst⟩
  -- Where it is first met, it either exceeds a limit or it does not.
  cases hexceeded : Closure.exceeded? settings ⟨j, m⟩ with
  | none =>
      exact Or.inl ((FirstMap.mem_keys_iff _ _).mpr
        ⟨m, (get?_reached_iff g settings j m).mpr ⟨hfirst, hexceeded⟩⟩)
  | some limit =>
      exact Or.inr ((FirstMap.mem_keys_iff _ _).mpr
        ⟨limit, (get?_abandoned_iff g settings j limit).mpr ⟨m, by omega, hfirst, hexceeded⟩⟩)

theorem not_mem_reached_of_mem_abandoned (g : Graph) (settings : Settings) (j : Instantiation)
    (h : j ∈ (g.resolve settings).abandoned.keys) : j ∉ (g.resolve settings).reached.keys := by
  intro hreached
  rcases (FirstMap.mem_keys_iff _ _).mp h with ⟨limit, hlimit⟩
  rcases (FirstMap.mem_keys_iff _ _).mp hreached with ⟨d, hd⟩
  rcases (get?_abandoned_iff g settings j limit).mp hlimit with ⟨m, _, hfirst, hsome⟩
  rcases (get?_reached_iff g settings j d).mp hd with ⟨hfirst', hnone⟩
  -- Both were decided at the one number of hops at which it is first met.
  rw [hfirst.unique hfirst', hnone] at hsome
  exact absurd hsome (by simp only [reduceCtorEq, not_false_eq_true])

/-- A graph whose seeds are never nested too deeply. -/
def SeedsWithin (g : Graph) (limit : Nat) : Prop :=
  ∀ i, g.IsSeed i → i.nesting ≤ limit

/-- What is given up was first met one hop after something reached. It cannot be
    a seed, which is within both limits. -/
theorem exists_leads_of_abandoned (g : Graph) (settings : Settings)
    (hseeds : g.SeedsWithin settings.maxTypeNesting) (j : Instantiation) (limit : Limit)
    (h : (g.resolve settings).abandoned.get? j = some limit) :
    ∃ i d, (g.resolve settings).reached.get? i = some d ∧ g.Leads i j ∧
      g.FirstMet settings.maxTypeNesting (d + 1) j ∧
      Closure.exceeded? settings ⟨j, d + 1⟩ = some limit := by
  rcases (get?_abandoned_iff g settings j limit).mp h with ⟨m, hm, hfirst, hsome⟩
  cases m with
  | zero =>
      -- A seed is at no hops and not nested too deeply.
      have hnone : Closure.exceeded? settings ⟨j, 0⟩ = none :=
        (Closure.exceeded?_eq_none_iff settings ⟨j, 0⟩).mpr
          ⟨Nat.zero_le _, hseeds j ((firstMet_zero_iff g _ j).mp hfirst)⟩
      rw [hnone] at hsome
      exact absurd hsome (by simp only [reduceCtorEq, not_false_eq_true])
  | succ d =>
      -- Its predecessor is one hop nearer, so it is within the limit on hops.
      rcases firstMet_succ g _ d j hfirst with ⟨i, hfirsti, hnest, hleads⟩
      have hnone : Closure.exceeded? settings ⟨i, d⟩ = none :=
        (Closure.exceeded?_eq_none_iff settings ⟨i, d⟩).mpr ⟨by simp only; omega, hnest⟩
      exact ⟨i, d, (get?_reached_iff g settings i d).mpr ⟨hfirsti, hnone⟩, hleads, hfirst, hsome⟩

theorem mem_abandoned_iff (g : Graph) (settings : Settings)
    (hseeds : g.SeedsWithin settings.maxTypeNesting) (j : Instantiation) :
    j ∈ (g.resolve settings).abandoned.keys ↔
      j ∉ (g.resolve settings).reached.keys ∧
        ∃ i ∈ (g.resolve settings).reached.keys, g.Leads i j := by
  constructor
  · intro h
    refine ⟨not_mem_reached_of_mem_abandoned g settings j h, ?_⟩
    rcases (FirstMap.mem_keys_iff _ _).mp h with ⟨limit, hlimit⟩
    rcases exists_leads_of_abandoned g settings hseeds j limit hlimit with ⟨i, d, hd, hleads, _⟩
    exact ⟨i, (FirstMap.mem_keys_iff _ _).mpr ⟨d, hd⟩, hleads⟩
  · rintro ⟨hnot, i, hi, hleads⟩
    exact (mem_reached_or_abandoned g settings i j hi hleads).resolve_left hnot

/-- Something reached leads there that was itself reached with a hop to spare. -/
def LedToInTime (g : Graph) (settings : Settings) (j : Instantiation) : Prop :=
  ∃ i d, (g.resolve settings).reached.get? i = some d ∧ d < settings.maxDepth ∧ g.Leads i j

/-- The nesting is at fault exactly where the hops would have sufficed. -/
theorem limit_of_abandoned (g : Graph) (settings : Settings)
    (hseeds : g.SeedsWithin settings.maxTypeNesting) (j : Instantiation) (limit : Limit)
    (h : (g.resolve settings).abandoned.get? j = some limit) :
    (g.LedToInTime settings j ∧ limit = .nesting settings.maxTypeNesting) ∨
      (¬ g.LedToInTime settings j ∧ limit = .hops settings.maxDepth) := by
  rcases exists_leads_of_abandoned g settings hseeds j limit h with
    ⟨i, d, hd, hleads, hfirst, hsome⟩
  rcases (Closure.exceeded?_eq_some_iff settings ⟨j, d + 1⟩ limit).mp hsome with
    ⟨hfar, hlimit⟩ | ⟨hnear, _, hlimit⟩
  · refine Or.inr ⟨?_, hlimit⟩
    -- A predecessor with a hop to spare would have met it within the limit.
    rintro ⟨i', d', hd', hspare, hleads'⟩
    have hle : d + 1 ≤ d' + 1 := hfirst.2 (meets_of_leads g settings i' j d' hd' hleads').2
    simp only at hfar
    omega
  · exact Or.inl ⟨⟨i, d, hd, hnear, hleads⟩, hlimit⟩

/-- What the seeds lead to along any number of hops, however deeply nested. -/
inductive Reachable (g : Graph) : Instantiation → Prop
  | seed (i : Instantiation) (hseed : g.IsSeed i) : Reachable g i
  | hop (i j : Instantiation) (hreachable : Reachable g i) (hleads : g.Leads i j) : Reachable g j

theorem Walk.reachable (g : Graph) (limit n : Nat) (i : Instantiation) (h : g.Walk limit n i) :
    g.Reachable i := by
  induction h with
  | seed i hseed _ => exact Reachable.seed i hseed
  | hop n i j _ hleads _ ih => exact Reachable.hop i j ih hleads

theorem mem_reached_of_isSeed (g : Graph) (settings : Settings)
    (hseeds : g.SeedsWithin settings.maxTypeNesting) (i : Instantiation) (h : g.IsSeed i) :
    i ∈ (g.resolve settings).reached.keys :=
  (mem_reached_iff g settings i).mpr ⟨0, Nat.zero_le _, Walk.seed i h (hseeds i h)⟩

/-- Without a rim, what is reached is closed under hops. -/
theorem mem_reached_of_leads (g : Graph) (settings : Settings)
    (hnone : (g.resolve settings).stats.abandoned = 0) (i j : Instantiation)
    (hi : i ∈ (g.resolve settings).reached.keys) (hleads : g.Leads i j) :
    j ∈ (g.resolve settings).reached.keys := by
  have hempty : (g.resolve settings).abandoned.entries = [] :=
    List.eq_nil_of_length_eq_zero hnone
  rcases mem_reached_or_abandoned g settings i j hi hleads with hj | hj
  · exact hj
  · rw [FirstMap.keys, hempty, List.map_nil] at hj
    exact absurd hj List.not_mem_nil

theorem mem_reached_iff_reachable (g : Graph) (settings : Settings)
    (hseeds : g.SeedsWithin settings.maxTypeNesting)
    (hnone : (g.resolve settings).stats.abandoned = 0) (i : Instantiation) :
    i ∈ (g.resolve settings).reached.keys ↔ g.Reachable i := by
  constructor
  · intro h
    rcases (mem_reached_iff g settings i).mp h with ⟨n, _, hwalk⟩
    exact hwalk.reachable g settings.maxTypeNesting n i
  · intro h
    induction h with
    | seed i hseed => exact mem_reached_of_isSeed g settings hseeds i hseed
    | hop i j _ hleads ih => exact mem_reached_of_leads g settings hnone i j ih hleads

end Graph

@[simp]
theorem successes_map {ε α β : Type} (f : α → β) (outcomes : List (Except ε α)) :
    successes (outcomes.map (Except.map f)) = (successes outcomes).map f := by
  rw [successes, successes, List.filterMap_map, List.map_filterMap]
  refine List.filterMap_congr fun outcome _ => ?_
  cases outcome <;> rfl

@[simp]
theorem failures_map {ε α β : Type} (f : α → β) (outcomes : List (Except ε α)) :
    failures (outcomes.map (Except.map f)) = failures outcomes := by
  rw [failures, failures, List.filterMap_map]
  refine List.filterMap_congr fun outcome _ => ?_
  cases outcome <;> rfl

section ScanDiagnostics

-- What holds of the diagnostics for repeated declarations, for dropped links and
-- for faulty sites holds of everything that a scan reports.
variable (P : Diagnostic → Prop) (hrepeated : ∀ d, P (repeatedDiagnostic d))
  (hdropped : ∀ name fault, P (EnclosureFault.diagnostic name fault))
  (hfaulty : ∀ subject fault, P (SiteFault.diagnostic subject fault))

include hrepeated hdropped

theorem Table.forall_register (declarations : List Declaration) :
    ∀ d ∈ (register declarations).2, P d := by
  intro d h
  unfold register at h
  simp only [List.mem_append, List.mem_map, List.mem_filterMap] at h
  -- Repetitions, links that could not be made, and cuts.
  rcases h with (⟨_, _, rfl⟩ | ⟨⟨_, outcome⟩, _, hfault⟩) | ⟨_, _, rfl⟩
  · exact hrepeated _
  · cases outcome with
    | ok _ => exact absurd hfault (by simp only [reduceCtorEq, not_false_eq_true])
    | error fault =>
        simp only [Option.some.injEq] at hfault
        rw [← hfault]
        exact hdropped _ _
  · exact hdropped _ _

include hfaulty

theorem Program.forall_scan (p : Program) (maxNesting : Nat) :
    ∀ d ∈ (p.scan maxNesting).diagnostics, P d := by
  intro d h
  -- About declarations, about sites, about inheritance: in that order.
  rcases List.mem_append.mp h with h | h
  · rcases List.mem_append.mp h with h | h
    · exact Table.forall_register P hrepeated hdropped p.declarations d h
    · rcases List.mem_flatMap.mp h with ⟨body, _, hbody⟩
      rcases List.mem_map.mp ((mem_failures_iff _ _).mp hbody) with ⟨site, _, hsite⟩
      rcases (mapError_eq_error_iff _ _ _).mp hsite with ⟨fault, _, rfl⟩
      exact hfaulty body.1.name fault
  · rcases List.mem_map.mp ((mem_failures_iff _ _).mp h) with ⟨i, _, hi⟩
    rcases (mapError_eq_error_iff _ _ _).mp hi with ⟨fault, _, rfl⟩
    exact hfaulty i.derived fault

end ScanDiagnostics

/-- A scan has nothing to say about limits of the search. -/
theorem Program.code_scan_ne (p : Program) (maxNesting : Nat) (d : Diagnostic)
    (h : d ∈ (p.scan maxNesting).diagnostics) : d.code ≠ .recursionDepthExceeded := by
  refine Program.forall_scan (fun d => d.code ≠ .recursionDepthExceeded)
    (fun _ => Diagnostic.Code.noConfusion) (fun _ _ => Diagnostic.Code.noConfusion)
    (fun subject fault => ?_) p maxNesting d h
  cases fault <;> exact Diagnostic.Code.noConfusion

theorem Graph.code_stalled (g : Graph) (settings : Settings) (d : Diagnostic)
    (h : (g.resolve settings).stalled = some d) : d.code = .nonConvergence := by
  unfold Graph.resolve at h
  simp only at h
  split at h
  · rw [← Option.some.inj h]
    rfl
  · exact absurd h (by simp only [reduceCtorEq, not_false_eq_true])

/-- A resolution reports each instantiation it gave up, and at most that it was
    still growing besides. -/
theorem Resolution.filter_diagnostics_perm (g : Graph) (settings : Settings) :
    (((g.resolve settings).diagnostics g.table).filter
      fun d => d.code = .recursionDepthExceeded).Perm
        ((g.resolve settings).abandoned.entries.map (abandonedDiagnostic g.table)) := by
  refine ((List.mergeSort_perm _ _).filter _).trans ?_
  have hstalled : (g.resolve settings).stalled.toList.filter
      (fun d => decide (d.code = .recursionDepthExceeded)) = [] := by
    rw [List.filter_eq_nil_iff]
    intro d hd
    rw [g.code_stalled settings d (Option.mem_toList.mp hd)]
    exact Bool.false_ne_true
  rw [List.filter_append, hstalled, List.append_nil, List.filter_eq_self.mpr]
  intro d hd
  rcases List.mem_map.mp hd with ⟨given, _, rfl⟩
  rfl

/-- Of everything an analysis reports, what concerns limits of the search is one
    diagnostic for each instantiation that was given up. -/
theorem Program.limitDiagnostics_perm (p : Program) (settings : Settings) :
    ((p.analyze settings).diagnostics.filter fun d => d.code = .recursionDepthExceeded).Perm
      ((p.analyze settings).resolution.abandoned.entries.map
        (abandonedDiagnostic (p.analyze settings).table)) := by
  refine ((List.mergeSort_perm _ _).filter _).trans ?_
  have hscan : (p.analyze settings).scan.diagnostics.filter
      (fun d => decide (d.code = .recursionDepthExceeded)) = [] := by
    rw [List.filter_eq_nil_iff]
    intro d hd hcode
    exact p.code_scan_ne settings.maxTypeNesting d hd (of_decide_eq_true hcode)
  rw [List.filter_append, hscan, List.nil_append]
  exact Resolution.filter_diagnostics_perm (p.analyze settings).scan.graph settings

/-- What is reached is where walks within both limits end, and the hops recorded
    for it are those of a shortest one. The limit on hops is not held against the
    way the search came first, but against the best way there is. -/
theorem Program.reached_iff_shortest_walk (p : Program) (maxNesting : Nat) (settings : Settings)
    (i : Instantiation) :
    (i ∈ ((p.scan maxNesting).graph.resolve settings).reached.keys ↔
      ∃ k ≤ settings.maxDepth, (p.scan maxNesting).graph.Walk settings.maxTypeNesting k i) ∧
    ∀ d, ((p.scan maxNesting).graph.resolve settings).reached.get? i = some d ↔
      IsLeast {k | k ≤ settings.maxDepth ∧
        (p.scan maxNesting).graph.Walk settings.maxTypeNesting k i} d :=
  ⟨Graph.mem_reached_iff _ settings i, Graph.get?_reached_iff_isLeast _ settings i⟩

end Monomorph

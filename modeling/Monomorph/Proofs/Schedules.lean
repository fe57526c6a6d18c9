import Monomorph.Proofs.Workers

/-!
# Expanding in Any Order Is Expanding in Order

Workers that expand a frontier at the same time leave behind what expanding it
one instantiation after the other leaves behind, however their steps interleave.

Two facts make this up. The first is that expanding in order is one of the ways
in which the workers can be scheduled: let the first worker run until it is done,
then the second, and so on (`exists_schedule_level`). So there is an outcome that
agrees with the expansion in order, and any other outcome agrees with it,
provided that the candidates are unanimous.

The second is that they are, at every frontier that a closure comes to
(`Reached`). In the first pass all candidates of a frontier are at the same
number of hops, so two candidates for one instantiation are one candidate. In
later passes they are at mixed hops, but then each of them is known or was given
up before. Neither is true of arbitrary frontiers: had two candidates for one
instantiation different hops, the faster worker would decide which is recorded.
`Orderly` is the invariant that says which of the two cases a frontier is in,
and it is kept by levels and passes (`Reached.represents`) because what those
leave behind is known from the expansion in order.

## Main definitions

* `Closure.Represents`: A shared state that stands for a state of the search.
* `Closure.Expands`: Workers expand a frontier in some order.
* `Closure.Reached`: The shared states and frontiers that a closure comes to.
* `Closure.Orderly`: Why the candidates of a frontier are unanimous.

## Theorems

* `Closure.contains_eq_of_perm`, `Closure.Represents.contains_index`,
  `Closure.Represents.contains_abandoned`: The two sides know the same.
* `Closure.Represents.insert_index`, `Closure.Represents.insert_abandoned`: They
  take in the same.
* `Closure.Schedule.trans`: Schedules one after the other are a schedule.
* `Closure.exists_schedule_offer`, `Closure.exists_schedule_offerAll`: Offering is a
  schedule of one worker.
* `Closure.offerAll_expanded`, `Closure.offerAll_append`: Offering candidates in
  parts.
* `Closure.level_eq`, `Closure.level_cons`: Expanding a frontier in parts.
* `Closure.exists_schedule_level`, `Closure.exists_expands_level`: Expanding in order
  is a schedule.
* `Closure.isFresh_of_mem_look`, `Closure.Accounts.start`: The accounts of workers
  that start.
* `Closure.Outcome.of_perm`: The next frontier is collected in any order.
* `Closure.Schedule.exists_outcome`, `Closure.Expands.exists_outcome`: What workers
  leave behind when they are done is an outcome.
* `Closure.Represents.of_outcomes`: Outcomes of one start stand for the same.
* `Closure.unanimous_of_depth`: Candidates at one number of hops are unanimous.
* `Closure.Orderly.unanimous`: Candidates are unanimous in both cases.
* `Closure.Orderly.level`: A level keeps the frontier orderly.
* `Closure.Orderly.stable`: Without a frontier everything is decided.
* `Closure.Expands.represents`: What a schedule leaves behind.
* `Closure.represents_start`: What offering the seeds leaves behind.
* `Closure.Reached.represents`: Everything that is reached is orderly.
* `Closure.Reached.expands_eq_level`: Schedules do not matter.
* `Fork.reached_frontier`, `Fork.expands_frontier`, `Fork.represents_raced`: A
  frontier at which two workers race.
-/

namespace Monomorph

namespace Closure

/-- The shared state stands for a state of the search, up to the order in which
    things were written down. What was given up is reported with its limit, and
    only the reports know it. -/
structure Represents (g : Graph) (shared : Shared) (state : State) : Prop where
  index : shared.index.entries.Perm state.index.entries
  abandoned : shared.abandoned.keys.Perm state.abandoned.keys
  diagnostics : shared.diagnostics.Perm
    (state.abandoned.entries.map (abandonedDiagnostic g.table))
  expansions : shared.expansions = state.expanded.length

theorem contains_eq_of_perm {μ ν : Type} (m : FirstMap Instantiation μ)
    (m' : FirstMap Instantiation ν) (h : m.keys.Perm m'.keys) (i : Instantiation) :
    m.contains i = m'.contains i := by
  rw [Bool.eq_iff_iff]
  simp [h.mem_iff]

namespace Represents

variable {g : Graph} {shared : Shared} {state : State}

theorem contains_index (h : Represents g shared state) (i : Instantiation) :
    shared.index.contains i = state.index.contains i :=
  contains_eq_of_perm _ _ (h.index.map Prod.fst) i

theorem contains_abandoned (h : Represents g shared state) (i : Instantiation) :
    shared.abandoned.contains i = state.abandoned.contains i :=
  contains_eq_of_perm _ _ h.abandoned i

/-- Making an instantiation known does the same on both sides. -/
theorem insert_index (h : Represents g shared state) (i : Instantiation) (depth : Nat)
    (hnew : state.index.contains i = false) :
    Represents g { shared with index := shared.index.insert i depth }
      { state with index := state.index.insert i depth } := by
  refine ⟨?_, h.abandoned, h.diagnostics, h.expansions⟩
  rw [FirstMap.entries_insert, FirstMap.entries_insert, h.contains_index, hnew]
  exact h.index.append_right _

/-- Giving an instantiation up and reporting it does what giving it up with its
    limit does. -/
theorem insert_abandoned (h : Represents g shared state) (i : Instantiation) (limit : Limit)
    (hnew : state.abandoned.contains i = false) :
    Represents g { shared with
        abandoned := shared.abandoned.insert i ()
        diagnostics := shared.diagnostics ++ [abandonedDiagnostic g.table (i, limit)] }
      { state with abandoned := state.abandoned.insert i limit } := by
  have hentries : (state.abandoned.insert i limit).entries =
      state.abandoned.entries ++ [(i, limit)] := by
    simpa using hnew
  refine ⟨h.index, ?_, ?_, h.expansions⟩
  · rw [FirstMap.keys_insert _ _ _ ((h.contains_abandoned i).trans hnew),
      FirstMap.keys_insert _ _ _ hnew]
    exact h.abandoned.append_right _
  · rw [hentries, List.map_append]
    exact h.diagnostics.append_right _

end Represents

theorem Schedule.trans {g : Graph} {settings : Settings} {first middle last : Shared}
    {workers workers' workers'' : List Worker}
    (h : Schedule g settings first workers middle workers')
    (h' : Schedule g settings middle workers' last workers'') :
    Schedule g settings first workers last workers'' := by
  induction h with
  | stop shared workers => exact h'
  | step before after worker worker' shared shared' middle workers hstep _ ih =>
      exact Schedule.step before after worker worker' shared shared' last _ hstep (ih h')

section InOrder

variable (g : Graph) (settings : Settings)

/-- A single worker that nobody interrupts deals with a candidate as offering it
    does. -/
theorem exists_schedule_offer (shared : Shared) (state : State)
    (h : Represents g shared state) (work : Work) (rest found : List Work)
    (before after : List Worker) :
    ∃ shared', Schedule g settings shared (before ++ ⟨.look (work :: rest), found⟩ :: after)
        shared' (before ++ ⟨.look rest, found ++ (offer settings state work).2⟩ :: after) ∧
      Represents g shared' (offer settings state work).1 := by
  -- One step of this worker, with the others waiting around it.
  have hstep := fun (worker worker' : Worker) (s s' : Shared)
      (hs : worker.step g settings s = some (s', worker')) =>
    Schedule.step before after worker worker' s s' s' _ hs (Schedule.stop s' _)
  unfold offer
  rw [← h.contains_index]
  cases hknown : shared.index.contains work.inst with
  | true =>
      simp only [if_true, List.append_nil]
      exact ⟨shared, hstep _ _ _ _ (by simp only [Worker.step, hknown, if_true]), h⟩
  | false =>
      simp only [Bool.false_eq_true, if_false]
      -- Looking and taking are two steps, but nobody comes between them here.
      cases hlimit : exceeded? settings work with
      | none =>
          have hlook := hstep ⟨.look (work :: rest), found⟩ ⟨.learn work rest, found⟩ shared shared
            (by simp only [Worker.step, hknown, hlimit, Bool.false_eq_true, if_false])
          refine ⟨_, hlook.trans (hstep _ _ _ _ ?_), h.insert_index work.inst work.depth
            ((h.contains_index work.inst).symm.trans hknown)⟩
          simp only [Worker.step, hknown, Bool.false_eq_true, if_false]
      | some limit =>
          have hlook := hstep ⟨.look (work :: rest), found⟩ ⟨.giveUp work limit rest, found⟩
            shared shared
            (by simp only [Worker.step, hknown, hlimit, Bool.false_eq_true, if_false])
          simp only [List.append_nil]
          cases hgiven : shared.abandoned.contains work.inst with
          | true =>
              -- Given up before, and then with the limit that was reported.
              rw [FirstMap.insert_of_contains _ _ _
                ((h.contains_abandoned work.inst).symm.trans hgiven)]
              refine ⟨shared, hlook.trans (hstep _ _ _ _ ?_), h⟩
              simp only [Worker.step, hgiven, if_true]
          | false =>
              -- Three steps: looking, giving up, reporting.
              have hgive := hstep ⟨.giveUp work limit rest, found⟩ ⟨.report work limit rest, found⟩
                shared { shared with abandoned := shared.abandoned.insert work.inst () }
                (by simp only [Worker.step, hgiven, Bool.false_eq_true, if_false])
              refine ⟨_, hlook.trans (hgive.trans (hstep _ _ _ _ ?_)),
                h.insert_abandoned work.inst limit
                  ((h.contains_abandoned work.inst).symm.trans hgiven)⟩
              rfl

/-- Candidate after candidate, it deals with all of them as offering them in order
    does. -/
theorem exists_schedule_offerAll (works : List Work) (shared : Shared) (state : State)
    (h : Represents g shared state) (found : List Work) (before after : List Worker) :
    ∃ shared', Schedule g settings shared (before ++ ⟨.look works, found⟩ :: after)
        shared' (before ++ ⟨.look [], found ++ (offerAll settings state works).2⟩ :: after) ∧
      Represents g shared' (offerAll settings state works).1 := by
  induction works generalizing shared state found with
  | nil =>
      simp only [offerAll, List.append_nil]
      exact ⟨shared, Schedule.stop _ _, h⟩
  | cons work rest ih =>
      rcases exists_schedule_offer g settings shared state h work rest found before after with
        ⟨middle, hfirst, hmiddle⟩
      rcases ih middle _ hmiddle (found ++ (offer settings state work).2) with
        ⟨last, hrest, hlast⟩
      simp only [offerAll]
      rw [← List.append_assoc]
      exact ⟨last, hfirst.trans hrest, hlast⟩

end InOrder

/-- Offering candidates neither looks at nor changes what has been expanded. -/
theorem offerAll_expanded (settings : Settings) (works expanded : List Work) (state : State) :
    offerAll settings { state with expanded } works =
      ({ (offerAll settings state works).1 with expanded }, (offerAll settings state works).2) := by
  induction works generalizing state with
  | nil => rfl
  | cons work rest ih =>
      have hoffer : offer settings { state with expanded } work =
          ({ (offer settings state work).1 with expanded }, (offer settings state work).2) := by
        unfold offer
        by_cases hknown : state.index.contains work.inst = true
        · simp only [hknown, if_true]
        · cases exceeded? settings work <;>
            simp only [hknown, if_false, Bool.false_eq_true]
      simp only [offerAll, hoffer, ih]

theorem offerAll_append (settings : Settings) (works more : List Work) (state : State) :
    offerAll settings state (works ++ more) =
      ((offerAll settings (offerAll settings state works).1 more).1,
        (offerAll settings state works).2 ++
          (offerAll settings (offerAll settings state works).1 more).2) := by
  induction works generalizing state with
  | nil => rfl
  | cons work rest ih => simp only [List.cons_append, offerAll, ih, List.append_assoc]

/-- A level offers the candidates of its frontier and counts the frontier. -/
theorem level_eq (g : Graph) (settings : Settings) (state : State) (frontier : List Work) :
    level g settings state frontier =
      ({ (offerAll settings state (frontier.flatMap (candidates g))).1 with
          expanded := state.expanded ++ frontier },
        (offerAll settings state (frontier.flatMap (candidates g))).2) :=
  offerAll_expanded settings _ _ state

/-- A level expands the first instantiation of its frontier and then the rest. -/
theorem level_cons (g : Graph) (settings : Settings) (state : State) (item : Work)
    (rest : List Work) :
    level g settings state (item :: rest) =
      ((level g settings (level g settings state [item]).1 rest).1,
        (level g settings state [item]).2 ++
          (level g settings (level g settings state [item]).1 rest).2) := by
  rw [level_eq, level_eq g settings state [item], level_eq]
  -- The two ways of counting the frontier are set apart before the lists are joined.
  simp only [offerAll_expanded, List.flatMap_cons, List.flatMap_nil, List.append_nil,
    offerAll_append, List.append_assoc, List.cons_append, List.nil_append]

/-- Expanding in order is a schedule: each worker runs until it is done before the
    next one starts. -/
theorem exists_schedule_level (g : Graph) (settings : Settings) (frontier : List Work)
    (shared : Shared) (state : State) (h : Represents g shared state) (before : List Worker) :
    ∃ shared' workers, Schedule g settings shared (before ++ frontier.map Worker.start) shared'
        (before ++ workers) ∧ (∀ worker ∈ workers, worker.IsDone) ∧
      workers.flatMap Worker.found = (level g settings state frontier).2 ∧
      Represents g shared' (level g settings state frontier).1 := by
  induction frontier generalizing shared state before with
  | nil =>
      refine ⟨shared, [], Schedule.stop _ _, fun _ hmem => absurd hmem List.not_mem_nil, rfl, ?_⟩
      simp only [level, List.append_nil, List.flatMap_nil, offerAll]
      exact h
  | cons item rest ih =>
      -- The worker counts itself in and then deals with its candidates.
      have hcount : Represents g { shared with expansions := shared.expansions + 1 }
          { state with expanded := state.expanded ++ [item] } := by
        refine ⟨h.index, h.abandoned, h.diagnostics, ?_⟩
        rw [List.length_append, List.length_singleton, h.expansions]
      rcases exists_schedule_offerAll g settings (candidates g item) _ _ hcount [] before
        (rest.map Worker.start) with ⟨middle, hitem, hmiddle⟩
      have hlevel : offerAll settings { state with expanded := state.expanded ++ [item] }
          (candidates g item) = level g settings state [item] := by
        simp only [level, List.flatMap_cons, List.flatMap_nil, List.append_nil]
      rw [hlevel, List.nil_append] at hitem
      rw [hlevel] at hmiddle
      -- Those that are done stay in front while the rest run.
      let done : Worker := ⟨.look [], (level g settings state [item]).2⟩
      rcases ih middle _ hmiddle (before ++ [done]) with
        ⟨last, workers, hrest, hdone, hfound, hlast⟩
      rw [List.append_assoc, List.append_assoc] at hrest
      have hfirst := Schedule.step before (rest.map Worker.start) (Worker.start item) _ shared _ _ _
        rfl hitem
      refine ⟨last, done :: workers, hfirst.trans hrest, fun worker hworker => ?_, ?_, ?_⟩
      · rcases List.mem_cons.mp hworker with rfl | hworker
        · rfl
        · exact hdone worker hworker
      · rw [level_cons, List.flatMap_cons, hfound]
      · rw [level_cons]
        exact hlast

/-- Workers that have nothing in hand yet. -/
def Worker.IsFresh (worker : Worker) : Prop :=
  worker.found = [] ∧ ((∃ item, worker.stage = .count item) ∨ ∃ rest, worker.stage = .look rest)

/-- The worker that offers the seeds is fresh. -/
theorem isFresh_of_mem_look (works : List Work) :
    ∀ worker ∈ [({ stage := .look works } : Worker)], worker.IsFresh := by
  intro worker hworker
  rw [List.mem_singleton.mp hworker]
  exact ⟨rfl, Or.inr ⟨works, rfl⟩⟩

/-- The accounts are in order when workers start. -/
theorem Accounts.start (g : Graph) (settings : Settings) (shared : Shared)
    (workers : List Worker) (hfresh : ∀ worker ∈ workers, worker.IsFresh) :
    Accounts g settings shared (workers.flatMap fun worker => worker.stage.pending g)
      (workers.map fun worker => worker.stage.uncounted).sum shared workers [] := by
  have hfound : workers.flatMap Worker.found = [] := by
    rw [List.flatMap_eq_nil_iff]
    exact fun worker hworker => (hfresh worker hworker).1
  have howed : (workers.flatMap fun worker => worker.stage.owed) = [] := by
    rw [List.flatMap_eq_nil_iff]
    intro worker hworker
    rcases (hfresh worker hworker).2 with ⟨item, hstage⟩ | ⟨rest, hstage⟩ <;> rw [hstage] <;> rfl
  refine ⟨?_, fun work hwork => ?_, ?_, ?_, fun pair hpair => absurd hpair List.not_mem_nil, rfl,
    fun worker hworker work hwork => List.mem_flatMap.mpr ⟨worker, hworker, hwork⟩,
    fun work hwork => Or.inl (List.mem_flatMap.mp hwork), fun worker hworker => ?_⟩
  · rw [hfound, List.map_nil, List.append_nil]
  · rw [hfound] at hwork
    exact absurd hwork List.not_mem_nil
  · rw [List.map_nil, List.append_nil]
  · rw [howed, List.map_nil]
  · rcases (hfresh worker hworker).2 with ⟨item, hstage⟩ | ⟨rest, hstage⟩ <;> rw [hstage] <;>
      trivial

/-- The next frontier may be collected in any order. -/
theorem Outcome.of_perm {g : Graph} {settings : Settings} {base shared : Shared}
    {works next next' : List Work} {items : Nat} {given : List (Instantiation × Limit)}
    (h : Outcome g settings base works items shared next given) (hperm : next'.Perm next) :
    Outcome g settings base works items shared next' given :=
  { h with
    index := h.index.trans ((hperm.symm.map _).append_left _)
    next_mem := fun work hwork => h.next_mem work (hperm.mem_iff.mp hwork) }

/-- What a run of fresh workers leaves behind when all are done. -/
theorem Schedule.exists_outcome {g : Graph} {settings : Settings} {shared shared' : Shared}
    {workers workers' : List Worker} (hrun : Schedule g settings shared workers shared' workers')
    (hfresh : ∀ worker ∈ workers, worker.IsFresh) (hdone : ∀ worker ∈ workers', worker.IsDone) :
    ∃ given, Outcome g settings shared (workers.flatMap fun worker => worker.stage.pending g)
      (workers.map fun worker => worker.stage.uncounted).sum shared'
      (workers'.flatMap Worker.found) given := by
  rcases Accounts.schedule g settings shared _ _ shared shared' workers workers' hrun []
    (Accounts.start g settings shared workers hfresh) with ⟨given, haccounts⟩
  exact ⟨given, haccounts.outcome g settings shared shared' _ _ workers' given hdone⟩

/-- Workers expand a frontier in some order, each starting from one of its
    instantiations, until all are done. What they have found is the next
    frontier, collected in any order. -/
def Expands (g : Graph) (settings : Settings) (shared : Shared) (frontier : List Work)
    (shared' : Shared) (next : List Work) : Prop :=
  ∃ workers, Schedule g settings shared (frontier.map Worker.start) shared' workers ∧
    (∀ worker ∈ workers, worker.IsDone) ∧ next.Perm (workers.flatMap Worker.found)

/-- Expanding in order is one of the ways to expand a frontier. -/
theorem exists_expands_level (g : Graph) (settings : Settings) (frontier : List Work)
    (shared : Shared) (state : State) (h : Represents g shared state) :
    ∃ shared', Expands g settings shared frontier shared' (level g settings state frontier).2 ∧
      Represents g shared' (level g settings state frontier).1 := by
  rcases exists_schedule_level g settings frontier shared state h [] with
    ⟨shared', workers, hrun, hdone, hfound, hrepresents⟩
  rw [List.nil_append, List.nil_append] at hrun
  refine ⟨shared', ⟨workers, hrun, hdone, ?_⟩, hrepresents⟩
  rw [hfound]

/-- What is left behind when a frontier has been expanded. -/
theorem Expands.exists_outcome {g : Graph} {settings : Settings} {shared shared' : Shared}
    {frontier next : List Work} (h : Expands g settings shared frontier shared' next) :
    ∃ given, Outcome g settings shared (frontier.flatMap (candidates g)) frontier.length shared'
      next given := by
  rcases h with ⟨workers, hrun, hdone, hnext⟩
  have hfresh : ∀ worker ∈ frontier.map Worker.start, worker.IsFresh := by
    intro worker hworker
    rcases List.mem_map.mp hworker with ⟨item, _, rfl⟩
    exact ⟨rfl, Or.inl ⟨item, rfl⟩⟩
  have hworks : (frontier.map Worker.start).flatMap (fun worker => worker.stage.pending g) =
      frontier.flatMap (candidates g) := by
    rw [List.flatMap_map]
    rfl
  have hitems : ((frontier.map Worker.start).map fun worker => worker.stage.uncounted).sum =
      frontier.length := by
    rw [List.map_map]
    change (frontier.map fun _ => 1).sum = frontier.length
    rw [List.map_const', List.sum_replicate_nat, Nat.mul_one]
  rcases hrun.exists_outcome hfresh hdone with ⟨given, houtcome⟩
  rw [hworks, hitems] at houtcome
  exact ⟨given, houtcome.of_perm hnext⟩

/-- The shared states and frontiers that a closure comes to, in whatever order its
    workers take their steps: one worker offers the seeds, each further frontier
    is found by expanding the one before, and when there is none a further pass
    expands everything known, in any order. -/
inductive Reached (g : Graph) (settings : Settings) : Shared → List Work → Prop
  | seeds (shared : Shared) (worker : Worker)
      (hrun : Schedule g settings {} [{ stage := .look (g.seeds.map fun inst => ⟨inst, 0⟩) }]
        shared [worker])
      (hdone : worker.IsDone) : Reached g settings shared worker.found
  | expand (shared shared' : Shared) (frontier next : List Work)
      (hreached : Reached g settings shared frontier)
      (hexpands : Expands g settings shared frontier shared' next) :
      Reached g settings shared' next
  | pass (shared : Shared) (frontier : List Work) (hreached : Reached g settings shared [])
      (hall : frontier.Perm (shared.index.entries.map fun entry => ⟨entry.1, entry.2⟩)) :
      Reached g settings shared frontier

/-- An outcome stands for whatever any other outcome of the same start stands
    for. -/
theorem Represents.of_outcomes {g : Graph} {settings : Settings} {base shared shared' : Shared}
    {works next next' : List Work} {items : Nat} {given given' : List (Instantiation × Limit)}
    {state : State} (hall : Unanimous settings base works)
    (h : Outcome g settings base works items shared next given)
    (h' : Outcome g settings base works items shared' next' given')
    (hstate : Represents g shared' state) :
    Represents g shared state ∧ next.Perm next' := by
  rcases Outcome.unique hall h h' with ⟨hnext, hgiven⟩
  -- Each list is the one at the start with what was added, which is the same in both.
  refine ⟨⟨?_, ?_, ?_, ?_⟩, hnext⟩
  · exact (h.index.trans ((hnext.map _).append_left _)).trans (h'.index.symm.trans hstate.index)
  · exact (h.abandoned.trans ((hgiven.map _).append_left _)).trans
      (h'.abandoned.symm.trans hstate.abandoned)
  · exact (h.reports.trans ((hgiven.map _).append_left _)).trans
      (h'.reports.symm.trans hstate.diagnostics)
  · rw [h.expansions, ← h'.expansions, hstate.expansions]

/-- Why the candidates of a frontier are unanimous: it is the frontier at some
    number of hops, or everything is decided and it holds what is known. -/
def Orderly (g : Graph) (settings : Settings) (state : State) (frontier : List Work) : Prop :=
  (∃ n ≤ settings.maxDepth, DecidedBelow g settings (n + 1) state ∧
      IsFrontier g settings n frontier) ∨
    (Stable g settings state ∧ ∀ work ∈ frontier, work ∈ state.snapshot)

section Orderly

variable {g : Graph} {settings : Settings} {shared shared' : Shared} {state : State}
  {frontier next : List Work}

/-- Candidates at one number of hops are unanimous. -/
theorem unanimous_of_depth (depth : Nat) {works : List Work}
    (hdepth : ∀ work ∈ works, work.depth = depth) : Unanimous settings shared works := by
  intro work hwork other hother hinst _
  left
  cases work
  cases other
  simp only [Work.mk.injEq]
  exact ⟨hinst, (hdepth _ hwork).trans (hdepth _ hother).symm⟩

theorem Orderly.unanimous (hstate : Represents g shared state)
    (h : Orderly g settings state frontier) :
    Unanimous settings shared (frontier.flatMap (candidates g)) := by
  rcases h with ⟨n, _, _, hfrontier⟩ | ⟨hstable, hsubset⟩
  · -- All candidates are one hop further than the frontier.
    refine unanimous_of_depth (n + 1) fun work hwork => ?_
    rcases List.mem_flatMap.mp hwork with ⟨parent, hparent, hmem⟩
    rw [((mem_candidates_iff g parent work.inst work.depth).mp hmem).1,
      ((hfrontier parent).mp hparent).1]
  · have hold := isOld_of_subset_snapshot hstable hsubset
    intro work hwork other hother hinst hnew
    right
    rw [hstate.contains_index] at hnew
    rw [hstate.contains_abandoned]
    -- Not known, so both were given up before.
    rcases hold work hwork with hknown | ⟨hgiven, hexceeds⟩
    · rw [hnew] at hknown
      exact absurd hknown Bool.false_ne_true
    · rcases hold other hother with hknown | ⟨_, hexceeds'⟩
      · rw [← hinst, hnew] at hknown
        exact absurd hknown Bool.false_ne_true
      · exact ⟨hgiven, hexceeds, hexceeds'⟩

/-- A level keeps the frontier orderly. The one at the limit on hops leaves no
    frontier, and everything decided. -/
theorem Orderly.level (h : Orderly g settings state frontier)
    (hnext : next.Perm (level g settings state frontier).2) :
    Orderly g settings (level g settings state frontier).1 next := by
  rcases h with ⟨n, hn, hdecided, hfrontier⟩ | ⟨hstable, hsubset⟩
  · rcases level_decidedBelow g settings n state frontier hn hdecided hfrontier with
      ⟨hdecided', hfrontier'⟩
    have hfront : IsFrontier g settings (n + 1) next :=
      fun work => hnext.mem_iff.trans (hfrontier' work)
    rcases Nat.lt_or_eq_of_le hn with hlt | rfl
    · exact Or.inl ⟨n + 1, hlt, hdecided', hfront⟩
    · -- Nothing is found beyond the limit on hops.
      rw [hfront.eq_nil (Nat.lt_succ_self _)]
      exact Or.inr ⟨stable_of_decidedBelow g settings _ hdecided',
        fun work hwork => absurd hwork List.not_mem_nil⟩
  · -- Nothing is left to find, so the level only counts.
    have hlevel : Closure.level g settings state frontier =
        ({ state with expanded := state.expanded ++ frontier }, []) :=
      offerAll_of_isOld settings _ _ (isOld_of_subset_snapshot hstable hsubset)
    rw [hlevel] at hnext ⊢
    rw [hnext.eq_nil]
    exact Or.inr ⟨hstable, fun work hwork => absurd hwork List.not_mem_nil⟩

/-- When a frontier is empty, everything is decided. -/
theorem Orderly.stable (h : Orderly g settings state []) : Stable g settings state := by
  rcases h with ⟨n, hn, hdecided, hfrontier⟩ | ⟨hstable, _⟩
  · -- The levels that are left have nothing to expand, so they change nothing.
    have hdrain := drain_decidedBelow g settings (settings.maxDepth + 1 - n) n state []
      (by omega) hdecided hfrontier
    rw [drain_nil] at hdrain
    exact stable_of_decidedBelow g settings state hdrain
  · exact hstable

/-- What workers leave behind that expand a frontier with unanimous candidates. -/
theorem Expands.represents
    (hall : Unanimous settings shared (frontier.flatMap (candidates g)))
    (hstate : Represents g shared state)
    (hexpands : Expands g settings shared frontier shared' next) :
    Represents g shared' (level g settings state frontier).1 ∧
      next.Perm (level g settings state frontier).2 := by
  -- The expansion in order is one outcome, and this expansion is another.
  rcases exists_expands_level g settings frontier shared state hstate with
    ⟨ordered, hordered, hrepresents⟩
  rcases hexpands.exists_outcome with ⟨given, houtcome⟩
  rcases hordered.exists_outcome with ⟨given', houtcome'⟩
  exact Represents.of_outcomes hall houtcome houtcome' hrepresents

/-- Offering the seeds leaves behind what the search starts from. -/
theorem represents_start (worker : Worker)
    (hrun : Schedule g settings {} [{ stage := .look (g.seeds.map fun inst => ⟨inst, 0⟩) }]
      shared [worker])
    (hdone : worker.IsDone) :
    Represents g shared (start g settings).1 ∧ worker.found.Perm (start g settings).2 := by
  have hempty : Represents g {} {} := ⟨.nil, .nil, .nil, rfl⟩
  rcases exists_schedule_offerAll g settings (g.seeds.map fun inst => ⟨inst, 0⟩) {} {} hempty [] []
    [] with ⟨ordered, hrun', hrepresents⟩
  have hfresh := isFresh_of_mem_look (g.seeds.map fun inst => ⟨inst, 0⟩)
  rcases hrun.exists_outcome hfresh (fun w hw => List.mem_singleton.mp hw ▸ hdone) with
    ⟨given, houtcome⟩
  rcases Schedule.exists_outcome hrun' hfresh (fun w hw => by rw [List.mem_singleton.mp hw]; rfl)
    with ⟨given', houtcome'⟩
  have hall : Unanimous settings {} ([({ stage := .look (g.seeds.map fun inst => ⟨inst, 0⟩) } :
      Worker)].flatMap fun w => w.stage.pending g) := by
    refine unanimous_of_depth 0 fun work hwork => ?_
    rw [List.flatMap_singleton] at hwork
    rcases List.mem_map.mp hwork with ⟨_, _, rfl⟩
    rfl
  rcases Represents.of_outcomes hall houtcome houtcome' hrepresents with ⟨hstart, hfound⟩
  simp only [List.nil_append, List.flatMap_singleton] at hfound
  exact ⟨hstart, hfound⟩

/-- Everything that is reached stands for a state of the search whose frontier is
    orderly. -/
theorem Reached.represents (h : Reached g settings shared frontier) :
    ∃ state, Represents g shared state ∧ Orderly g settings state frontier := by
  induction h with
  | seeds shared worker hrun hdone =>
      rcases represents_start worker hrun hdone with ⟨hstate, hfound⟩
      rcases start_decidedBelow g settings with ⟨hdecided, hfrontier⟩
      exact ⟨_, hstate, Or.inl ⟨0, Nat.zero_le _, hdecided,
        fun work => hfound.mem_iff.trans (hfrontier work)⟩⟩
  | expand shared shared' frontier next _ hexpands ih =>
      rcases ih with ⟨state, hstate, horderly⟩
      rcases Expands.represents (horderly.unanimous hstate) hstate hexpands with ⟨hlevel, hnext⟩
      exact ⟨_, hlevel, horderly.level hnext⟩
  | pass shared frontier _ hall ih =>
      rcases ih with ⟨state, hstate, horderly⟩
      -- The pass begins where no frontier is left.
      refine ⟨state, hstate, Or.inr ⟨horderly.stable, fun work hwork => ?_⟩⟩
      exact (hall.trans (hstate.index.map _)).mem_iff.mp hwork

/-- However the steps of the workers interleave that expand a frontier to which
    the closure has come, they leave behind what expanding it in order does: the
    same is known at the same hops, the same was given up, the same is reported
    and as many expansions were made. The next frontier is the same too, and
    holds exactly what has become known, each once. Such an expansion always
    exists. -/
theorem Reached.expands_eq_level (g : Graph) (settings : Settings) (shared : Shared)
    (frontier : List Work) (h : Reached g settings shared frontier) :
    (∃ state, Represents g shared state) ∧
      (∃ shared' next, Expands g settings shared frontier shared' next) ∧
      ∀ state, Represents g shared state → ∀ shared' next,
        Expands g settings shared frontier shared' next →
        Represents g shared' (level g settings state frontier).1 ∧
          next.Perm (level g settings state frontier).2 ∧ (next.map Work.inst).Nodup ∧
          ∀ i depth, ⟨i, depth⟩ ∈ next ↔
            shared'.index.get? i = some depth ∧ shared.index.get? i = none := by
  rcases h.represents with ⟨state, hstate, horderly⟩
  rcases exists_expands_level g settings frontier shared state hstate with ⟨ordered, hordered, _⟩
  refine ⟨⟨state, hstate⟩, ⟨ordered, _, hordered⟩, fun state' hstate' shared' next hexpands => ?_⟩
  -- Unanimity is about the shared state, so it serves every state that this one
  -- stands for.
  rcases Expands.represents (horderly.unanimous hstate) hstate' hexpands with ⟨hlevel, hnext⟩
  rcases hexpands.exists_outcome with ⟨given, houtcome⟩
  exact ⟨hlevel, hnext, houtcome.next_nodup.1, houtcome.mem_next_iff⟩

end Orderly

end Closure

namespace Fork

open Closure

/-- A method calls two others, and both make the same list. -/
def graph : Graph where
  table :=
    ⟨[⟨"main", .method, [], [], none, false⟩, ⟨"left", .method, ["A"], ["A"], none, true⟩,
      ⟨"right", .method, ["B"], ["B"], none, true⟩, ⟨"List", .type, ["T"], ["T"], none, true⟩]⟩
  edges :=
    [⟨0, 1, [.literal "int"], .site .call⟩, ⟨0, 2, [.literal "int"], .site .call⟩,
     ⟨1, 3, [.param "A"], .site .construct⟩, ⟨2, 3, [.param "B"], .site .construct⟩]

/-- A declaration with `int` for its only argument. -/
def ofInt (id : DeclId) : Instantiation :=
  ⟨id, [.literal "int"], rfl⟩

/-- What is known once the two calls have been offered. -/
def seeded : Shared :=
  { index := (FirstMap.empty.insert (ofInt 1) 0).insert (ofInt 2) 0 }

/-- The two callees, to be expanded at the same time. -/
def frontier : List Work :=
  [⟨ofInt 1, 0⟩, ⟨ofInt 2, 0⟩]

/-- What is known once both have been expanded: the list, found once. -/
def raced : Shared :=
  { seeded with index := seeded.index.insert (ofInt 3) 1, expansions := 2 }

theorem reached_frontier : Reached graph {} seeded frontier := by
  -- The one worker looks at each seed and makes it known.
  refine Reached.seeds seeded ⟨.look [], frontier⟩ ?_ rfl
  refine Schedule.step [] _ _ _ _ _ _ _ rfl ?_
  refine Schedule.step [] _ _ _ _ _ _ _ rfl ?_
  refine Schedule.step [] _ _ _ _ _ _ _ rfl ?_
  refine Schedule.step [] _ _ _ _ _ _ _ rfl ?_
  exact Schedule.stop _ _

/-- Both workers look before either of them makes the list known, and then the
    second is faster. -/
theorem expands_frontier : Expands graph {} seeded frontier raced [⟨ofInt 3, 1⟩] := by
  refine ⟨[⟨.look [], []⟩, ⟨.look [], [⟨ofInt 3, 1⟩]⟩], ?_, ?_, ?_⟩
  · -- Both count themselves in, both look, and the second makes the list known.
    refine Schedule.step [] _ _ _ _ _ _ _ rfl ?_
    refine Schedule.step [_] _ _ _ _ _ _ _ rfl ?_
    refine Schedule.step [] _ _ _ _ _ _ _ rfl ?_
    refine Schedule.step [_] _ _ _ _ _ _ _ rfl ?_
    refine Schedule.step [_] _ _ _ _ _ _ _ rfl ?_
    refine Schedule.step [] _ _ _ _ _ _ _ rfl ?_
    exact Schedule.stop _ _
  · intro worker hworker
    rcases List.mem_pair.mp hworker with rfl | rfl <;> rfl
  · exact List.Perm.refl _

/-- The race leaves behind what expanding the two in order does. -/
theorem represents_raced :
    Reached graph {} seeded frontier ∧ Expands graph {} seeded frontier raced [⟨ofInt 3, 1⟩] ∧
      Represents graph raced (level graph {} (start graph {}).1 frontier).1 ∧
      [⟨ofInt 3, 1⟩].Perm (level graph {} (start graph {}).1 frontier).2 := by
  have hstate : Represents graph seeded (start graph {}).1 := ⟨.refl _, .refl _, .refl _, rfl⟩
  rcases Reached.expands_eq_level graph {} seeded frontier reached_frontier with ⟨_, _, hall⟩
  rcases hall _ hstate raced _ expands_frontier with ⟨hraced, hnext, _⟩
  exact ⟨reached_frontier, expands_frontier, hraced, hnext⟩

end Fork

end Monomorph

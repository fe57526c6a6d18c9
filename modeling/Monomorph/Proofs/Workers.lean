import Monomorph.Closure.Resolution
import Monomorph.Proofs.Search
import Mathlib.Algebra.GroupWithZero.Nat
import Mathlib.Data.List.Nodup

/-!
# Workers That Share What They Find

Expanding a frontier with one worker per instantiation, all of them at once. The
workers share what is known, what was given up, what there is to report and how
many expansions were made; everything else a worker keeps to itself. A worker
moves in small steps, each of which touches the shared state once: it counts
itself in, looks whether its next candidate is known, makes a candidate known
unless it is by now, gives one up unless it has been, and reports what it was
the first to give up. Between two steps of a worker any number of steps of other
workers may come.

That looking and making known are two steps is the point of the model. Two
workers may both see that a candidate is not known; then only the first of them
to make it known goes on with it. The same holds for giving up.

What such a run does is followed by accounts. Each list that the run extends is,
up to order, what it was at the start together with what the workers have in
hand, and each candidate is still before a worker or settled. `step_advance`
says once what a single step does to the accounts of its worker; that a step
keeps the accounts of all workers (`Accounts.advance`), and hence every run does
(`Accounts.schedule`), needs no look at the steps again.

When all workers are done the accounts are an `Outcome`, which does not mention
workers. `Outcome.unique` then compares two outcomes: where the candidates are
`Unanimous`, they have found the same and given up the same.

## Main definitions

* `Closure.Shared`: What workers share.
* `Closure.Stage`, `Closure.Worker`: What a worker is about to do.
* `Closure.Worker.step`: What one step of a worker does.
* `Closure.Schedule`: Steps of several workers in any order.
* `Closure.Settled`: A candidate that has been dealt with.
* `Closure.Advance`: What one step does to the accounts of its worker.
* `Closure.Accounts`: The accounts of all workers.
* `Closure.Outcome`: What is left when all are done.
* `Closure.Unanimous`: It does not matter which candidate comes first.

## Theorems

* `Closure.Advance.of_unchanged`, `Closure.Advance.pass_over`: Steps that leave the
  shared state as it is.
* `Closure.Worker.step_advance`: What a step of a worker can do.
* `Closure.append_middle_perm`, `Closure.perm_of_share`: A change of one worker's
  share is a change of the whole.
* `Closure.contains_eq_false_of_perm`: What is unknown now was unknown at the start.
* `Closure.Settled.advance`: What is settled stays so.
* `Closure.Accounts.advance`: A step keeps the accounts.
* `Closure.Accounts.schedule`: A run keeps the accounts.
* `Closure.Accounts.outcome`: What the accounts say when all are done.
* `Closure.Outcome.index_keys`, `Closure.Outcome.contains_index_iff`,
  `Closure.Outcome.mem_next_iff`: What is known when all are done.
* `Closure.Outcome.contains_abandoned_iff`: What is given up when all are done.
* `Closure.Outcome.next_nodup`, `Closure.Outcome.given_nodup`: Nothing is made known
  twice, and nothing is given up twice.
* `Closure.Outcome.next_subset`, `Closure.Outcome.given_subset`: What one run does to
  a candidate, any other does.
* `Closure.Outcome.unique`: Two outcomes from one start agree.
-/

namespace Monomorph

/-- The entry that makes a candidate known. -/
def Work.entry (work : Work) : Instantiation × Nat :=
  (work.inst, work.depth)

namespace Closure

/-- What the workers share: what is known with its hops, what was given up, what
    there is to report, and how many expansions were made. -/
structure Shared where
  index : FirstMap Instantiation Nat := .empty
  abandoned : FirstMap Instantiation Unit := .empty
  diagnostics : List Diagnostic := []
  expansions : Nat := 0

/-- What a worker does next, with the candidates that it has still to look at. -/
inductive Stage where
  /-- Count an instantiation as expanded. -/
  | count (item : Work)
  /-- Look whether the next candidate is known. -/
  | look (rest : List Work)
  /-- Make a candidate known, unless it has become known since. -/
  | learn (work : Work) (rest : List Work)
  /-- Give a candidate up, unless it has been given up. -/
  | giveUp (work : Work) (limit : Limit) (rest : List Work)
  /-- Report a candidate as given up. -/
  | report (work : Work) (limit : Limit) (rest : List Work)

/-- A worker: what it does next, and what it has made known so far. -/
structure Worker where
  stage : Stage
  found : List Work := []

namespace Worker

/-- The worker that expands an instantiation. -/
def start (item : Work) : Worker :=
  { stage := .count item }

/-- A worker that has looked at all its candidates. -/
def IsDone (worker : Worker) : Prop :=
  worker.stage = .look []

/-- One step of a worker, which touches the shared state once. There is none for
    a worker that is done. -/
def step (g : Graph) (settings : Settings) (shared : Shared) (worker : Worker) :
    Option (Shared × Worker) :=
  match worker.stage with
  | .count item =>
    some ({ shared with expansions := shared.expansions + 1 },
      { worker with stage := .look (candidates g item) })
  | .look [] => none
  | .look (work :: rest) =>
    if shared.index.contains work.inst then some (shared, { worker with stage := .look rest })
    else
      match exceeded? settings work with
      | some limit => some (shared, { worker with stage := .giveUp work limit rest })
      | none => some (shared, { worker with stage := .learn work rest })
  | .learn work rest =>
    if shared.index.contains work.inst then some (shared, { worker with stage := .look rest })
    else
      some ({ shared with index := shared.index.insert work.inst work.depth },
        { stage := .look rest, found := worker.found ++ [work] })
  | .giveUp work limit rest =>
    if shared.abandoned.contains work.inst then some (shared, { worker with stage := .look rest })
    else
      some ({ shared with abandoned := shared.abandoned.insert work.inst () },
        { worker with stage := .report work limit rest })
  | .report work limit rest =>
    let diagnostic := abandonedDiagnostic g.table (work.inst, limit)
    some ({ shared with diagnostics := shared.diagnostics ++ [diagnostic] },
      { worker with stage := .look rest })

end Worker

/-- Workers make steps, one at a time and in any order. -/
inductive Schedule (g : Graph) (settings : Settings) :
    Shared → List Worker → Shared → List Worker → Prop
  | stop (shared : Shared) (workers : List Worker) :
      Schedule g settings shared workers shared workers
  | step (before after : List Worker) (worker worker' : Worker) (shared shared' last : Shared)
      (workers : List Worker) (hstep : worker.step g settings shared = some (shared', worker'))
      (hrest : Schedule g settings shared' (before ++ worker' :: after) last workers) :
      Schedule g settings shared (before ++ worker :: after) last workers

namespace Stage

/-- The candidates that are still before a worker. -/
def pending (g : Graph) : Stage → List Work
  | count item => candidates g item
  | look rest => rest
  | learn work rest => work :: rest
  | giveUp work _ rest => work :: rest
  | report _ _ rest => rest

/-- What a worker has given up and not yet reported. -/
def owed : Stage → List (Instantiation × Limit)
  | report work limit _ => [(work.inst, limit)]
  | _ => []

/-- How many expansions a worker has still to count. -/
def uncounted : Stage → Nat
  | count _ => 1
  | _ => 0

/-- What a worker found out about a candidate before it went on to take it or to
    give it up. That it was not known is said of the index at the start, for the
    index may have grown since. -/
def Justified (settings : Settings) (base : Shared) : Stage → Prop
  | learn work _ => exceeded? settings work = none
  | giveUp work limit _ =>
      exceeded? settings work = some limit ∧ base.index.contains work.inst = false
  | _ => True

end Stage

/-- A candidate that has been dealt with: it is known, or it exceeds a limit and
    has been given up. -/
def Settled (settings : Settings) (shared : Shared) (work : Work) : Prop :=
  shared.index.contains work.inst = true ∨
    (shared.abandoned.contains work.inst = true ∧ exceeded? settings work ≠ none)

/-- What a step does to the accounts of its worker, if it makes `found` known and
    gives `given` up. -/
structure Advance (g : Graph) (settings : Settings) (base shared shared' : Shared)
    (worker worker' : Worker) (found : List Work) (given : List (Instantiation × Limit)) :
    Prop where
  index : shared'.index.entries = shared.index.entries ++ found.map Work.entry
  found_eq : worker'.found = worker.found ++ found
  found_pending : ∀ work ∈ found, work ∈ worker.stage.pending g ∧ exceeded? settings work = none
  abandoned : shared'.abandoned.keys = shared.abandoned.keys ++ given.map Prod.fst
  reports : (shared'.diagnostics ++ worker'.stage.owed.map (abandonedDiagnostic g.table)).Perm
    ((shared.diagnostics ++ worker.stage.owed.map (abandonedDiagnostic g.table)) ++
      given.map (abandonedDiagnostic g.table))
  given_pending : ∀ pair ∈ given, base.index.contains pair.1 = false ∧
    ∃ work ∈ worker.stage.pending g, work.inst = pair.1 ∧ exceeded? settings work = some pair.2
  expansions : shared'.expansions + worker'.stage.uncounted =
    shared.expansions + worker.stage.uncounted
  pending : ∀ work ∈ worker'.stage.pending g, work ∈ worker.stage.pending g
  settled : ∀ work ∈ worker.stage.pending g,
    work ∈ worker'.stage.pending g ∨ Settled settings shared' work
  justified : worker'.stage.Justified settings base

/-- A step that leaves the shared state as it is only moves its worker on. -/
theorem Advance.of_unchanged (g : Graph) (settings : Settings) (base shared : Shared)
    (stage stage' : Stage) (found : List Work) (howed : stage.owed = [] ∧ stage'.owed = [])
    (hcount : stage.uncounted = stage'.uncounted)
    (hpending : ∀ work ∈ stage'.pending g, work ∈ stage.pending g)
    (hsettled : ∀ work ∈ stage.pending g, work ∈ stage'.pending g ∨ Settled settings shared work)
    (hjustified : stage'.Justified settings base) :
    Advance g settings base shared shared ⟨stage, found⟩ ⟨stage', found⟩ [] [] where
  index := (List.append_nil _).symm
  found_eq := (List.append_nil _).symm
  found_pending := fun _ hmem => absurd hmem List.not_mem_nil
  abandoned := (List.append_nil _).symm
  reports := by rw [howed.1, howed.2, List.map_nil, List.append_nil, List.append_nil]
  given_pending := fun _ hmem => absurd hmem List.not_mem_nil
  expansions := by rw [hcount]
  pending := hpending
  settled := hsettled
  justified := hjustified

/-- A worker passes a candidate over once it is settled. -/
theorem Advance.pass_over (g : Graph) (settings : Settings) (base shared : Shared)
    (stage : Stage) (work : Work) (rest found : List Work)
    (hpending : stage.pending g = work :: rest) (howed : stage.owed = [])
    (hcount : stage.uncounted = 0) (hsettled : Settled settings shared work) :
    Advance g settings base shared shared ⟨stage, found⟩ ⟨.look rest, found⟩ [] [] := by
  refine Advance.of_unchanged g settings base shared stage (.look rest) found ⟨howed, rfl⟩ hcount
    (fun w hw => ?_) (fun w hw => ?_) trivial
  · rw [hpending]
    exact List.mem_cons_of_mem work hw
  · rw [hpending] at hw
    rcases List.mem_cons.mp hw with rfl | hw
    · exact Or.inr hsettled
    · exact Or.inl hw

/-- What a step of a worker can do. -/
theorem Worker.step_advance (g : Graph) (settings : Settings) (base shared shared' : Shared)
    (worker worker' : Worker)
    (hbase : ∀ i, shared.index.contains i = false → base.index.contains i = false)
    (hjustified : worker.stage.Justified settings base)
    (hstep : worker.step g settings shared = some (shared', worker')) :
    ∃ found given, Advance g settings base shared shared' worker worker' found given := by
  -- By stage, with a case for each answer that the shared state can give it.
  rcases worker with ⟨stage, found⟩
  cases stage with
  | count item =>
      simp only [step, Option.some.injEq, Prod.mk.injEq] at hstep
      rcases hstep with ⟨rfl, rfl⟩
      exact ⟨[], [],
        { index := (List.append_nil _).symm
          found_eq := (List.append_nil _).symm
          found_pending := fun _ hmem => absurd hmem List.not_mem_nil
          abandoned := (List.append_nil _).symm
          reports := by rw [List.map_nil, List.append_nil]; rfl
          given_pending := fun _ hmem => absurd hmem List.not_mem_nil
          expansions := rfl
          pending := fun _ hmem => hmem
          settled := fun _ hmem => Or.inl hmem
          justified := trivial }⟩
  | look rest =>
      cases rest with
      | nil => exact absurd hstep (by simp only [step, reduceCtorEq, not_false_eq_true])
      | cons work rest =>
          by_cases hknown : shared.index.contains work.inst = true
          · simp only [step, hknown, if_true, Option.some.injEq, Prod.mk.injEq] at hstep
            rcases hstep with ⟨rfl, rfl⟩
            exact ⟨[], [], Advance.pass_over g settings base shared _ work rest found rfl rfl rfl
              (Or.inl hknown)⟩
          · -- Which limit the candidate exceeds is for the worker alone to find out.
            have hnew := hbase work.inst (Bool.eq_false_iff.mpr hknown)
            cases hlimit : exceeded? settings work with
            | some limit =>
                simp only [step, hknown, if_false, hlimit, Option.some.injEq, Prod.mk.injEq,
                  Bool.false_eq_true] at hstep
                rcases hstep with ⟨rfl, rfl⟩
                exact ⟨[], [], Advance.of_unchanged g settings base shared _ _ found ⟨rfl, rfl⟩ rfl
                  (fun _ hmem => hmem) (fun _ hmem => Or.inl hmem) ⟨hlimit, hnew⟩⟩
            | none =>
                simp only [step, hknown, if_false, hlimit, Option.some.injEq, Prod.mk.injEq,
                  Bool.false_eq_true] at hstep
                rcases hstep with ⟨rfl, rfl⟩
                exact ⟨[], [], Advance.of_unchanged g settings base shared _ _ found ⟨rfl, rfl⟩ rfl
                  (fun _ hmem => hmem) (fun _ hmem => Or.inl hmem) hlimit⟩
  | learn work rest =>
      by_cases hknown : shared.index.contains work.inst = true
      · -- Another worker was faster.
        simp only [step, hknown, if_true, Option.some.injEq, Prod.mk.injEq] at hstep
        rcases hstep with ⟨rfl, rfl⟩
        exact ⟨[], [], Advance.pass_over g settings base shared _ work rest found rfl rfl rfl
          (Or.inl hknown)⟩
      · -- It has been unknown all along, so the entry is a new one.
        simp only [step, hknown, if_false, Option.some.injEq, Prod.mk.injEq, Bool.false_eq_true]
          at hstep
        rcases hstep with ⟨rfl, rfl⟩
        refine ⟨[work], [],
          { index := by rw [FirstMap.entries_insert, if_neg hknown]; rfl
            found_eq := rfl
            found_pending := fun w hw => ?_
            abandoned := (List.append_nil _).symm
            reports := by rw [List.map_nil, List.append_nil]; rfl
            given_pending := fun _ hmem => absurd hmem List.not_mem_nil
            expansions := rfl
            pending := fun _ hmem => List.mem_cons_of_mem work hmem
            settled := fun w hw => ?_
            justified := trivial }⟩
        · rw [List.mem_singleton.mp hw]
          exact ⟨List.mem_cons_self, hjustified⟩
        · rcases List.mem_cons.mp hw with rfl | hw
          · exact Or.inr (Or.inl (FirstMap.contains_insert_self _ _ _))
          · exact Or.inl hw
  | giveUp work limit rest =>
      have hexceeds : exceeded? settings work ≠ none := by
        rw [hjustified.1]
        simp only [ne_eq, reduceCtorEq, not_false_eq_true]
      by_cases hgiven : shared.abandoned.contains work.inst = true
      · -- Another worker has given it up, and that one reports it.
        simp only [step, hgiven, if_true, Option.some.injEq, Prod.mk.injEq] at hstep
        rcases hstep with ⟨rfl, rfl⟩
        exact ⟨[], [], Advance.pass_over g settings base shared _ work rest found rfl rfl rfl
          (Or.inr ⟨hgiven, hexceeds⟩)⟩
      · simp only [step, hgiven, if_false, Option.some.injEq, Prod.mk.injEq, Bool.false_eq_true]
          at hstep
        rcases hstep with ⟨rfl, rfl⟩
        -- From here on the worker owes a report.
        refine ⟨[], [(work.inst, limit)],
          { index := (List.append_nil _).symm
            found_eq := (List.append_nil _).symm
            found_pending := fun _ hmem => absurd hmem List.not_mem_nil
            abandoned := FirstMap.keys_insert _ _ _ (Bool.eq_false_iff.mpr hgiven)
            reports := by simp only [Stage.owed, List.map_nil, List.append_nil, List.Perm.refl]
            given_pending := fun pair hpair => ?_
            expansions := rfl
            pending := fun _ hmem => List.mem_cons_of_mem work hmem
            settled := fun w hw => ?_
            justified := trivial }⟩
        · rw [List.mem_singleton.mp hpair]
          exact ⟨hjustified.2, work, List.mem_cons_self, rfl, hjustified.1⟩
        · rcases List.mem_cons.mp hw with rfl | hw
          · exact Or.inr (Or.inr ⟨FirstMap.contains_insert_self _ _ _, hexceeds⟩)
          · exact Or.inl hw
  | report work limit rest =>
      simp only [step, Option.some.injEq, Prod.mk.injEq] at hstep
      rcases hstep with ⟨rfl, rfl⟩
      exact ⟨[], [],
        { index := (List.append_nil _).symm
          found_eq := (List.append_nil _).symm
          found_pending := fun _ hmem => absurd hmem List.not_mem_nil
          abandoned := (List.append_nil _).symm
          reports := by
            simp only [Stage.owed, List.map_cons, List.map_nil, List.append_nil, List.Perm.refl]
          given_pending := fun _ hmem => absurd hmem List.not_mem_nil
          expansions := rfl
          pending := fun _ hmem => hmem
          settled := fun _ hmem => Or.inl hmem
          justified := trivial }⟩

/-- The accounts of all workers in a run from `base` over the candidates `works`,
    with `items` expansions to be counted, once `given` has been given up. -/
structure Accounts (g : Graph) (settings : Settings) (base : Shared) (works : List Work)
    (items : Nat) (shared : Shared) (workers : List Worker)
    (given : List (Instantiation × Limit)) : Prop where
  index : shared.index.entries.Perm
    (base.index.entries ++ (workers.flatMap Worker.found).map Work.entry)
  found_mem : ∀ work ∈ workers.flatMap Worker.found,
    work ∈ works ∧ exceeded? settings work = none
  abandoned : shared.abandoned.keys.Perm (base.abandoned.keys ++ given.map Prod.fst)
  reports : (shared.diagnostics ++
      (workers.flatMap fun worker => worker.stage.owed).map (abandonedDiagnostic g.table)).Perm
    (base.diagnostics ++ given.map (abandonedDiagnostic g.table))
  given_mem : ∀ pair ∈ given, base.index.contains pair.1 = false ∧
    ∃ work ∈ works, work.inst = pair.1 ∧ exceeded? settings work = some pair.2
  expansions : shared.expansions + (workers.map fun worker => worker.stage.uncounted).sum =
    base.expansions + items
  pending_mem : ∀ worker ∈ workers, ∀ work ∈ worker.stage.pending g, work ∈ works
  settled : ∀ work ∈ works,
    (∃ worker ∈ workers, work ∈ worker.stage.pending g) ∨ Settled settings shared work
  justified : ∀ worker ∈ workers, worker.stage.Justified settings base

/-- What is put behind a part of a list can as well be put behind the whole. -/
theorem append_middle_perm {α : Type} (before middle after added : List α) :
    (before ++ ((middle ++ added) ++ after)).Perm ((before ++ (middle ++ after)) ++ added) := by
  rw [List.append_assoc before, List.append_assoc middle, List.append_assoc middle]
  exact ((List.perm_append_comm.append_left middle).append_left before)

/-- If one share of a whole changes together with the stock, and `added` comes
    in, then so it does for the whole. -/
theorem perm_of_share {α : Type} {stock stock' before share share' after added total : List α}
    (hshare : (stock' ++ share').Perm ((stock ++ share) ++ added))
    (hwhole : (stock ++ (before ++ (share ++ after))).Perm total) :
    (stock' ++ (before ++ (share' ++ after))).Perm (total ++ added) := by
  -- The share is brought next to the stock, and back again at the end.
  have hnext : ∀ stock share : List α, (stock ++ (before ++ (share ++ after))).Perm
      ((stock ++ share) ++ (before ++ after)) := by
    intro stock share
    rw [List.append_assoc]
    exact (List.perm_append_comm_assoc before share after).append_left stock
  have hadded : (((stock ++ share) ++ added) ++ (before ++ after)).Perm
      (((stock ++ share) ++ (before ++ after)) ++ added) := by
    rw [List.append_assoc, List.append_assoc (stock ++ share)]
    exact List.perm_append_comm.append_left (stock ++ share)
  calc List.Perm (stock' ++ (before ++ (share' ++ after)))
        ((stock' ++ share') ++ (before ++ after)) := hnext stock' share'
    List.Perm _ (((stock ++ share) ++ added) ++ (before ++ after)) := hshare.append_right _
    List.Perm _ (((stock ++ share) ++ (before ++ after)) ++ added) := hadded
    List.Perm _ (total ++ added) := ((hnext stock share).symm.trans hwhole).append_right added

theorem contains_eq_false_of_perm {ν : Type} (m m' : FirstMap Instantiation ν)
    (entries : List (Instantiation × ν)) (h : m'.entries.Perm (m.entries ++ entries))
    (i : Instantiation) (hi : m'.contains i = false) : m.contains i = false := by
  rw [FirstMap.contains_eq_false_iff] at hi ⊢
  intro hmem
  refine hi ((h.map Prod.fst).mem_iff.mpr ?_)
  rw [List.map_append]
  exact List.mem_append_left _ hmem

/-- What is settled stays so. -/
theorem Settled.advance (g : Graph) (settings : Settings) (base shared shared' : Shared)
    (worker worker' : Worker) (found : List Work) (given : List (Instantiation × Limit))
    (h : Advance g settings base shared shared' worker worker' found given) (work : Work)
    (hsettled : Settled settings shared work) : Settled settings shared' work := by
  rcases hsettled with hknown | ⟨hgiven, hexceeds⟩
  · left
    rw [FirstMap.contains_iff, FirstMap.keys] at hknown ⊢
    rw [h.index, List.map_append]
    exact List.mem_append_left _ hknown
  · right
    rw [FirstMap.contains_iff] at hgiven ⊢
    rw [h.abandoned]
    exact ⟨List.mem_append_left _ hgiven, hexceeds⟩

/-- A step keeps the accounts: what its worker has in hand changes as the shared
    state does, and the other workers are where they were. -/
theorem Accounts.advance (g : Graph) (settings : Settings) (base shared shared' : Shared)
    (works : List Work) (items : Nat) (before after : List Worker) (worker worker' : Worker)
    (given added : List (Instantiation × Limit)) (found : List Work)
    (h : Accounts g settings base works items shared (before ++ worker :: after) given)
    (hstep : Advance g settings base shared shared' worker worker' found added) :
    Accounts g settings base works items shared' (before ++ worker' :: after)
      (given ++ added) := by
  have hmem : worker ∈ before ++ worker :: after := List.mem_append_right _ List.mem_cons_self
  have hothers : ∀ other ∈ before ++ worker' :: after,
      other = worker' ∨ other ∈ before ++ worker :: after := by
    intro other hother
    rcases List.mem_append.mp hother with hbefore | hcons
    · exact Or.inr (List.mem_append_left _ hbefore)
    · rcases List.mem_cons.mp hcons with heq | hafter
      · exact Or.inl heq
      · exact Or.inr (List.mem_append_right _ (List.mem_cons_of_mem _ hafter))
  have hfound : ((before ++ worker' :: after).flatMap Worker.found).Perm
      ((before ++ worker :: after).flatMap Worker.found ++ found) := by
    rw [List.flatMap_append, List.flatMap_append, List.flatMap_cons, List.flatMap_cons,
      hstep.found_eq]
    exact append_middle_perm _ _ _ _
  refine ⟨?_, fun work hwork => ?_, ?_, ?_, fun pair hpair => ?_, ?_,
    fun other hother work hwork => ?_, fun work hwork => ?_, fun other hother => ?_⟩
  · -- What is known grows by what the worker found.
    rw [hstep.index]
    refine (h.index.append_right _).trans ?_
    rw [List.append_assoc, ← List.map_append]
    exact ((hfound.map Work.entry).append_left _).symm
  · rcases List.mem_append.mp (hfound.mem_iff.mp hwork) with hold | hnew
    · exact h.found_mem work hold
    · rcases hstep.found_pending work hnew with ⟨hpending, hnone⟩
      exact ⟨h.pending_mem worker hmem work hpending, hnone⟩
  · rw [hstep.abandoned, List.map_append, ← List.append_assoc]
    exact h.abandoned.append_right _
  · -- A report is owed by the worker and then listed, so it is never counted twice.
    have hreports := h.reports
    simp only [List.flatMap_append, List.flatMap_cons, List.map_append] at hreports ⊢
    rw [← List.append_assoc base.diagnostics]
    exact perm_of_share hstep.reports hreports
  · rcases List.mem_append.mp hpair with hold | hnew
    · exact h.given_mem pair hold
    · rcases hstep.given_pending pair hnew with ⟨hbase, work, hpending, hwork⟩
      exact ⟨hbase, work, h.pending_mem worker hmem work hpending, hwork⟩
  · have hsum := h.expansions
    have hone := hstep.expansions
    simp only [List.map_append, List.map_cons, List.sum_append, List.sum_cons] at hsum ⊢
    omega
  · rcases hothers other hother with rfl | hold
    · exact h.pending_mem worker hmem work (hstep.pending work hwork)
    · exact h.pending_mem other hold work hwork
  · -- Only the worker that stepped can have dealt with a candidate.
    rcases h.settled work hwork with ⟨other, hother, hpending⟩ | hsettled
    · rcases List.mem_append.mp hother with hbefore | hcons
      · exact Or.inl ⟨other, List.mem_append_left _ hbefore, hpending⟩
      · rcases List.mem_cons.mp hcons with rfl | hafter
        · rcases hstep.settled work hpending with hpending' | hsettled
          · exact Or.inl ⟨worker', List.mem_append_right _ List.mem_cons_self, hpending'⟩
          · exact Or.inr hsettled
        · exact Or.inl ⟨other, List.mem_append_right _ (List.mem_cons_of_mem _ hafter), hpending⟩
    · exact Or.inr (Settled.advance g settings base shared shared' worker worker' found added hstep
        work hsettled)
  · rcases hothers other hother with rfl | hold
    · exact hstep.justified
    · exact h.justified other hold

/-- A run keeps the accounts. -/
theorem Accounts.schedule (g : Graph) (settings : Settings) (base : Shared) (works : List Work)
    (items : Nat) (shared shared' : Shared) (workers workers' : List Worker)
    (hrun : Schedule g settings shared workers shared' workers')
    (given : List (Instantiation × Limit))
    (h : Accounts g settings base works items shared workers given) :
    ∃ given', Accounts g settings base works items shared' workers' given' := by
  -- What has been given up by then grows with the steps.
  induction hrun generalizing given with
  | stop shared workers => exact ⟨given, h⟩
  | step before after worker worker' shared shared' last workers hstep hrest ih =>
      have hjustified : worker.stage.Justified settings base :=
        h.justified worker (List.mem_append_right _ List.mem_cons_self)
      rcases Worker.step_advance g settings base shared shared' worker worker'
        (contains_eq_false_of_perm base.index shared.index _ h.index) hjustified hstep with
        ⟨found, added, hadvance⟩
      exact ih (given ++ added) (h.advance g settings base shared shared' works items before after
        worker worker' given added found hadvance)

/-- What is left of a run from `base` over the candidates `works` when all
    workers are done: `next` was made known, `given` was given up, and every
    candidate is settled. -/
structure Outcome (g : Graph) (settings : Settings) (base : Shared) (works : List Work)
    (items : Nat) (shared : Shared) (next : List Work) (given : List (Instantiation × Limit)) :
    Prop where
  index : shared.index.entries.Perm (base.index.entries ++ next.map Work.entry)
  next_mem : ∀ work ∈ next, work ∈ works ∧ exceeded? settings work = none
  abandoned : shared.abandoned.keys.Perm (base.abandoned.keys ++ given.map Prod.fst)
  reports : shared.diagnostics.Perm
    (base.diagnostics ++ given.map (abandonedDiagnostic g.table))
  given_mem : ∀ pair ∈ given, base.index.contains pair.1 = false ∧
    ∃ work ∈ works, work.inst = pair.1 ∧ exceeded? settings work = some pair.2
  expansions : shared.expansions = base.expansions + items
  settled : ∀ work ∈ works, Settled settings shared work

/-- Workers that are done have nothing in hand but what they found. -/
theorem Accounts.outcome (g : Graph) (settings : Settings) (base shared : Shared)
    (works : List Work) (items : Nat) (workers : List Worker)
    (given : List (Instantiation × Limit))
    (h : Accounts g settings base works items shared workers given)
    (hdone : ∀ worker ∈ workers, worker.IsDone) :
    Outcome g settings base works items shared (workers.flatMap Worker.found) given := by
  have howed : workers.flatMap (fun worker => worker.stage.owed) = [] := by
    rw [List.flatMap_eq_nil_iff]
    intro worker hworker
    rw [hdone worker hworker]
    rfl
  have hcounted : (workers.map fun worker => worker.stage.uncounted).sum = 0 := by
    rw [List.sum_eq_zero_iff_forall_eq_nat]
    intro n hn
    rcases List.mem_map.mp hn with ⟨worker, hworker, rfl⟩
    rw [hdone worker hworker]
    rfl
  refine ⟨h.index, h.found_mem, h.abandoned, ?_, h.given_mem, ?_, fun work hwork => ?_⟩
  · have hreports := h.reports
    rwa [howed, List.map_nil, List.append_nil] at hreports
  · have hsum := h.expansions
    omega
  · rcases h.settled work hwork with ⟨worker, hworker, hpending⟩ | hsettled
    · rw [hdone worker hworker] at hpending
      exact absurd hpending List.not_mem_nil
    · exact hsettled

/-- It does not matter which of two candidates for an instantiation comes first:
    unless it is known they are the same, or both exceed a limit and it has been
    given up before. -/
def Unanimous (settings : Settings) (base : Shared) (works : List Work) : Prop :=
  ∀ work ∈ works, ∀ other ∈ works, work.inst = other.inst →
    base.index.contains work.inst = false →
    work = other ∨ (base.abandoned.contains work.inst = true ∧
      exceeded? settings work ≠ none ∧ exceeded? settings other ≠ none)

namespace Outcome

variable {g : Graph} {settings : Settings} {base shared shared' : Shared} {works : List Work}
  {items : Nat} {next next' : List Work} {given given' : List (Instantiation × Limit)}

theorem index_keys (h : Outcome g settings base works items shared next given) :
    shared.index.keys.Perm (base.index.keys ++ next.map Work.inst) := by
  have hkeys := h.index.map Prod.fst
  rwa [List.map_append, List.map_map] at hkeys

/-- What was made known was not known before, and was made known once. -/
theorem next_nodup (h : Outcome g settings base works items shared next given) :
    (next.map Work.inst).Nodup ∧ ∀ work ∈ next, base.index.contains work.inst = false := by
  -- The keys of the index are without repetitions, and these are among them.
  have hnodup : (base.index.keys ++ next.map Work.inst).Nodup :=
    h.index_keys.nodup_iff.mp shared.index.nodup
  rcases List.nodup_append.mp hnodup with ⟨_, hnext, hdisjoint⟩
  refine ⟨hnext, fun work hwork => ?_⟩
  rw [FirstMap.contains_eq_false_iff]
  exact fun hknown => hdisjoint _ hknown _ (List.mem_map_of_mem hwork) rfl

/-- What was given up had not been given up before, and was given up once. -/
theorem given_nodup (h : Outcome g settings base works items shared next given) :
    (given.map Prod.fst).Nodup ∧ ∀ pair ∈ given, base.abandoned.contains pair.1 = false := by
  have hnodup : (base.abandoned.keys ++ given.map Prod.fst).Nodup :=
    h.abandoned.nodup_iff.mp shared.abandoned.nodup
  rcases List.nodup_append.mp hnodup with ⟨_, hgiven, hdisjoint⟩
  refine ⟨hgiven, fun pair hpair => ?_⟩
  rw [FirstMap.contains_eq_false_iff]
  exact fun hold => hdisjoint _ hold _ (List.mem_map_of_mem hpair) rfl

theorem contains_index_iff (h : Outcome g settings base works items shared next given)
    (i : Instantiation) : shared.index.contains i = true ↔
      base.index.contains i = true ∨ ∃ work ∈ next, work.inst = i := by
  simp [h.index_keys.mem_iff]

/-- What was made known is what is known now and was not before. -/
theorem mem_next_iff (h : Outcome g settings base works items shared next given)
    (i : Instantiation) (depth : Nat) : ⟨i, depth⟩ ∈ next ↔
      shared.index.get? i = some depth ∧ base.index.get? i = none := by
  rw [FirstMap.get?_eq_some_iff, h.index.mem_iff, List.mem_append, ← Option.not_isSome_iff_eq_none,
    ← FirstMap.contains_eq_isSome, Bool.not_eq_true]
  constructor
  · intro hnext
    exact ⟨Or.inr (List.mem_map_of_mem hnext), h.next_nodup.2 _ hnext⟩
  · rintro ⟨hold | hnext, hnew⟩
    · rw [FirstMap.contains_eq_false_iff] at hnew
      exact absurd (List.mem_map_of_mem hold) hnew
    · rcases List.mem_map.mp hnext with ⟨work, hwork, hentry⟩
      have hwork' : work = ⟨i, depth⟩ := by
        cases work
        cases hentry
        rfl
      rw [← hwork']
      exact hwork

theorem contains_abandoned_iff (h : Outcome g settings base works items shared next given)
    (i : Instantiation) : shared.abandoned.contains i = true ↔
      base.abandoned.contains i = true ∨ ∃ pair ∈ given, pair.1 = i := by
  simp [h.abandoned.mem_iff]

/-- What one run made known, any other made known at the same hops. -/
theorem next_subset (hall : Unanimous settings base works)
    (h : Outcome g settings base works items shared next given)
    (h' : Outcome g settings base works items shared' next' given') :
    ∀ work ∈ next, work ∈ next' := by
  intro work hwork
  rcases h.next_mem work hwork with ⟨hmem, hnone⟩
  have hnew := h.next_nodup.2 work hwork
  rcases h'.settled work hmem with hknown | ⟨_, hexceeds⟩
  · rcases (h'.contains_index_iff work.inst).mp hknown with hbase | ⟨other, hother, hinst⟩
    · rw [hnew] at hbase
      exact absurd hbase Bool.false_ne_true
    · -- Both runs took a candidate for it, and by agreement the same one.
      rcases hall work hmem other (h'.next_mem other hother).1 hinst.symm hnew with
        rfl | ⟨_, hexceeds, _⟩
      · exact hother
      · exact absurd hnone hexceeds
  · exact absurd hnone hexceeds

/-- What one run gave up, any other gave up for the same reason. -/
theorem given_subset (hall : Unanimous settings base works)
    (h : Outcome g settings base works items shared next given)
    (h' : Outcome g settings base works items shared' next' given') :
    ∀ pair ∈ given, pair ∈ given' := by
  intro pair hpair
  rcases h.given_mem pair hpair with ⟨hnew, work, hmem, hinst, hlimit⟩
  have hfresh := h.given_nodup.2 pair hpair
  rw [← hinst] at hnew hfresh
  -- It was not given up before, so all candidates for it are the same.
  have hsame : ∀ other ∈ works, work.inst = other.inst → work = other := by
    intro other hother heq
    rcases hall work hmem other hother heq hnew with hwork | ⟨hold, _⟩
    · exact hwork
    · rw [hfresh] at hold
      exact absurd hold Bool.false_ne_true
  rcases h'.settled work hmem with hknown | ⟨hgiven, _⟩
  · -- The other run cannot have made it known, for then a candidate would exceed nothing.
    rcases (h'.contains_index_iff work.inst).mp hknown with hbase | ⟨other, hother, heq⟩
    · rw [hnew] at hbase
      exact absurd hbase Bool.false_ne_true
    · rcases h'.next_mem other hother with ⟨hworks, hnone⟩
      rw [← hsame other hworks heq.symm, hlimit] at hnone
      exact absurd hnone (by simp only [reduceCtorEq, not_false_eq_true])
  · rcases (h'.contains_abandoned_iff work.inst).mp hgiven with hbase | ⟨other, hother, heq⟩
    · rw [hfresh] at hbase
      exact absurd hbase Bool.false_ne_true
    · rcases h'.given_mem other hother with ⟨_, work', hmem', hinst', hlimit'⟩
      rw [← hsame work' hmem' (heq.symm.trans hinst'.symm), hlimit, Option.some.injEq] at hlimit'
      have hpairs : pair = other := Prod.ext (hinst.symm.trans heq.symm) hlimit'
      rw [hpairs]
      exact hother

/-- Two outcomes from one start agree on what was made known and on what was
    given up. -/
theorem unique (hall : Unanimous settings base works)
    (h : Outcome g settings base works items shared next given)
    (h' : Outcome g settings base works items shared' next' given') :
    next.Perm next' ∧ given.Perm given' := by
  -- Lists without repetitions that include each other are the same up to order.
  constructor
  · rw [List.perm_ext_iff_of_nodup (List.Nodup.of_map _ h.next_nodup.1)
      (List.Nodup.of_map _ h'.next_nodup.1)]
    exact fun work => ⟨next_subset hall h h' work, next_subset hall h' h work⟩
  · rw [List.perm_ext_iff_of_nodup (List.Nodup.of_map _ h.given_nodup.1)
      (List.Nodup.of_map _ h'.given_nodup.1)]
    exact fun pair => ⟨given_subset hall h h' pair, given_subset hall h' h pair⟩

end Outcome

end Closure

end Monomorph

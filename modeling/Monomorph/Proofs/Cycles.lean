import Mathlib.Logic.Relation
import Monomorph.Proofs.Registration

/-!
# Where Cycles of Enclosing Declarations Are Cut

Which links to enclosing declarations survive registration, and what is said
about the others.

A declaration has one link, so the links as they were written make components in
the shape of a rho: tails that lead into at most one cycle. Repair looks at one
declaration after the other and drops the link of each that still leads back to
itself, and while it does so the links change under it. What it drops can be said
without that order. On each cycle it is the least member, and nothing else.

Two observations carry the proof. A declaration that leads back to itself after
some links were dropped did so before, along the same way, since there is no other
(`reflTransGen_of_cycle`). So no member of its cycle has lost its link, and a
smaller one would have been looked at and would have lost it. Conversely the walk
from the least member of a cycle meets only members, none of which has been looked
at yet, so it is still there.

A tail that leads into a cycle is left alone, and it is no harm that the walk from
it goes round: it ends when it meets something again, and the cycle is cut when its
own least member is looked at (`Table.walkBack_register`).

## Main definitions

* `IsLeastOnCycle`: The least of those on a cycle of a relation.
* `NamesOuter`: A declaration names another one as what encloses it.
* `EnclosureFault.Applies`: Why a declaration has to lose its link.
* `Links.CutBelow`: What repair has dropped so far.
* `linkFault?`, `enclosureFaults`: The links that are dropped, each with the reason.
* `Table.Within`: A declaration is linked to another one in the table.

## Theorems

* `transGen_back`: What follows on a cycle leads back.
* `reflTransGen_of_cycle`: A cycle that survives survives as a whole.
* `existsUnique_isLeastOnCycle`: A cycle has one least member.
* `Links.within_functional`, `Links.eq_of_within`: Links as a relation.
* `Links.reflTransGen_iff`, `Links.transGen_iff`: Being linked along several links.
* `Links.CutBelow.within_iff`: The links that are left so far.
* `Links.CutBelow.isOnCycle_iff`: What still leads back to itself is the least.
* `Links.cut_cutBelow`, `Links.foldl_cut_cutBelow`: What repair has done when it has looked
  at one more, and at all up to a number.
* `Links.mem_repair_iff`, `Links.nodup_repair`, `Links.within_repair_iff`: Exactly the
  least members of cycles are cut, once, and all others keep their link.
* `EnclosureFault.Applies.exists_get`: A fault applies to something that is declared.
* `link_cases`, `link_eq_ok_some_iff`, `link_eq_error_iff`: What becomes of a link as
  it was written.
* `eq_of_name_eq`, `namesOuter_functional`: A name is that of one declaration.
* `within_writtenLinks_iff`, `within_writtenLinks`: Links as they were written follow names.
* `nodup_registered`: Registered names differ.
* `linkFault?_eq_some_iff`, `mem_linkFaults_iff`, `mem_repair_writtenLinks_iff`: The links
  that could not be made, and those that are cut.
* `mem_enclosureFaults_iff`: Links are dropped for the reasons given, and no other.
* `NamesOuter.eq_cycle`, `enclosureFaults_nodup`: For one reason each.
* `Table.name_register`: The name of an entry.
* `Table.reported_eq_enclosureFaults`, `Table.filter_reported`: Each is reported once.
* `Table.links_register`, `Table.within_links`, `Table.within_register_iff`: The links that
  are left.
* `Table.exists_cut_of_cycle`: Each cycle loses one.
* `Links.mem_chain_iff`, `Links.mem_chain_length_iff`: What a chain holds.
* `Table.length_links`, `Table.links_acyclic`, `Table.not_transGen_within`: The links of a
  table lead outwards.
* `Table.chain_register_add`, `Table.encloses_register_iff`: Walks in the table end,
  and meet what encloses.
* `Table.walkBack_register`: So do the walks of repair, when they are made.
* `Table.register_repairs`: All of it for a list of declarations.
-/

namespace Monomorph

section Functional

variable {R S : DeclId → DeclId → Prop} (hfun : ∀ a b c, R a b → R a c → b = c)

include hfun

/-- Where nothing has two successors, whatever follows something on a cycle leads
    back to it. -/
theorem transGen_back {x y : DeclId} (hcycle : Relation.TransGen R x x)
    (h : Relation.ReflTransGen R x y) : Relation.TransGen R y x := by
  induction h with
  | refl => exact hcycle
  | @tail y z _ hstep ih =>
      -- The way back from the last but one goes through the last.
      rcases Relation.TransGen.head'_iff.mp ih with ⟨next, hnext, hrest⟩
      rw [hfun y z next hstep hnext]
      exact Relation.TransGen.trans_right hrest hcycle

/-- A cycle of a smaller relation is a whole cycle: what followed on it still
    does. -/
theorem reflTransGen_of_cycle (hsub : ∀ a b, S a b → R a b) {x y : DeclId}
    (hcycle : Relation.TransGen S x x) (h : Relation.ReflTransGen R x y) :
    Relation.ReflTransGen S x y := by
  have hfunS : ∀ a b c, S a b → S a c → b = c :=
    fun a b c hab hac => hfun a b c (hsub a b hab) (hsub a c hac)
  induction h with
  | refl => exact Relation.ReflTransGen.refl
  | @tail y z _ hstep ih =>
      -- The way back starts with a step of the smaller relation, and there is only one step.
      rcases Relation.TransGen.head'_iff.mp (transGen_back hfunS hcycle ih) with ⟨next, hnext, _⟩
      rw [hfun y z next hstep (hsub y next hnext)]
      exact ih.tail hnext

end Functional

/-- The least of those on a cycle: it leads back to itself, and to nothing smaller
    that leads back to it. -/
def IsLeastOnCycle (R : DeclId → DeclId → Prop) (id : DeclId) : Prop :=
  Relation.TransGen R id id ∧
    ∀ x, Relation.TransGen R id x → Relation.TransGen R x id → id ≤ x

/-- A cycle has exactly one least member. -/
theorem existsUnique_isLeastOnCycle {R : DeclId → DeclId → Prop}
    (hfun : ∀ a b c, R a b → R a c → b = c) (id : DeclId) (hcycle : Relation.TransGen R id id) :
    ∃! x, Relation.TransGen R id x ∧ IsLeastOnCycle R x := by
  classical
  have hex : ∃ x, Relation.TransGen R id x := ⟨id, hcycle⟩
  -- All that follows is on the cycle, so the least of it is the least of the cycle.
  have hback : ∀ x, Relation.TransGen R id x → Relation.TransGen R x id :=
    fun x hx => transGen_back hfun hcycle hx.to_reflTransGen
  have hleast : ∀ x, Relation.TransGen R id x → Nat.find hex ≤ x :=
    fun x hx => Nat.find_min' hex hx
  have hspec := Nat.find_spec hex
  refine ⟨Nat.find hex, ⟨hspec, (hback _ hspec).trans hspec, fun x hx _ => ?_⟩, ?_⟩
  · exact hleast x (hspec.trans hx)
  · -- Another least member would lie on the same cycle, so neither is greater.
    rintro x ⟨hx, _, hmin⟩
    exact Nat.le_antisymm (hmin _ ((hback x hx).trans hspec) ((hback _ hspec).trans hx))
      (hleast x hx)

namespace Links

/-- The declaration is linked to the other one. -/
def Within (links : Links) (id outer : DeclId) : Prop :=
  links.parent? id = some outer

theorem within_functional (links : Links) (a b c : DeclId) (hb : links.Within a b)
    (hc : links.Within a c) : b = c :=
  Option.some.inj (hb.symm.trans hc)

/-- As many links that lead to the same declarations are the same. -/
theorem eq_of_within (links links' : Links) (hlength : links.length = links'.length)
    (h : ∀ id outer, links.Within id outer ↔ links'.Within id outer) : links = links' := by
  refine List.ext_getElem hlength fun id hid hid' => ?_
  have hparent : links.parent? id = links'.parent? id := Option.ext (h id)
  simpa only [parent?, List.getElem?_eq_getElem hid, List.getElem?_eq_getElem hid',
    Option.join_some] using hparent

theorem reflTransGen_iff (links : Links) (id x : DeclId) :
    Relation.ReflTransGen links.Within id x ↔ ∃ n, links.ancestor? n id = some x := by
  constructor
  · intro h
    induction h using Relation.ReflTransGen.head_induction_on with
    | refl => exact ⟨0, rfl⟩
    | head hstep _ ih =>
        rcases ih with ⟨n, hn⟩
        exact ⟨n + 1, Option.bind_eq_some_iff.mpr ⟨_, hstep, hn⟩⟩
  · rintro ⟨n, hn⟩
    induction n generalizing id with
    | zero =>
        rw [Option.some.inj hn]
    | succ n ih =>
        rcases Option.bind_eq_some_iff.mp hn with ⟨outer, houter, hrest⟩
        exact Relation.ReflTransGen.head houter (ih outer hrest)

theorem transGen_iff (links : Links) (id x : DeclId) :
    Relation.TransGen links.Within id x ↔ ∃ n, links.ancestor? (n + 1) id = some x := by
  rw [Relation.TransGen.head'_iff]
  constructor
  · rintro ⟨outer, hstep, hrest⟩
    rcases (links.reflTransGen_iff outer x).mp hrest with ⟨n, hn⟩
    exact ⟨n, Option.bind_eq_some_iff.mpr ⟨outer, hstep, hn⟩⟩
  · rintro ⟨n, hn⟩
    rcases Option.bind_eq_some_iff.mp hn with ⟨outer, houter, hrest⟩
    exact ⟨outer, houter, (links.reflTransGen_iff outer x).mpr ⟨n, hrest⟩⟩

/-- Repair has looked at the first `m` declarations: of these the least members of
    cycles have lost their link, and nothing else has changed. -/
structure CutBelow (links : Links) (m : Nat) (state : Links × List DeclId) : Prop where
  parent? : ∀ x, state.1.parent? x = if x ∈ state.2 then none else links.parent? x
  mem_cuts : ∀ x, x ∈ state.2 ↔ x < m ∧ IsLeastOnCycle links.Within x
  nodup : state.2.Nodup

section Step

variable (links : Links) (m : Nat) (state : Links × List DeclId) (h : CutBelow links m state)
  (hrepaired : RepairedBelow links.length m state.1)

include h

theorem CutBelow.within_iff (x y : DeclId) :
    state.1.Within x y ↔ links.Within x y ∧ x ∉ state.2 := by
  unfold Within
  rw [h.parent? x]
  by_cases hx : x ∈ state.2
  · simp only [hx, if_true, reduceCtorEq, not_true_eq_false, and_false]
  · simp only [hx, if_false, not_false_eq_true, and_true]

include hrepaired

/-- What still leads back to itself when it is looked at is the least on its
    cycle. -/
theorem CutBelow.isOnCycle_iff : state.1.isOnCycle m = true ↔ IsLeastOnCycle links.Within m := by
  rw [Links.isOnCycle_iff state.1 hrepaired.inRange, ← transGen_iff]
  have hsub : ∀ a b, state.1.Within a b → links.Within a b :=
    fun a b hab => ((h.within_iff links m state a b).mp hab).1
  constructor
  · intro hcycle
    refine ⟨Relation.TransGen.mono hsub m m hcycle, fun x hx _ => Nat.le_of_not_lt fun hlt => ?_⟩
    -- A smaller member would lead back to itself as well, after having been looked at.
    have hforth := reflTransGen_of_cycle links.within_functional hsub hcycle hx.to_reflTransGen
    have hback := transGen_back state.1.within_functional hcycle hforth
    rcases (transGen_iff state.1 x x).mp (hback.trans_left hforth) with ⟨n, hn⟩
    exact hrepaired.acyclic x hlt n hn
  · rintro ⟨hcycle, hleast⟩
    -- Everything on the cycle is yet to be looked at, so the walk round it is still there.
    have hforth : ∀ x, Relation.TransGen links.Within m x →
        Relation.TransGen state.1.Within m x := by
      intro x hx
      induction hx with
      | single hstep =>
          refine .single ((h.within_iff links m state m _).mpr ⟨hstep, fun hcut => ?_⟩)
          exact Nat.lt_irrefl m ((h.mem_cuts m).mp hcut).1
      | @tail y z hy hstep ih =>
          refine ih.tail ((h.within_iff links m state y z).mpr ⟨hstep, fun hcut => ?_⟩)
          have hle := hleast y hy
            (transGen_back links.within_functional hcycle hy.to_reflTransGen)
          exact Nat.not_lt_of_le hle ((h.mem_cuts y).mp hcut).1
    exact hforth m hcycle

theorem cut_cutBelow : CutBelow links (m + 1) (cut state m) := by
  have hiff := h.isOnCycle_iff links m state hrepaired
  have hnew : m ∉ state.2 := fun hmem => Nat.lt_irrefl m ((h.mem_cuts m).mp hmem).1
  rw [cut_eq state hrepaired.inRange]
  by_cases hcycle : state.1.isOnCycle m = true
  · rw [if_pos hcycle]
    refine ⟨fun x => ?_, fun x => ?_, ?_⟩
    · by_cases hx : x = m <;> simp [h.parent?, hx]
    · rw [List.mem_append, List.mem_singleton, h.mem_cuts]
      constructor
      · rintro (⟨hlt, hleast⟩ | rfl)
        · exact ⟨Nat.lt_succ_of_lt hlt, hleast⟩
        · exact ⟨Nat.lt_succ_self _, hiff.mp hcycle⟩
      · rintro ⟨hlt, hleast⟩
        rcases Nat.lt_or_eq_of_le (Nat.le_of_lt_succ hlt) with hlt | heq
        · exact Or.inl ⟨hlt, hleast⟩
        · exact Or.inr heq
    · exact List.nodup_append.mpr ⟨h.nodup, List.nodup_singleton m, by
        rintro a ha b hb rfl
        exact hnew (List.mem_singleton.mp hb ▸ ha)⟩
  · -- Nothing is cut, and the one that was looked at is no least member.
    rw [if_neg hcycle]
    refine ⟨h.parent?, fun x => ?_, h.nodup⟩
    rw [h.mem_cuts]
    constructor
    · rintro ⟨hlt, hleast⟩
      exact ⟨Nat.lt_succ_of_lt hlt, hleast⟩
    · rintro ⟨hlt, hleast⟩
      refine ⟨Nat.lt_of_le_of_ne (Nat.le_of_lt_succ hlt) fun heq => ?_, hleast⟩
      exact hcycle (hiff.mpr (heq ▸ hleast))

end Step

theorem foldl_cut_cutBelow (links : Links) (hrange : links.InRange) (m : Nat) :
    CutBelow links m ((List.range m).foldl cut (links, [])) := by
  induction m with
  | zero =>
      refine ⟨fun x => ?_, fun x => ?_, List.nodup_nil⟩
      · simp only [List.range_zero, List.foldl_nil, List.not_mem_nil, if_false]
      · simp only [List.range_zero, List.foldl_nil, List.not_mem_nil, Nat.not_lt_zero, false_and]
  | succ m ih =>
      rw [List.range_succ, List.foldl_append]
      exact cut_cutBelow links m _ ih (foldl_cut_repairedBelow links hrange m)

section Repair

variable (links : Links) (hrange : links.InRange)

include hrange

/-- Exactly the least members of cycles lose their link. -/
theorem mem_repair_iff (id : DeclId) : id ∈ links.repair.2 ↔ IsLeastOnCycle links.Within id := by
  have hcuts := (foldl_cut_cutBelow links hrange links.length).mem_cuts id
  refine hcuts.trans ⟨And.right, fun hleast => ⟨?_, hleast⟩⟩
  rcases Relation.TransGen.head'_iff.mp hleast.1 with ⟨outer, hstep, _⟩
  exact parent?_eq_some_lt links id outer hstep

theorem nodup_repair : links.repair.2.Nodup :=
  (foldl_cut_cutBelow links hrange links.length).nodup

/-- All others keep theirs. -/
theorem within_repair_iff (id outer : DeclId) :
    links.repair.1.Within id outer ↔ links.Within id outer ∧ ¬ IsLeastOnCycle links.Within id := by
  rw [← mem_repair_iff links hrange]
  exact (foldl_cut_cutBelow links hrange links.length).within_iff links links.length _ id outer

end Repair

end Links

/-- The declaration with the first number names the one with the second as what
    encloses it, which is another one. -/
def NamesOuter (ds : List Declaration) (id outer : DeclId) : Prop :=
  outer ≠ id ∧ ∃ d e, ds[id]? = some d ∧ ds[outer]? = some e ∧ d.enclosing = some e.name

/-- Why the declaration with a number has to lose its link: it names nothing that
    is declared, it names itself, or it is the least on a cycle of declarations
    that name each other. -/
inductive EnclosureFault.Applies (ds : List Declaration) (id : DeclId) : EnclosureFault → Prop
  | unknown (d : Declaration) (name : String) (hget : ds[id]? = some d)
      (hname : d.enclosing = some name) (hnone : ∀ e ∈ ds, e.name ≠ name) :
      Applies ds id (.unknown name)
  | itself (d : Declaration) (hget : ds[id]? = some d) (hname : d.enclosing = some d.name) :
      Applies ds id .itself
  | cycle (hleast : IsLeastOnCycle (NamesOuter ds) id) : Applies ds id .cycle

/-- A fault applies to something that is declared. -/
theorem EnclosureFault.Applies.exists_get {ds : List Declaration} {id : DeclId}
    {fault : EnclosureFault} (h : fault.Applies ds id) : ∃ d, ds[id]? = some d := by
  cases h with
  | unknown d _ hget _ _ => exact ⟨d, hget⟩
  | itself d hget _ => exact ⟨d, hget⟩
  | cycle hleast =>
      rcases Relation.TransGen.head'_iff.mp hleast.1 with ⟨_, ⟨_, d, _, hget, _⟩, _⟩
      exact ⟨d, hget⟩

section Written

variable (ds : List Declaration) (hnodup : (ds.map Declaration.name).Nodup)

include hnodup

/-- What can become of a link as it was written. -/
theorem link_cases (id : DeclId) (d : Declaration) (hget : ds[id]? = some d) :
    (d.enclosing = none ∧ link (ds.map Declaration.name) id d = .ok none) ∨
    (∃ name, d.enclosing = some name ∧ (∀ e ∈ ds, e.name ≠ name) ∧
      link (ds.map Declaration.name) id d = .error (.unknown name)) ∨
    (d.enclosing = some d.name ∧ link (ds.map Declaration.name) id d = .error .itself) ∨
    ∃ outer, NamesOuter ds id outer ∧ link (ds.map Declaration.name) id d = .ok (some outer) := by
  unfold link
  cases henclosing : d.enclosing with
  | none => exact Or.inl ⟨rfl, rfl⟩
  | some name =>
      right
      simp only [List.findIdx?_map]
      -- The name is looked for among those that are registered, and may turn out to be its own.
      cases hfind : ds.findIdx? ((· == name) ∘ Declaration.name) with
      | none =>
          refine Or.inl ⟨name, rfl, fun e he heq => ?_, rfl⟩
          rw [List.findIdx?_eq_none_iff] at hfind
          exact absurd (hfind e he) (by simp only [Function.comp_apply, heq, beq_self_eq_true,
            Bool.true_eq_false, not_false_eq_true])
      | some outer =>
          right
          rcases (findIdx?_eq_some_iff_of_nodup Declaration.name ds hnodup name outer).mp hfind with
            ⟨e, houter, rfl⟩
          by_cases hself : outer = id
          · left
            rw [hself, hget, Option.some.injEq] at houter
            simp only [hself, if_true, houter, and_self]
          · right
            simp only [hself, if_false]
            exact ⟨outer, ⟨hself, d, e, hget, houter, henclosing⟩, rfl⟩

theorem eq_of_name_eq (id id' : DeclId) (d e : Declaration) (hd : ds[id]? = some d)
    (he : ds[id']? = some e) (hname : d.name = e.name) : id = id' := by
  have hfind := findIdx?_eq_some_iff_of_nodup Declaration.name ds hnodup e.name
  exact Option.some.inj (((hfind id).mpr ⟨d, hd, hname⟩).symm.trans ((hfind id').mpr ⟨e, he, rfl⟩))

theorem namesOuter_functional (a b c : DeclId) (hb : NamesOuter ds a b) (hc : NamesOuter ds a c) :
    b = c := by
  rcases hb with ⟨_, d, e, hd, he, hname⟩
  rcases hc with ⟨_, d', e', hd', he', hname'⟩
  rw [hd, Option.some.injEq] at hd'
  rw [← hd', hname, Option.some.injEq] at hname'
  exact eq_of_name_eq ds hnodup b c e e' he he' hname'

/-- A link is made to the declaration that is named, if that is another one. -/
theorem link_eq_ok_some_iff (id : DeclId) (d : Declaration) (hget : ds[id]? = some d)
    (outer : DeclId) :
    link (ds.map Declaration.name) id d = .ok (some outer) ↔ NamesOuter ds id outer := by
  constructor
  · intro h
    rcases link_cases ds hnodup id d hget with ⟨_, hlink⟩ | ⟨_, _, _, hlink⟩ | ⟨_, hlink⟩ |
      ⟨found, hfound, hlink⟩
    · rw [hlink, Except.ok.injEq] at h
      exact absurd h (by simp only [reduceCtorEq, not_false_eq_true])
    · rw [hlink] at h
      exact absurd h (by simp only [reduceCtorEq, not_false_eq_true])
    · rw [hlink] at h
      exact absurd h (by simp only [reduceCtorEq, not_false_eq_true])
    · rw [hlink, Except.ok.injEq, Option.some.injEq] at h
      rwa [← h]
  · -- Names tell declarations apart, so the search for the name ends at the one that has it.
    rintro ⟨hne, d', e, hd', he, hname⟩
    rw [hget, Option.some.injEq] at hd'
    rw [← hd'] at hname
    have hfind : (ds.map Declaration.name).findIdx? (· == e.name) = some outer := by
      rw [List.findIdx?_map]
      exact (findIdx?_eq_some_iff_of_nodup Declaration.name ds hnodup e.name outer).mpr
        ⟨e, he, rfl⟩
    unfold link
    simp only [hname, hfind, hne, if_false]

/-- The links as they were written are those to the declarations that are named. -/
theorem within_writtenLinks_iff (id outer : DeclId) :
    (writtenLinks ds).Within id outer ↔ NamesOuter ds id outer := by
  rw [Links.Within, parent?_writtenLinks]
  cases hget : ds[id]? with
  | none =>
      simp only [NamesOuter, hget, Option.bind_none, reduceCtorEq, false_and, exists_false,
        and_false]
  | some d =>
      rw [Option.bind_some, ← link_eq_ok_some_iff ds hnodup id d hget outer]
      cases link (ds.map Declaration.name) id d with
      | error fault => simp only [Except.toOption, Option.join_none, reduceCtorEq]
      | ok found => simp only [Except.toOption, Option.join_some, Except.ok.injEq]

theorem within_writtenLinks : (writtenLinks ds).Within = NamesOuter ds := by
  funext id outer
  exact propext (within_writtenLinks_iff ds hnodup id outer)

/-- A link is dropped as it was written for the first two reasons. -/
theorem link_eq_error_iff (id : DeclId) (d : Declaration) (hget : ds[id]? = some d)
    (fault : EnclosureFault) :
    link (ds.map Declaration.name) id d = .error fault ↔ fault.Applies ds id ∧ fault ≠ .cycle := by
  constructor
  · intro h
    -- Of the four outcomes the two in the middle are errors, each for its reason.
    rcases link_cases ds hnodup id d hget with ⟨_, hlink⟩ | ⟨name, hname, hall, hlink⟩ |
      ⟨hself, hlink⟩ | ⟨_, _, hlink⟩
    · rw [hlink] at h
      exact absurd h (by simp only [reduceCtorEq, not_false_eq_true])
    · rw [hlink, Except.error.injEq] at h
      rw [← h]
      exact ⟨.unknown d name hget hname hall, EnclosureFault.noConfusion⟩
    · rw [hlink, Except.error.injEq] at h
      rw [← h]
      exact ⟨.itself d hget hself, EnclosureFault.noConfusion⟩
    · rw [hlink] at h
      exact absurd h (by simp only [reduceCtorEq, not_false_eq_true])
  · -- A reason says what the search for the name comes to, and that decides the link.
    rintro ⟨happlies, hcycle⟩
    unfold link
    cases happlies with
    | unknown d' name hget' hname hnone =>
        rw [hget, Option.some.injEq] at hget'
        have hfind : (ds.map Declaration.name).findIdx? (· == name) = none := by
          rw [List.findIdx?_eq_none_iff]
          intro text htext
          rcases List.mem_map.mp htext with ⟨e, he, rfl⟩
          exact beq_eq_false_iff_ne.mpr (hnone e he)
        simp only [hget', hname, hfind]
    | itself d' hget' hname =>
        rw [hget, Option.some.injEq] at hget'
        have hfind : (ds.map Declaration.name).findIdx? (· == d.name) = some id := by
          rw [List.findIdx?_map]
          exact (findIdx?_eq_some_iff_of_nodup Declaration.name ds hnodup d.name id).mpr
            ⟨d, hget, rfl⟩
        rw [← hget'] at hname
        simp only [hname, hfind, if_true]
    | cycle _ => exact absurd rfl hcycle

end Written

/-- The reason for which the link of a declaration is dropped as it was written. -/
def linkFault? (names : List String) (pair : Declaration × DeclId) :
    Option (DeclId × EnclosureFault) :=
  match link names pair.2 pair.1 with
  | .ok _ => none
  | .error fault => some (pair.2, fault)

/-- The links that are dropped, each with the reason: those that could not be made
    as they were written, then those that are cut. -/
def enclosureFaults (declarations : List Declaration) : List (DeclId × EnclosureFault) :=
  (registered declarations).zipIdx.filterMap
      (linkFault? ((registered declarations).map Declaration.name)) ++
    (writtenLinks (registered declarations)).repair.2.map fun id => (id, .cycle)

section Faults

variable (declarations : List Declaration)

theorem nodup_registered : ((registered declarations).map Declaration.name).Nodup :=
  (registeredFrom_nodup [] declarations).1

theorem linkFault?_eq_some_iff (names : List String) (pair : Declaration × DeclId) (id : DeclId)
    (fault : EnclosureFault) :
    linkFault? names pair = some (id, fault) ↔
      pair.2 = id ∧ link names id pair.1 = .error fault := by
  unfold linkFault?
  constructor
  · intro h
    split at h
    · exact absurd h (by simp only [reduceCtorEq, not_false_eq_true])
    · rename_i found hlink
      simp only [Option.some.injEq, Prod.mk.injEq] at h
      rw [← h.1, ← h.2]
      exact ⟨rfl, hlink⟩
  · rintro ⟨rfl, hlink⟩
    simp only [hlink]

/-- Links are dropped as they were written for one of the first two reasons. -/
theorem mem_linkFaults_iff (ds : List Declaration) (hnodup : (ds.map Declaration.name).Nodup)
    (id : DeclId) (fault : EnclosureFault) :
    (id, fault) ∈ ds.zipIdx.filterMap (linkFault? (ds.map Declaration.name)) ↔
      fault.Applies ds id ∧ fault ≠ .cycle := by
  rw [List.mem_filterMap]
  constructor
  · rintro ⟨⟨d, place⟩, hpair, hfault⟩
    rcases (linkFault?_eq_some_iff _ _ id fault).mp hfault with ⟨rfl, hlink⟩
    have hget := List.mem_zipIdx_iff_getElem?.mp hpair
    exact (link_eq_error_iff ds hnodup place d hget fault).mp hlink
  · rintro ⟨happlies, hcycle⟩
    rcases happlies.exists_get with ⟨d, hget⟩
    refine ⟨(d, id), List.mem_zipIdx_iff_getElem?.mpr hget, ?_⟩
    exact (linkFault?_eq_some_iff _ _ id fault).mpr
      ⟨rfl, (link_eq_error_iff ds hnodup id d hget fault).mpr ⟨happlies, hcycle⟩⟩

theorem mem_repair_writtenLinks_iff (id : DeclId) :
    id ∈ (writtenLinks (registered declarations)).repair.2 ↔
      IsLeastOnCycle (NamesOuter (registered declarations)) id := by
  have hnodup := nodup_registered declarations
  rw [Links.mem_repair_iff _ (inRange_writtenLinks _), within_writtenLinks _ hnodup]

/-- Links are dropped for the reasons given, and for no other. -/
theorem mem_enclosureFaults_iff (id : DeclId) (fault : EnclosureFault) :
    (id, fault) ∈ enclosureFaults declarations ↔ fault.Applies (registered declarations) id := by
  rw [enclosureFaults, List.mem_append, mem_linkFaults_iff _ (nodup_registered declarations),
    List.mem_map]
  constructor
  · rintro (⟨happlies, _⟩ | ⟨cut, hcut, heq⟩)
    · exact happlies
    · rw [Prod.mk.injEq] at heq
      rw [← heq.1, ← heq.2]
      exact .cycle ((mem_repair_writtenLinks_iff declarations cut).mp hcut)
  · intro happlies
    by_cases hcycle : fault = .cycle
    · right
      subst hcycle
      cases happlies with
      | cycle hleast => exact ⟨id, (mem_repair_writtenLinks_iff declarations id).mpr hleast, rfl⟩
    · exact Or.inl ⟨happlies, hcycle⟩

/-- A declaration that names another one can lose its link to a cycle only. -/
theorem NamesOuter.eq_cycle {ds : List Declaration} {id outer : DeclId}
    (hnames : NamesOuter ds id outer) (hnodup : (ds.map Declaration.name).Nodup)
    (fault : EnclosureFault) (happlies : fault.Applies ds id) : fault = .cycle := by
  rcases hnames with ⟨hne, d, e, hd, he, hname⟩
  cases happlies with
  | unknown d' name hget hname' hnone =>
      rw [hd, Option.some.injEq] at hget
      rw [← hget, hname, Option.some.injEq] at hname'
      exact absurd hname' (hnone e (List.mem_of_getElem? he))
  | itself d' hget hname' =>
      rw [hd, Option.some.injEq] at hget
      rw [← hget, hname, Option.some.injEq] at hname'
      exact absurd (eq_of_name_eq ds hnodup outer id e d he hd hname') hne
  | cycle _ => rfl

/-- No link is dropped twice. -/
theorem enclosureFaults_nodup : ((enclosureFaults declarations).map Prod.fst).Nodup := by
  have hnodup := nodup_registered declarations
  rw [enclosureFaults, List.map_append, List.map_map]
  refine List.nodup_append.mpr ⟨?_, ?_, ?_⟩
  · -- Links that could not be made are looked at one by one, at different places.
    have hplaces : (registered declarations).zipIdx.Pairwise fun a b => a.2 ≠ b.2 := by
      rw [← List.pairwise_map (R := (· ≠ ·)), List.zipIdx_map_snd]
      exact List.nodup_range'
    refine List.pairwise_map.mpr (hplaces.filterMap _ fun a b hne f hf f' hf' => ?_)
    rw [← ((linkFault?_eq_some_iff _ a f.1 f.2).mp hf).1,
      ← ((linkFault?_eq_some_iff _ b f'.1 f'.2).mp hf').1]
    exact hne
  · have hid : Prod.fst ∘ (fun id : DeclId => (id, EnclosureFault.cycle)) = id := rfl
    rw [hid, List.map_id]
    exact Links.nodup_repair _ (inRange_writtenLinks _)
  · rintro a ha b hb rfl
    rcases List.mem_map.mp ha with ⟨⟨id, fault⟩, hmem, rfl⟩
    rcases List.mem_map.mp hb with ⟨cut, hcut, heq⟩
    rcases (mem_linkFaults_iff _ hnodup id fault).mp hmem with ⟨happlies, hcycle⟩
    rw [← show cut = id from heq] at happlies
    -- What is cut names another one, so it was not dropped before.
    rcases Relation.TransGen.head'_iff.mp ((mem_repair_writtenLinks_iff declarations cut).mp hcut).1
      with ⟨outer, hnames, _⟩
    exact hcycle (hnames.eq_cycle hnodup fault happlies)

end Faults

namespace Table

section Register

variable (declarations : List Declaration)

theorem name_register (id : DeclId) :
    (register declarations).1.name id =
      (((registered declarations).map Declaration.name)[id]?).getD "" := by
  rw [name, get?_register, List.getElem?_map]
  cases (registered declarations)[id]? with
  | none => rfl
  | some d => rfl

/-- What is reported about links is what is reported about those that are dropped. -/
theorem reported_eq_enclosureFaults :
    (register declarations).2 = (repeated declarations).map repeatedDiagnostic ++
      (enclosureFaults declarations).map fun fault =>
        fault.2.diagnostic ((register declarations).1.name fault.1) := by
  have hdropped : (registered declarations).zipIdx.filterMap
        (droppedLink? ((registered declarations).map Declaration.name)) =
      ((registered declarations).zipIdx.filterMap
        (linkFault? ((registered declarations).map Declaration.name))).map fun fault =>
          fault.2.diagnostic ((register declarations).1.name fault.1) := by
    rw [List.map_filterMap]
    refine List.filterMap_congr fun pair hpair => ?_
    -- Both look at the same link; one keeps the number and the other the name.
    have hname : (register declarations).1.name pair.2 = pair.1.name := by
      rw [name_register, List.getElem?_map, List.mem_zipIdx_iff_getElem?.mp hpair]
      rfl
    unfold droppedLink? linkFault?
    cases link ((registered declarations).map Declaration.name) pair.2 pair.1 with
    | ok found => rfl
    | error fault => simp only [Option.map_some, hname]
  rw [reported_register, hdropped, enclosureFaults, List.map_append, List.map_map,
    List.append_assoc]
  simp only [Function.comp_def, name_register]

/-- Each dropped link is reported once, and nothing else is reported in this way. -/
theorem filter_reported :
    (register declarations).2.filter (fun x => x.code = .invalidEnclosure) =
      (enclosureFaults declarations).map fun fault =>
        fault.2.diagnostic ((register declarations).1.name fault.1) := by
  have hrepeated : ((repeated declarations).map repeatedDiagnostic).filter
      (fun x => decide (x.code = .invalidEnclosure)) = [] := by
    rw [List.filter_eq_nil_iff]
    intro x hx
    rcases List.mem_map.mp hx with ⟨d, _, rfl⟩
    exact Bool.false_ne_true
  rw [reported_eq_enclosureFaults, List.filter_append, hrepeated, List.nil_append,
    List.filter_eq_self]
  intro x hx
  rcases List.mem_map.mp hx with ⟨fault, _, rfl⟩
  rfl

/-- The links of the table are those that repair leaves. -/
theorem links_register :
    (register declarations).1.links = (writtenLinks (registered declarations)).repair.1 := by
  have hlinks : enclosureLinks declarations = (writtenLinks (registered declarations)).repair.1 :=
    rfl
  rw [← hlinks]
  have hlength := (enclosureLinks_acyclic declarations).1
  refine List.ext_getElem? fun id => ?_
  rw [links, List.getElem?_map]
  change ((register declarations).1.get? id).map Entry.enclosing = _
  rw [get?_register, Option.map_map]
  by_cases hid : id < (registered declarations).length
  · rw [List.getElem?_eq_getElem hid, List.getElem?_eq_getElem (hlength ▸ hid), Option.map_some,
      Function.comp_apply, entryOf, Links.parent?, List.getElem?_eq_getElem (hlength ▸ hid),
      Option.join_some]
  · rw [List.getElem?_eq_none (Nat.le_of_not_lt hid),
      List.getElem?_eq_none (hlength ▸ Nat.le_of_not_lt hid)]
    rfl

end Register

/-- A declaration is linked to another one in the table. -/
def Within (t : Table) (id outer : DeclId) : Prop :=
  ∃ entry, t.get? id = some entry ∧ entry.enclosing = some outer

theorem within_links (t : Table) : t.links.Within = t.Within := by
  funext id outer
  refine propext ⟨t.parent?_links_eq_some id outer, ?_⟩
  rintro ⟨entry, hget, henclosing⟩
  rw [Links.Within, Links.parent?, links, List.getElem?_map]
  change ((t.get? id).map Entry.enclosing).join = some outer
  rw [hget, Option.map_some, Option.join_some, henclosing]

/-- The links that are left are to the declarations that are named, those with a
    fault apart. -/
theorem within_register_iff (declarations : List Declaration) (id outer : DeclId) :
    (register declarations).1.Within id outer ↔
      NamesOuter (registered declarations) id outer ∧
        ∀ fault : EnclosureFault, ¬ fault.Applies (registered declarations) id := by
  have hnodup := nodup_registered declarations
  rw [← within_links, links_register,
    Links.within_repair_iff _ (inRange_writtenLinks _), within_writtenLinks _ hnodup]
  -- What names another one has a fault only if it is the least on a cycle.
  refine and_congr_right fun hnames => ⟨fun hleast fault happlies => ?_, fun hnone hleast => ?_⟩
  · have hcycle := hnames.eq_cycle hnodup fault happlies
    subst hcycle
    cases happlies with
    | cycle hfound => exact hleast hfound
  · exact hnone .cycle (.cycle hleast)

/-- Of the declarations on a cycle the least one loses its link, and only that. -/
theorem exists_cut_of_cycle (declarations : List Declaration) (id : DeclId)
    (hcycle : Relation.TransGen (NamesOuter (registered declarations)) id id) :
    ∃ x, IsLeastOnCycle (NamesOuter (registered declarations)) x ∧
      Relation.TransGen (NamesOuter (registered declarations)) id x ∧
      ∀ y, Relation.TransGen (NamesOuter (registered declarations)) id y →
        ((∀ outer, ¬ (register declarations).1.Within y outer) ↔ y = x) := by
  have hnodup := nodup_registered declarations
  have hfun := namesOuter_functional _ hnodup
  rcases existsUnique_isLeastOnCycle hfun id hcycle with ⟨x, ⟨hx, hleast⟩, hunique⟩
  refine ⟨x, hleast, hx, fun y hy => ⟨fun hnone => ?_, ?_⟩⟩
  · -- It names another one, so a missing link has been cut.
    rcases Relation.TransGen.head'_iff.mp (transGen_back hfun hcycle hy.to_reflTransGen) with
      ⟨outer, hnames, _⟩
    have hfault : ∃ fault : EnclosureFault, fault.Applies (registered declarations) y := by
      by_contra hall
      exact hnone outer ((within_register_iff declarations y outer).mpr
        ⟨hnames, fun fault happlies => hall ⟨fault, happlies⟩⟩)
    rcases hfault with ⟨fault, happlies⟩
    have heq := hnames.eq_cycle hnodup fault happlies
    subst heq
    cases happlies with
    | cycle hleast' => exact hunique y ⟨hy, hleast'⟩
  · rintro rfl outer hwithin
    exact ((within_register_iff declarations y outer).mp hwithin).2 .cycle (.cycle hleast)

end Table

namespace Links

/-- The chain of a declaration holds what is fewer links away than it has room
    for. -/
theorem mem_chain_iff (links : Links) (fuel : Nat) (id x : DeclId) :
    x ∈ links.chain fuel id ↔ ∃ n < fuel, links.ancestor? n id = some x := by
  induction fuel generalizing id with
  | zero => simp only [chain, List.not_mem_nil, Nat.not_lt_zero, false_and, exists_false]
  | succ fuel ih =>
      rw [chain, List.mem_cons]
      constructor
      · rintro (rfl | hmem)
        · exact ⟨0, Nat.succ_pos fuel, rfl⟩
        · cases hparent : links.parent? id with
          | none =>
              rw [hparent] at hmem
              exact absurd hmem List.not_mem_nil
          | some outer =>
              rw [hparent] at hmem
              rcases (ih outer).mp hmem with ⟨n, hn, hx⟩
              exact ⟨n + 1, Nat.succ_lt_succ hn, Option.bind_eq_some_iff.mpr ⟨outer, hparent, hx⟩⟩
      · -- It is the declaration itself, or as far from the parent with one link less.
        rintro ⟨n, hn, hx⟩
        cases n with
        | zero => exact Or.inl (Option.some.inj hx).symm
        | succ n =>
            rcases Option.bind_eq_some_iff.mp hx with ⟨outer, hparent, hrest⟩
            rw [hparent]
            exact Or.inr ((ih outer).mpr ⟨n, Nat.lt_of_succ_lt_succ hn, hrest⟩)

/-- Where nothing leads back to itself, a chain with room for all declarations holds
    everything that lies further out. -/
theorem mem_chain_length_iff (links : Links) (hrange : links.InRange) (hacyclic : links.Acyclic)
    (id x : DeclId) (hid : id < links.length) :
    x ∈ links.chain links.length id ↔ Relation.ReflTransGen links.Within id x := by
  rw [mem_chain_iff, reflTransGen_iff]
  constructor
  · rintro ⟨n, _, hx⟩
    exact ⟨n, hx⟩
  · rintro ⟨n, hx⟩
    refine ⟨n, Nat.lt_of_not_le fun hle => ?_, hx⟩
    rcases exists_ancestor?_of_le links links.length n id x hle hx with ⟨y, hy⟩
    rw [ancestor?_length_eq_none links hrange hacyclic id hid] at hy
    exact absurd hy (by simp only [reduceCtorEq, not_false_eq_true])

end Links

namespace Table

section Walks

variable (declarations : List Declaration)

@[simp]
theorem length_links (t : Table) : t.links.length = t.size :=
  List.length_map _

theorem links_acyclic :
    (register declarations).1.links.InRange ∧ (register declarations).1.links.Acyclic := by
  rw [links_register]
  exact (enclosureLinks_acyclic declarations).2

/-- Nothing leads back to itself. -/
theorem not_transGen_within (id : DeclId) :
    ¬ Relation.TransGen (register declarations).1.Within id id := by
  intro hcycle
  rw [← within_links] at hcycle
  rcases (Links.transGen_iff _ id id).mp hcycle with ⟨n, hn⟩
  exact (links_acyclic declarations).2 n id hn

/-- A walk outwards has ended before it has met as many declarations as there
    are. -/
theorem chain_register_add (id : DeclId) (hid : id < (register declarations).1.size) (more : Nat) :
    (register declarations).1.links.chain ((register declarations).1.size + more) id =
      (register declarations).1.chain id := by
  rcases links_acyclic declarations with ⟨hrange, hacyclic⟩
  rw [← length_links] at hid
  rw [chain, ← length_links]
  exact Links.chain_add _ _ more id (Links.ancestor?_length_eq_none _ hrange hacyclic id hid)

/-- One declaration encloses another where the walk outwards from that meets it. -/
theorem encloses_register_iff (outer inner : DeclId)
    (hinner : inner < (register declarations).1.size) :
    (register declarations).1.encloses outer inner = true ↔
      Relation.ReflTransGen (register declarations).1.Within inner outer := by
  rcases links_acyclic declarations with ⟨hrange, hacyclic⟩
  rw [← length_links] at hinner
  rw [encloses, List.contains_iff_mem, chain, ← length_links, ← within_links]
  exact Links.mem_chain_length_iff _ hrange hacyclic inner outer hinner

/-- The walk that looks for a way back from a declaration ends, and there is one where
    the declaration is the least on a cycle. -/
theorem walkBack_register (id : DeclId) (more : Nat) :
    let links := ((List.range id).foldl Links.cut (writtenLinks (registered declarations), [])).1
    ∃ back, links.walkBack id ((register declarations).1.size + more) [id] (links.parent? id) =
        some back ∧
      (back = true ↔ IsLeastOnCycle (NamesOuter (registered declarations)) id) := by
  intro links
  -- The links when a declaration is looked at are those that the steps before it have left.
  have hrange := inRange_writtenLinks (registered declarations)
  have hbelow := Links.foldl_cut_repairedBelow _ hrange id
  have hcut := Links.foldl_cut_cutBelow _ hrange id
  have hsize : (register declarations).1.size = links.length := by
    simp [links, hbelow.length_eq]
  refine ⟨links.isOnCycle id, ?_, ?_⟩
  · rw [hsize]
    exact links.walkBack_eq_isOnCycle hbelow.inRange id more
  · rw [← within_writtenLinks _ (nodup_registered declarations)]
    exact hcut.isOnCycle_iff _ id _ hbelow

end Walks

/-- Registration leaves a forest. Every registered declaration keeps the link to the
    one it names, unless that is not there, is itself, or it is the least on a cycle
    of declarations that name each other; each of these is reported once and in no
    other way. A cycle loses the link of its least member and no other. Afterwards
    formals are those of what encloses, followed by its own, and walks outwards end
    and meet exactly what encloses. The walks by which cycles are found end as well,
    although some go round in circles when they are made: from each declaration, with
    the links as they are when it is looked at, in no more turns than there are
    declarations. They come back from the least members of cycles and from nowhere
    else. -/
theorem register_repairs (declarations : List Declaration) :
    let ds := registered declarations
    let t := (register declarations).1
    (∀ id < t.size, ∀ more,
      let links := ((List.range id).foldl Links.cut (writtenLinks ds, [])).1
      ∃ back, links.walkBack id (t.size + more) [id] (links.parent? id) = some back ∧
        (back = true ↔ IsLeastOnCycle (NamesOuter ds) id)) ∧
    (∀ id, (t.get? id).map (fun entry => (entry.name, entry.ownParams)) =
      ds[id]?.map fun d => (d.name, d.typeParams)) ∧
    (∀ id, ¬ Relation.TransGen t.Within id id) ∧
    (∀ id outer, t.Within id outer ↔
      NamesOuter ds id outer ∧ ∀ fault : EnclosureFault, ¬ fault.Applies ds id) ∧
    (∃ faults : List (DeclId × EnclosureFault), (faults.map Prod.fst).Nodup ∧
      (∀ id fault, (id, fault) ∈ faults ↔ fault.Applies ds id) ∧
      (register declarations).2.filter (fun x => x.code = .invalidEnclosure) =
        faults.map fun fault => fault.2.diagnostic (t.name fault.1)) ∧
    (∀ id, Relation.TransGen (NamesOuter ds) id id →
      ∃ x, IsLeastOnCycle (NamesOuter ds) x ∧ Relation.TransGen (NamesOuter ds) id x ∧
        ∀ y, Relation.TransGen (NamesOuter ds) id y → ((∀ outer, ¬ t.Within y outer) ↔ y = x)) ∧
    (∀ id entry, t.get? id = some entry →
      entry.formals = entry.enclosing.elim [] t.formals ++ entry.ownParams) ∧
    (∀ id < t.size, ∀ more, t.links.chain (t.size + more) id = t.chain id) ∧
    ∀ outer, ∀ inner < t.size,
      (t.encloses outer inner = true ↔ Relation.ReflTransGen t.Within inner outer) := by
  intro ds t
  refine ⟨fun id _ more => walkBack_register declarations id more, fun id => ?_,
    not_transGen_within declarations, within_register_iff declarations,
    ⟨enclosureFaults declarations, enclosureFaults_nodup declarations,
      mem_enclosureFaults_iff declarations, filter_reported declarations⟩,
    exists_cut_of_cycle declarations, (register_isNested declarations).formals_eq,
    chain_register_add declarations, encloses_register_iff declarations⟩
  rw [get?_register, Option.map_map]
  rfl

end Table

namespace Ring

/-- A tail that leads into a cycle of three, one that names itself, one that names
    nothing, and a repetition that would have closed another cycle. -/
def declarations : List Declaration :=
  [{ name := "Tail", kind := .type, typeParams := ["T"], enclosing := some "B" },
   { name := "A", kind := .type, typeParams := ["U"], enclosing := some "B" },
   { name := "B", kind := .type, typeParams := ["V"], enclosing := some "C" },
   { name := "C", kind := .type, typeParams := ["W"], enclosing := some "A" },
   { name := "Own", kind := .type, enclosing := some "Own" },
   { name := "Lost", kind := .type, enclosing := some "Nowhere" },
   { name := "A", kind := .type, enclosing := some "Tail" }]

end Ring

-- The walk from the tail goes round in the ring. Three turns are not enough to see that.
example : (writtenLinks (registered Ring.declarations)).walkBack 0 6 [0] (some 2) = some false ∧
    (writtenLinks (registered Ring.declarations)).walkBack 0 3 [0] (some 2) = none := by
  decide +kernel

example : (Table.register Ring.declarations).1.entries.map Entry.enclosing =
    [some 2, none, some 3, some 1, none, none] := by
  decide +kernel

example : (Table.register Ring.declarations).1.entries.map Entry.formals =
    [["U", "W", "V", "T"], ["U"], ["U", "W", "V"], ["U", "W"], [], []] := by
  decide +kernel

end Monomorph

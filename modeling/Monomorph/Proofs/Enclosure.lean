import Mathlib.Data.Finset.Card
import Mathlib.Data.Nat.Find
import Monomorph.Table.Register

/-!
# Enclosing Declarations

Why following links to enclosing declarations always comes to an end, and what
that says about formals.

As they are written, links may go round in circles. Repair walks over the
declarations once and drops the link of each that still leads back to itself.
Both the walk that looks for a way back and the walk that later collects formals
are counted, and the count has to be shown to be enough. The reason is the same
for both. There are only so many declarations, so a walk that takes more hops
than that has been somewhere twice (`exists_repeat`). A walk that leads back to
its start and is the shortest to do so has been nowhere twice before
(`isOnCycle_iff`), and where nothing leads back to itself no walk has been
anywhere twice at all (`ancestor?_length_eq_none`).

The walk of repair remembers what it has met, and gives up when it meets something
again that is not its start. That this loses nothing is the invariant `WalkedTo`. What
was met are the declarations at the distances so far, each once, so every turn uses
one of them up, and a walk that runs into itself goes round there for ever and never
comes back to its start (`WalkedTo.ne_start`).

Dropping a link can only shorten walks. What was found not to lead back to
itself therefore stays that way while later declarations are looked at, and one
pass is enough (`repair_acyclic`).

`Table.IsNested` is the fact that the rest of the library uses: the formals of a
declaration are those of the one that encloses it, followed by its own. From it
follows that what encloses a declaration lends it a first part of its formals
(`formals_prefix_of_encloses`).

## Main definitions

* `Links.ancestor?`: The declaration a number of links further out.
* `Links.InRange`: Every link leads to a declaration.
* `Links.Acyclic`: Nothing leads back to itself.
* `Links.leadsTo`, `Links.isOnCycle`: Whether there is a way back, without a memory.
* `Links.WalkedTo`: What a walk has met so far.
* `Links.RepairedBelow`: Repair has looked at the first declarations.
* `enclosureLinks`: The links of registered declarations after repair.
* `Table.IsNested`: Formals are those of what encloses, followed by its own.

## Theorems

* `Links.parent?_eq_some_lt`: Only a declaration has a link.
* `Links.ancestor?_add`, `Links.ancestor?_one`: Walking on from where one is.
* `Links.exists_ancestor?_of_le`, `Links.ancestor?_lt`: A walk passes through
  declarations.
* `Links.exists_repeat`: A long walk has been somewhere twice.
* `Links.leadsTo_iff`, `Links.isOnCycle_iff`: The counted walk finds a way back
  whenever there is one.
* `Links.WalkedTo.eq_of_ancestor?`, `Links.WalkedTo.length_le`: What was met was met
  once, so there is not too much of it.
* `Links.WalkedTo.push`: One turn of the walk.
* `Links.WalkedTo.ne_start`: A walk that runs into itself does not come back.
* `Links.WalkedTo.walkBack_eq`, `Links.walkBack_eq_isOnCycle`: The walk ends and says
  whether there is a way back.
* `Links.cut_eq`: What looking at a declaration does to its link.
* `Links.parent?_set_none`, `Links.ancestor?_of_set_none`: Dropping a link only
  shortens walks.
* `Links.cut_repairedBelow`, `Links.foldl_cut_repairedBelow`: One step of repair, and
  several.
* `Links.repair_acyclic`: After repair nothing leads back to itself.
* `Links.ancestor?_length_eq_none`: Then no walk is long.
* `Links.chain_add`: A chain that has ended does not grow.
* `Links.chain_parent`: A chain is a declaration and the chain of what encloses
  it.
* `link_lt`, `inRange_links`, `enclosureLinks_acyclic`: Links of registered declarations.
* `Table.entries_register`, `Table.get?_register`, `Table.lt_size_register`,
  `Table.formals_register`: The entries of a registered table.
* `Table.register_isNested`: A registered table is nested.
* `Table.lt_size_of_get?`, `Table.formals_of_get?`, `Table.parent?_links_eq_some`: Reading
  an entry.
* `Table.formals_prefix_of_mem_chain`, `Table.formals_prefix_of_encloses`: What encloses
  lends its formals.
-/

namespace Monomorph

namespace Links

/-- The declaration a number of links further out. -/
def ancestor? (links : Links) : Nat → DeclId → Option DeclId
  | 0, id => some id
  | n + 1, id => (links.parent? id).bind (ancestor? links n)

/-- Every link leads to a declaration. -/
def InRange (links : Links) : Prop :=
  ∀ id parent, links.parent? id = some parent → parent < links.length

/-- No declaration is further out than itself. -/
def Acyclic (links : Links) : Prop :=
  ∀ n id, links.ancestor? (n + 1) id ≠ some id

/-- Whether following links from `id` leads to `goal` in at most `fuel`
    hops. -/
def leadsTo (links : Links) (goal : DeclId) : Nat → DeclId → Bool
  | 0, _ => false
  | fuel + 1, id =>
    match links.parent? id with
    | none => false
    | some parent => parent == goal || leadsTo links goal fuel parent

/-- Whether following links from `id` leads back to it. A way back that exists
    has at most as many hops as there are declarations. -/
def isOnCycle (links : Links) (id : DeclId) : Bool :=
  links.leadsTo id links.length id

theorem parent?_eq_some_lt (links : Links) (id parent : DeclId)
    (h : links.parent? id = some parent) : id < links.length := by
  by_contra hge
  rw [parent?, List.getElem?_eq_none (Nat.le_of_not_lt hge)] at h
  exact absurd h (by simp only [Option.join_none, reduceCtorEq, not_false_eq_true])

theorem ancestor?_add (links : Links) (m n : Nat) (id : DeclId) :
    links.ancestor? (m + n) id = (links.ancestor? m id).bind (links.ancestor? n) := by
  induction m generalizing id with
  | zero => rw [Nat.zero_add, ancestor?, Option.bind_some]
  | succ m ih =>
      rw [Nat.add_right_comm, ancestor?, ancestor?]
      cases links.parent? id with
      | none => rfl
      | some parent =>
          rw [Option.bind_some, Option.bind_some]
          exact ih parent

@[simp]
theorem ancestor?_one (links : Links) (id : DeclId) :
    links.ancestor? 1 id = links.parent? id := by
  rw [ancestor?]
  cases links.parent? id with
  | none => rfl
  | some parent => rfl

/-- On the way to a declaration further out there is one at every distance. -/
theorem exists_ancestor?_of_le (links : Links) (m n : Nat) (id x : DeclId) (hle : m ≤ n)
    (h : links.ancestor? n id = some x) : ∃ y, links.ancestor? m id = some y := by
  rw [show n = m + (n - m) by omega, ancestor?_add] at h
  rcases Option.bind_eq_some_iff.mp h with ⟨y, hy, _⟩
  exact ⟨y, hy⟩

theorem ancestor?_lt (links : Links) (hrange : links.InRange) (n : Nat) (id x : DeclId)
    (hid : id < links.length) (h : links.ancestor? n id = some x) : x < links.length := by
  induction n generalizing id with
  | zero =>
      rw [ancestor?, Option.some.injEq] at h
      rw [← h]
      exact hid
  | succ n ih =>
      rcases Option.bind_eq_some_iff.mp h with ⟨parent, hparent, hrest⟩
      exact ih parent (hrange id parent hparent) hrest

/-- A walk of as many hops as there are declarations has been somewhere
    twice. -/
theorem exists_repeat (links : Links) (hrange : links.InRange) (n : Nat) (id x : DeclId)
    (hid : id < links.length) (hn : links.length ≤ n) (h : links.ancestor? n id = some x) :
    ∃ a b, a < b ∧ b ≤ links.length ∧ links.ancestor? a id = links.ancestor? b id := by
  -- The places at distance `0` to `length` are one more than there are declarations.
  have hplace : ∀ m ∈ Finset.range (links.length + 1),
      ((links.ancestor? m id).getD 0) ∈ Finset.range links.length := by
    intro m hm
    rcases exists_ancestor?_of_le links m n id x
      (by have := Finset.mem_range.mp hm; omega) h with ⟨y, hy⟩
    rw [hy, Option.getD_some, Finset.mem_range]
    exact ancestor?_lt links hrange m id y hid hy
  -- So two of them are the same, in one order or the other.
  rcases Finset.exists_ne_map_eq_of_card_lt_of_maps_to
    (by rw [Finset.card_range, Finset.card_range]; omega) hplace with ⟨a, ha, b, hb, hne, heq⟩
  rw [Finset.mem_range] at ha hb
  have hsame : links.ancestor? a id = links.ancestor? b id := by
    rcases exists_ancestor?_of_le links a n id x (by omega) h with ⟨y, hy⟩
    rcases exists_ancestor?_of_le links b n id x (by omega) h with ⟨z, hz⟩
    rw [hy, hz, Option.getD_some, Option.getD_some] at heq
    rw [hy, hz, heq]
  rcases Nat.lt_or_gt_of_ne hne with hlt | hgt
  · exact ⟨a, b, hlt, by omega, hsame⟩
  · exact ⟨b, a, hgt, by omega, hsame.symm⟩

theorem leadsTo_iff (links : Links) (goal : DeclId) (fuel : Nat) (id : DeclId) :
    links.leadsTo goal fuel id = true ↔ ∃ n < fuel, links.ancestor? (n + 1) id = some goal := by
  induction fuel generalizing id with
  | zero => simp only [leadsTo, Bool.false_eq_true, Nat.not_lt_zero, false_and, exists_false]
  | succ fuel ih =>
      rw [leadsTo]
      cases hparent : links.parent? id with
      | none =>
          simp only [ancestor?, hparent, Option.bind_none, reduceCtorEq, and_false, exists_false,
            Bool.false_eq_true]
      | some parent =>
          simp only [Bool.or_eq_true, beq_iff_eq, ih, ancestor?, hparent, Option.bind_some]
          -- The goal is the parent itself, or it is as far from the parent with one hop less.
          constructor
          · rintro (rfl | ⟨n, hn, hgoal⟩)
            · exact ⟨0, by omega, rfl⟩
            · exact ⟨n + 1, by omega, hgoal⟩
          · rintro ⟨n, hn, hgoal⟩
            cases n with
            | zero => exact Or.inl (Option.some.inj hgoal)
            | succ n => exact Or.inr ⟨n, by omega, hgoal⟩

/-- A way back that exists has one that is short enough to be found. The
    shortest way back has been nowhere twice before its end, for else the part
    between the two visits could be left out. -/
theorem isOnCycle_iff (links : Links) (hrange : links.InRange) (id : DeclId) :
    links.isOnCycle id = true ↔ ∃ n, links.ancestor? (n + 1) id = some id := by
  rw [isOnCycle, leadsTo_iff]
  constructor
  · rintro ⟨n, _, h⟩
    exact ⟨n, h⟩
  · intro hex
    classical
    refine ⟨Nat.find hex, ?_, Nat.find_spec hex⟩
    have hback := Nat.find_spec hex
    by_contra hge
    have hid : id < links.length := by
      rcases Option.bind_eq_some_iff.mp hback with ⟨parent, hparent, _⟩
      exact parent?_eq_some_lt links id parent hparent
    rcases exists_repeat links hrange _ id id hid (by omega) hback with ⟨a, b, hlt, hb, hsame⟩
    -- Leaving out what lies between the two visits gives a shorter way back.
    have hshort : links.ancestor? (a + (Nat.find hex - b) + 1) id = some id := by
      rw [show Nat.find hex + 1 = b + (Nat.find hex - b + 1) by omega, ancestor?_add, ← hsame,
        ← ancestor?_add] at hback
      exact hback
    have hmin := Nat.find_min' hex hshort
    omega

section WalkBack

variable (links : Links) (id : DeclId)

/-- What the walk outwards from `id` has met are the declarations at the distances so
    far, no two of which are the same. -/
structure WalkedTo (seen : List DeclId) : Prop where
  start : id < links.length
  nonempty : 0 < seen.length
  met : ∀ m < seen.length, seen[m]? = links.ancestor? m id
  nodup : seen.Nodup

variable {links id} {seen : List DeclId}

/-- A walk that has met one declaration at two distances has met them at the same. -/
theorem WalkedTo.eq_of_ancestor? (h : WalkedTo links id seen) {m n : Nat} (hm : m < seen.length)
    (hn : n < seen.length) (heq : links.ancestor? m id = links.ancestor? n id) : m = n := by
  rw [← h.met m hm, ← h.met n hn] at heq
  exact (List.getElem?_inj hm h.nodup).mp heq

theorem WalkedTo.push (h : WalkedTo links id seen) {parent : DeclId}
    (hnext : links.ancestor? seen.length id = some parent) (hnew : parent ∉ seen) :
    WalkedTo links id (seen ++ [parent]) := by
  refine ⟨h.start, ?_, fun m hm => ?_, ?_⟩
  · rw [List.length_append]
    exact Nat.lt_of_lt_of_le h.nonempty (Nat.le_add_right _ _)
  · -- The new one is at the distance that comes next.
    rw [List.length_append, List.length_singleton] at hm
    rcases Nat.lt_or_eq_of_le (Nat.le_of_lt_succ hm) with hlt | rfl
    · rw [List.getElem?_append_left hlt, h.met m hlt]
    · rw [List.getElem?_concat_length, hnext]
  · rw [List.nodup_append]
    refine ⟨h.nodup, List.nodup_singleton parent, ?_⟩
    rintro a ha b hb rfl
    exact hnew (List.mem_singleton.mp hb ▸ ha)

/-- There is no more to be met than there are declarations. -/
theorem WalkedTo.length_le (h : WalkedTo links id seen) (hrange : links.InRange) :
    seen.length ≤ links.length := by
  have hsubset : seen ⊆ List.range links.length := by
    intro x hx
    rcases List.mem_iff_getElem?.mp hx with ⟨m, hm⟩
    rw [h.met m (List.getElem?_eq_some_iff.mp hm).1] at hm
    exact List.mem_range.mpr (ancestor?_lt links hrange m id x h.start hm)
  have hle := (List.subperm_of_subset h.nodup hsubset).length_le
  rwa [List.length_range] at hle

/-- A walk that ends, or runs into something else that it has met, does not come
    back later. -/
theorem WalkedTo.ne_start (h : WalkedTo links id seen)
    (hend : ∀ parent, links.ancestor? seen.length id = some parent → parent ∈ seen ∧ parent ≠ id)
    (n : Nat) : links.ancestor? (n + 1) id ≠ some id := by
  -- On the distance: what lies beyond those that were met lies a round further in.
  induction n using Nat.strong_induction_on with
  | _ n ih =>
      intro hback
      rcases Nat.lt_or_ge (n + 1) seen.length with hlt | hge
      · have hzero := h.eq_of_ancestor? hlt h.nonempty (hback.trans rfl)
        omega
      · rcases exists_ancestor?_of_le links seen.length (n + 1) id id hge hback with
          ⟨parent, hparent⟩
        rcases hend parent hparent with ⟨hmem, hne⟩
        rcases List.mem_iff_getElem?.mp hmem with ⟨m, hm⟩
        have hm' := (List.getElem?_eq_some_iff.mp hm).1
        rw [h.met m hm'] at hm
        -- The place of the first visit is not the start.
        have hpos : m ≠ 0 := by
          rintro rfl
          exact hne (Option.some.inj hm).symm
        have hround : links.ancestor? (m + (n + 1 - seen.length)) id = some id := by
          rw [show n + 1 = seen.length + (n + 1 - seen.length) by omega, ancestor?_add,
            hparent] at hback
          rwa [ancestor?_add, hm]
        refine ih (m + (n + 1 - seen.length) - 1) (by omega) ?_
        rwa [Nat.sub_add_cancel (by omega)]

/-- A walk that has turns enough for what it has not met ends, and says whether there
    is a way back. -/
theorem WalkedTo.walkBack_eq (h : WalkedTo links id seen) (hrange : links.InRange) (turns : Nat)
    (hturns : links.length < turns + seen.length) :
    ∃ back, links.walkBack id turns seen (links.ancestor? seen.length id) = some back ∧
      (back = true ↔ ∃ n, links.ancestor? (n + 1) id = some id) := by
  -- Each turn meets one more, so turns and what was met stay more than there are declarations.
  induction turns generalizing seen with
  | zero =>
      have hle := h.length_le hrange
      omega
  | succ turns ih =>
      cases hnext : links.ancestor? seen.length id with
      | none =>
          -- The walk has come to the outside.
          refine ⟨false, rfl, iff_of_false Bool.false_ne_true fun ⟨n, hback⟩ => ?_⟩
          exact h.ne_start (fun parent hparent => by rw [hnext] at hparent; cases hparent) n hback
      | some parent =>
          rw [walkBack]
          by_cases hback : parent = id
          · rw [if_pos hback]
            refine ⟨true, rfl, iff_of_true rfl ⟨seen.length - 1, ?_⟩⟩
            rw [Nat.sub_add_cancel h.nonempty, hnext, hback]
          · rw [if_neg hback]
            by_cases hmet : parent ∈ seen
            · -- It has run into itself, but not at its start.
              rw [if_pos (List.contains_iff_mem.mpr hmet)]
              refine ⟨false, rfl, iff_of_false Bool.false_ne_true fun ⟨n, hround⟩ => ?_⟩
              refine h.ne_start (fun found hfound => ?_) n hround
              rw [hnext, Option.some.injEq] at hfound
              exact hfound ▸ ⟨hmet, hback⟩
            · rw [if_neg (by rwa [List.contains_iff_mem])]
              have hpush := h.push hnext hmet
              have hfurther : links.ancestor? (seen ++ [parent]).length id =
                  links.parent? parent := by
                rw [List.length_append, List.length_singleton, ancestor?_add, hnext,
                  Option.bind_some, ancestor?_one]
              rw [← hfurther]
              refine ih hpush ?_
              rw [List.length_append, List.length_singleton]
              omega

end WalkBack

/-- The walk that looks for a way back ends in no more turns than there are
    declarations, and finds one exactly where there is one. -/
theorem walkBack_eq_isOnCycle (links : Links) (hrange : links.InRange) (id : DeclId)
    (more : Nat) :
    links.walkBack id (links.length + more) [id] (links.parent? id) =
      some (links.isOnCycle id) := by
  rcases Nat.lt_or_ge id links.length with hid | hid
  · have hstart : WalkedTo links id [id] := by
      refine ⟨hid, Nat.zero_lt_one, fun m hm => ?_, List.nodup_singleton id⟩
      rw [List.length_singleton, Nat.lt_one_iff] at hm
      rw [hm]
      rfl
    rcases hstart.walkBack_eq hrange (links.length + more)
      (by rw [List.length_singleton]; omega) with ⟨back, hwalk, hback⟩
    rw [List.length_singleton, ancestor?_one] at hwalk
    rw [hwalk, Option.some.injEq, Bool.eq_iff_iff, hback, isOnCycle_iff links hrange]
  · -- What is not declared has no link, and the walk from it ends at once.
    have hnone : links.parent? id = none := by
      rw [parent?, List.getElem?_eq_none hid, Option.join_none]
    have hoff : links.isOnCycle id = false := by
      rw [Bool.eq_false_iff, ne_eq, isOnCycle_iff links hrange]
      rintro ⟨n, hback⟩
      rw [ancestor?, hnone, Option.bind_none] at hback
      exact absurd hback (by simp only [reduceCtorEq, not_false_eq_true])
    rw [hnone, hoff, walkBack]

/-- Looking at a declaration cuts its link if it is on a cycle. -/
theorem cut_eq (state : Links × List DeclId) (hrange : state.1.InRange) (id : DeclId) :
    cut state id =
      if state.1.isOnCycle id = true then (state.1.set id none, state.2 ++ [id]) else state := by
  have hwalk := walkBack_eq_isOnCycle state.1 hrange id 0
  rw [Nat.add_zero] at hwalk
  simp only [cut, hwalk, Option.some.injEq]

@[simp]
theorem parent?_set_none (links : Links) (id x : DeclId) :
    parent? (links.set id none) x = if x = id then none else links.parent? x := by
  unfold parent?
  rw [List.getElem?_set]
  by_cases hx : x = id
  · subst hx
    by_cases hlt : x < links.length
    · simp only [hlt, if_true, Option.join_some]
    · simp only [hlt, if_true, if_false, Option.join_none]
  · rw [if_neg (Ne.symm hx), if_neg hx]

/-- Dropping a link only shortens walks. -/
theorem ancestor?_of_set_none (links : Links) (id : DeclId) (n : Nat) (x y : DeclId)
    (h : ancestor? (links.set id none) n x = some y) : links.ancestor? n x = some y := by
  induction n generalizing x with
  | zero => exact h
  | succ n ih =>
      rcases Option.bind_eq_some_iff.mp h with ⟨parent, hparent, hrest⟩
      -- A link that is still there was there before.
      have hbefore : ¬ x = id ∧ links.parent? x = some parent := by simpa using hparent
      exact Option.bind_eq_some_iff.mpr ⟨parent, hbefore.2, ih parent hrest⟩

/-- Repair has looked at the first `m` declarations: none of them leads back to
    itself. -/
structure RepairedBelow (length m : Nat) (links : Links) : Prop where
  length_eq : links.length = length
  inRange : links.InRange
  acyclic : ∀ id < m, ∀ n, links.ancestor? (n + 1) id ≠ some id

theorem cut_repairedBelow (length m : Nat) (state : Links × List DeclId)
    (h : RepairedBelow length m state.1) : RepairedBelow length (m + 1) (cut state m).1 := by
  rw [cut_eq state h.inRange]
  by_cases hcycle : state.1.isOnCycle m = true
  · rw [if_pos hcycle]
    refine ⟨by rw [List.length_set]; exact h.length_eq, ?_, ?_⟩
    · intro id parent hparent
      rw [List.length_set]
      have hbefore : ¬ id = m ∧ state.1.parent? id = some parent := by simpa using hparent
      exact h.inRange id parent hbefore.2
    · intro id hid n hback
      by_cases heq : id = m
      · -- The declaration that lost its link leads nowhere.
        simp [ancestor?, heq] at hback
      · exact h.acyclic id (by omega) n (ancestor?_of_set_none state.1 m (n + 1) id id hback)
  · rw [if_neg hcycle]
    refine ⟨h.length_eq, h.inRange, fun id hid n hback => ?_⟩
    rcases Nat.lt_or_eq_of_le (Nat.le_of_lt_succ hid) with hlt | rfl
    · exact h.acyclic id hlt n hback
    · exact hcycle ((isOnCycle_iff state.1 h.inRange id).mpr ⟨n, hback⟩)

theorem foldl_cut_repairedBelow (links : Links) (hrange : links.InRange) (m : Nat) :
    RepairedBelow links.length m ((List.range m).foldl cut (links, [])).1 := by
  induction m with
  | zero => exact ⟨rfl, hrange, fun id hid => absurd hid (Nat.not_lt_zero id)⟩
  | succ m ih =>
      rw [List.range_succ, List.foldl_append]
      exact cut_repairedBelow links.length m _ ih

theorem repair_acyclic (links : Links) (hrange : links.InRange) :
    (repair links).1.length = links.length ∧ (repair links).1.InRange ∧
      (repair links).1.Acyclic := by
  have h := foldl_cut_repairedBelow links hrange links.length
  refine ⟨h.length_eq, h.inRange, fun n id hback => ?_⟩
  rcases Option.bind_eq_some_iff.mp hback with ⟨parent, hparent, _⟩
  have hid := parent?_eq_some_lt _ id parent hparent
  exact h.acyclic id (by rw [← h.length_eq]; exact hid) n hback

/-- Where nothing leads back to itself, walks are shorter than the number of
    declarations. -/
theorem ancestor?_length_eq_none (links : Links) (hrange : links.InRange)
    (hacyclic : links.Acyclic) (id : DeclId) (hid : id < links.length) :
    links.ancestor? links.length id = none := by
  rw [Option.eq_none_iff_forall_ne_some]
  intro x hx
  -- A walk that long has been somewhere twice, and that place leads back to itself.
  rcases exists_repeat links hrange _ id x hid (Nat.le_refl _) hx with ⟨a, b, hlt, hb, hsame⟩
  rcases exists_ancestor?_of_le links a _ id x (by omega) hx with ⟨y, hy⟩
  refine hacyclic (b - a - 1) y ?_
  rw [hy, show b = a + (b - a - 1 + 1) by omega, ancestor?_add, hy, Option.bind_some] at hsame
  exact hsame.symm

/-- Once the walk has ended, more fuel adds nothing to the chain. -/
theorem chain_add (links : Links) (fuel more : Nat) (id : DeclId)
    (h : links.ancestor? fuel id = none) :
    links.chain (fuel + more) id = links.chain fuel id := by
  induction fuel generalizing id with
  | zero => exact absurd h (by simp only [ancestor?, reduceCtorEq, not_false_eq_true])
  | succ fuel ih =>
      rw [Nat.add_right_comm, chain, chain]
      rw [ancestor?] at h
      cases hparent : links.parent? id with
      | none => rfl
      | some parent =>
          rw [hparent, Option.bind_some] at h
          simp only [ih parent h]

theorem chain_parent (links : Links) (hrange : links.InRange) (hacyclic : links.Acyclic)
    (id parent : DeclId) (h : links.parent? id = some parent) :
    links.chain links.length id = id :: links.chain links.length parent := by
  have hid := parent?_eq_some_lt links id parent h
  have hend := ancestor?_length_eq_none links hrange hacyclic id hid
  have hpos : 0 < links.length := Nat.lt_of_le_of_lt (Nat.zero_le id) hid
  -- The walk from the parent ends one hop earlier, so a chain with less fuel is the same.
  rcases Nat.exists_eq_succ_of_ne_zero (Nat.ne_of_gt hpos) with ⟨k, hk⟩
  rw [hk, Nat.succ_eq_add_one] at hend ⊢
  rw [ancestor?, h, Option.bind_some] at hend
  rw [chain_add links k 1 parent hend, chain, h]

end Links

/-- The links of the registered declarations, with cycles cut. -/
def enclosureLinks (declarations : List Declaration) : Links :=
  (Links.repair ((registered declarations).zipIdx.map fun pair =>
    (link ((registered declarations).map Declaration.name) pair.2 pair.1).toOption.join)).1

theorem link_lt (names : List String) (id parent : DeclId) (d : Declaration)
    (h : link names id d = .ok (some parent)) : parent < names.length := by
  unfold link at h
  split at h
  · exact absurd h (by simp only [Except.ok.injEq, reduceCtorEq, not_false_eq_true])
  · split at h
    · exact absurd h (by simp only [reduceCtorEq, not_false_eq_true])
    · rename_i found hfound
      by_cases hself : found = id
      · rw [if_pos hself] at h
        exact absurd h (by simp only [reduceCtorEq, not_false_eq_true])
      · rw [if_neg hself, Except.ok.injEq, Option.some.injEq] at h
        rw [← h]
        exact (List.findIdx?_eq_some_iff_findIdx_eq.mp hfound).1

/-- Links that are made lead to declarations. -/
theorem inRange_links (ds : List Declaration) :
    Links.InRange (ds.zipIdx.map fun pair =>
      (link (ds.map Declaration.name) pair.2 pair.1).toOption.join) := by
  intro id parent hparent
  rw [List.length_map, List.length_zipIdx]
  rw [Links.parent?, List.getElem?_map] at hparent
  cases hget : ds.zipIdx[id]? with
  | none =>
      rw [hget] at hparent
      exact absurd hparent (by simp only [Option.map_none, Option.join_none, reduceCtorEq,
        not_false_eq_true])
  | some pair =>
      rw [hget, Option.map_some, Option.join_some] at hparent
      -- Only a link that was made is a link; one that was dropped leads nowhere.
      cases hlink : link (ds.map Declaration.name) pair.2 pair.1 with
      | error fault =>
          rw [hlink] at hparent
          exact absurd hparent (by simp only [Except.toOption, Option.join_none, reduceCtorEq,
            not_false_eq_true])
      | ok found =>
          rw [hlink] at hparent
          simp only [Except.toOption, Option.join_some] at hparent
          rw [hparent] at hlink
          have hlt := link_lt _ _ _ _ hlink
          rwa [List.length_map] at hlt

theorem enclosureLinks_acyclic (declarations : List Declaration) :
    (enclosureLinks declarations).length = (registered declarations).length ∧
      (enclosureLinks declarations).InRange ∧ (enclosureLinks declarations).Acyclic := by
  rcases Links.repair_acyclic _ (inRange_links (registered declarations)) with ⟨hlength, hrest⟩
  refine ⟨?_, hrest⟩
  rw [enclosureLinks, hlength, List.length_map, List.length_zipIdx]

namespace Table

theorem entries_register (declarations : List Declaration) :
    (register declarations).1.entries = (registered declarations).zipIdx.map fun pair =>
      entryOf (registered declarations) (enclosureLinks declarations) pair.2 pair.1 := by
  unfold register enclosureLinks
  simp only [List.map_map]
  rfl

theorem get?_register (declarations : List Declaration) (id : DeclId) :
    (register declarations).1.get? id = ((registered declarations)[id]?).map
      (entryOf (registered declarations) (enclosureLinks declarations) id) := by
  rw [get?, entries_register, List.getElem?_map, List.getElem?_zipIdx]
  cases (registered declarations)[id]? with
  | none => rfl
  | some d => simp only [Option.map_some, Nat.zero_add]

theorem lt_size_register (declarations : List Declaration) (id : DeclId) (d : Declaration)
    (hget : (registered declarations)[id]? = some d) : id < (register declarations).1.size := by
  rw [size_register]
  exact (List.getElem?_eq_some_iff.mp hget).1

/-- The formals of a registered declaration are collected along its chain, from
    the outside in. -/
theorem formals_register (declarations : List Declaration) (id : DeclId)
    (hid : id < (registered declarations).length) :
    (register declarations).1.formals id =
      ((enclosureLinks declarations).chain (registered declarations).length id).reverse.flatMap
        fun outer => ((registered declarations)[outer]?).elim [] Declaration.typeParams := by
  rw [formals, get?_register, List.getElem?_eq_getElem hid]
  rfl

/-- Every link leads to a registered declaration, and the formals of each are
    those of the one that encloses it, followed by its own. -/
structure IsNested (t : Table) : Prop where
  enclosing_lt : ∀ id entry parent, t.get? id = some entry → entry.enclosing = some parent →
    parent < t.size
  formals_eq : ∀ id entry, t.get? id = some entry →
    entry.formals = entry.enclosing.elim [] t.formals ++ entry.ownParams

theorem register_isNested (declarations : List Declaration) :
    (register declarations).1.IsNested := by
  rcases enclosureLinks_acyclic declarations with ⟨hlength, hrange, hacyclic⟩
  refine ⟨fun id entry parent h hparent => ?_, fun id entry h => ?_⟩
  · rw [get?_register, Option.map_eq_some_iff] at h
    rcases h with ⟨d, _, rfl⟩
    rw [size_register, ← hlength]
    exact hrange id parent hparent
  · rw [get?_register, Option.map_eq_some_iff] at h
    rcases h with ⟨d, hd, rfl⟩
    have hid : id < (registered declarations).length := (List.getElem?_eq_some_iff.mp hd).1
    simp only [entryOf]
    cases hparent : (enclosureLinks declarations).parent? id with
    | none =>
        -- A chain without a link is the declaration alone.
        rcases Nat.exists_eq_succ_of_ne_zero (Nat.ne_of_gt
          (Nat.lt_of_le_of_lt (Nat.zero_le id) hid)) with ⟨k, hk⟩
        rw [hk, Nat.succ_eq_add_one, Links.chain, hparent]
        simp only [List.reverse_cons, List.reverse_nil, List.nil_append, List.flatMap_cons,
          List.flatMap_nil, List.append_nil, hd, Option.elim_some, Option.elim_none]
    | some parent =>
        -- The chain goes on with that of the parent, whose formals come first.
        have hlt : parent < (registered declarations).length := by
          rw [← hlength]
          exact hrange id parent hparent
        rw [Option.elim_some, formals_register declarations parent hlt, ← hlength,
          Links.chain_parent _ hrange hacyclic id parent hparent, List.reverse_cons,
          List.flatMap_append]
        simp only [List.flatMap_cons, List.flatMap_nil, List.append_nil, hd, Option.elim_some]

theorem lt_size_of_get? (t : Table) (id : DeclId) (entry : Entry) (h : t.get? id = some entry) :
    id < t.size :=
  (List.getElem?_eq_some_iff.mp h).1

theorem formals_of_get? (t : Table) (id : DeclId) (entry : Entry) (h : t.get? id = some entry) :
    t.formals id = entry.formals := by
  rw [formals, h, Option.elim_some]

theorem parent?_links_eq_some (t : Table) (id parent : DeclId)
    (h : t.links.parent? id = some parent) :
    ∃ entry, t.get? id = some entry ∧ entry.enclosing = some parent := by
  rw [Links.parent?, links, List.getElem?_map] at h
  cases hget : t.entries[id]? with
  | none =>
      rw [hget] at h
      exact absurd h (by simp only [Option.map_none, Option.join_none, reduceCtorEq,
        not_false_eq_true])
  | some entry =>
      rw [hget, Option.map_some, Option.join_some] at h
      exact ⟨entry, hget, h⟩

/-- Everything on the chain of a declaration lends it the first part of its
    formals, by induction along the chain. -/
theorem formals_prefix_of_mem_chain (t : Table) (h : t.IsNested) (fuel : Nat)
    (outer inner : DeclId) (hmem : outer ∈ t.links.chain fuel inner) :
    t.formals outer <+: t.formals inner := by
  induction fuel generalizing inner with
  | zero => exact absurd hmem List.not_mem_nil
  | succ fuel ih =>
      rw [Links.chain, List.mem_cons] at hmem
      rcases hmem with rfl | hmem
      · exact List.prefix_refl _
      · cases hparent : t.links.parent? inner with
        | none =>
            rw [hparent] at hmem
            exact absurd hmem List.not_mem_nil
        | some parent =>
            rw [hparent] at hmem
            rcases t.parent?_links_eq_some inner parent hparent with ⟨entry, hget, henclosing⟩
            rw [t.formals_of_get? inner entry hget, h.formals_eq inner entry hget, henclosing]
            exact (ih parent hmem).trans (List.prefix_append _ _)

theorem formals_prefix_of_encloses (t : Table) (h : t.IsNested) (outer inner : DeclId)
    (hencloses : t.encloses outer inner = true) : t.formals outer <+: t.formals inner :=
  formals_prefix_of_mem_chain t h t.size outer inner (List.contains_iff_mem.mp hencloses)

end Table

end Monomorph

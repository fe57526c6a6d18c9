import Mathlib.Data.List.Basic
import Mathlib.Data.List.Perm.Basic
import Mathlib.Logic.Equiv.Basic
import Monomorph.Proofs.Enclosure
import Monomorph.Proofs.Renaming

/-!
# Registering Declarations in Another Order

Declarations that are written in another order get other numbers, and apart from
that the table they make is the same.

This is so only where registration has nothing to repair that depends on the
order. Of declarations with the same name the first is kept, and a cycle of
enclosing declarations is cut at the first of its members, so either would make
the order matter. `IsForest` says that there are neither. It can be read off
what registration reports (`Table.isForest_of_register`), and where it holds the
registered declarations and their links are those that were written
(`Table.get?_of_isForest`).

A permutation of a list is one of its places (`exists_redeclared`), and with
that what is found under a name, what a declaration is linked to and the chain
of what encloses it are renumbered one after the other.

## Main definitions

* `Declaration.Shuffled`: The same declaration with its sites in another order.
* `writtenLinks`: The links of declarations as they were written.
* `IsForest`: Names differ and nothing encloses itself.
* `Redeclared`: Declarations at other places.

## Theorems

* `repeatedFrom_eq_nil_iff`, `registeredFrom_eq_self`, `repeated_eq_nil_iff`,
  `registered_eq_self`: Nothing is ignored where names differ.
* `registeredFrom_nodup`, `registeredFrom_subset`: What is registered.
* `Links.foldl_cut_eq_self`, `Links.repair_eq_self`: Nothing is cut where nothing leads
  back to itself.
* `Links.length_cuts_le`, `Links.isOnCycle_of_foldl_cut`: Where nothing was cut, nothing
  leads back to itself.
* `inRange_writtenLinks`, `length_writtenLinks`, `parent?_writtenLinks`: Links as they
  were written.
* `Table.register_uniquelyNamed`: Registered names differ.
* `Table.exists_name_register`: They are among those that were written.
* `Table.reported_register`: What registration reports.
* `Table.isForest_of_register`: What is not reported is not there.
* `Table.reported_of_isForest`, `Table.get?_of_isForest`: Registering what needs no repair.
* `exists_perm_getElem?`, `rel_getElem?_of_forall₂`, `exists_redeclared`: Reordering is
  renumbering.
* `flatMap_zipIdx_eq`, `Redeclared.flatMap_perm`: What is collected in another order.
* `Redeclared.length_eq`, `Redeclared.nodup`, `Redeclared.cases_at`,
  `Redeclared.lt_length_iff`: What stands at the new places.
* `Redeclared.names`, `Redeclared.typeParams`, `Redeclared.findIdx?`: What is found there.
* `Redeclared.link`, `Redeclared.writtenLinks`, `Redeclared.isForest`: Links are renumbered.
* `Redeclared.entryOf`, `Redeclared.register`, `Redeclared.reported`: So is the table, and
  the same things are reported.
-/

namespace Monomorph

section Repeats

/-- Nothing is repeated where names differ from each other and from those seen
    before. -/
theorem repeatedFrom_eq_nil_iff (seen : List String) (ds : List Declaration) :
    repeatedFrom seen ds = [] ↔
      (ds.map Declaration.name).Nodup ∧ ∀ d ∈ ds, d.name ∉ seen := by
  induction ds generalizing seen with
  | nil =>
      simp only [repeatedFrom, List.map_nil, List.nodup_nil, List.not_mem_nil, false_implies,
        implies_true, and_self]
  | cons d rest ih =>
      rw [repeatedFrom]
      by_cases hseen : seen.contains d.name = true
      · rw [if_pos hseen]
        constructor
        · intro hnil
          exact absurd hnil (by simp only [reduceCtorEq, not_false_eq_true])
        · rintro ⟨_, hall⟩
          exact absurd (List.contains_iff_mem.mp hseen) (hall d List.mem_cons_self)
      · -- The name joins those seen before, so it is excluded from the rest both ways.
        rw [if_neg hseen, ih, List.map_cons, List.nodup_cons]
        rw [List.contains_iff_mem] at hseen
        simp only [List.mem_cons, forall_eq_or_imp, not_or, List.mem_map, not_exists, not_and]
        constructor
        · rintro ⟨hnodup, hall⟩
          exact ⟨⟨fun x hx => (hall x hx).1, hnodup⟩, hseen, fun x hx => (hall x hx).2⟩
        · rintro ⟨⟨hfirst, hnodup⟩, _, hall⟩
          exact ⟨hnodup, fun x hx => ⟨hfirst x hx, hall x hx⟩⟩

theorem registeredFrom_eq_self (seen : List String) (ds : List Declaration)
    (h : repeatedFrom seen ds = []) : registeredFrom seen ds = ds := by
  induction ds generalizing seen with
  | nil => rfl
  | cons d rest ih =>
      rw [repeatedFrom] at h
      rw [registeredFrom]
      by_cases hseen : seen.contains d.name = true
      · rw [if_pos hseen] at h
        exact absurd h (by simp only [reduceCtorEq, not_false_eq_true])
      · rw [if_neg hseen] at h ⊢
        rw [ih _ h]

/-- No two of the registered declarations share a name, nor does one with those
    seen before. -/
theorem registeredFrom_nodup (seen : List String) (ds : List Declaration) :
    ((registeredFrom seen ds).map Declaration.name).Nodup ∧
      ∀ d ∈ registeredFrom seen ds, d.name ∉ seen := by
  induction ds generalizing seen with
  | nil => exact ⟨List.nodup_nil, fun d hd => absurd hd List.not_mem_nil⟩
  | cons d rest ih =>
      rw [registeredFrom]
      by_cases hseen : seen.contains d.name = true
      · rw [if_pos hseen]
        exact ih seen
      · rw [if_neg hseen]
        -- What is registered later differs from this name as from those seen before.
        rcases ih (d.name :: seen) with ⟨hnodup, hall⟩
        refine ⟨?_, fun x hx => ?_⟩
        · rw [List.map_cons, List.nodup_cons]
          refine ⟨fun hmem => ?_, hnodup⟩
          rcases List.mem_map.mp hmem with ⟨x, hx, hname⟩
          exact hall x hx (hname ▸ List.mem_cons_self)
        · rcases List.mem_cons.mp hx with rfl | hx
          · exact fun hmem => hseen (List.contains_iff_mem.mpr hmem)
          · exact fun hmem => hall x hx (List.mem_cons_of_mem _ hmem)

theorem registeredFrom_subset (seen : List String) (ds : List Declaration) :
    registeredFrom seen ds ⊆ ds := by
  induction ds generalizing seen with
  | nil => exact List.Subset.refl _
  | cons d rest ih =>
      rw [registeredFrom]
      by_cases hseen : seen.contains d.name = true
      · rw [if_pos hseen]
        exact List.subset_cons_of_subset d (ih seen)
      · rw [if_neg hseen]
        exact List.cons_subset_cons d (ih (d.name :: seen))

theorem repeated_eq_nil_iff (ds : List Declaration) :
    repeated ds = [] ↔ (ds.map Declaration.name).Nodup := by
  rw [repeated, repeatedFrom_eq_nil_iff]
  simp only [List.not_mem_nil, not_false_eq_true, implies_true, and_true]

theorem registered_eq_self (ds : List Declaration) (h : (ds.map Declaration.name).Nodup) :
    registered ds = ds :=
  registeredFrom_eq_self [] ds ((repeated_eq_nil_iff ds).mpr h)

end Repeats

namespace Links

/-- Where nothing leads back to itself, nothing is cut. -/
theorem foldl_cut_eq_self (links : Links) (hrange : links.InRange) (cuts ids : List DeclId)
    (h : ∀ id ∈ ids, links.isOnCycle id = false) :
    ids.foldl cut (links, cuts) = (links, cuts) := by
  induction ids with
  | nil => rfl
  | cons id rest ih =>
      have hcut : cut (links, cuts) id = (links, cuts) := by
        rw [cut_eq _ hrange, h id List.mem_cons_self, if_neg Bool.false_ne_true]
      rw [List.foldl_cons, hcut, ih fun x hx => h x (List.mem_cons_of_mem id hx)]

theorem length_cuts_le (state : Links × List DeclId) (ids : List DeclId) :
    state.2.length ≤ (ids.foldl cut state).2.length := by
  induction ids generalizing state with
  | nil => exact Nat.le_refl _
  | cons id rest ih =>
      have hcut : state.2.length ≤ (cut state id).2.length := by
        unfold cut
        split
        · rw [List.length_append]
          exact Nat.le_add_right _ _
        · exact Nat.le_refl _
      exact Nat.le_trans hcut (ih (cut state id))

/-- Where nothing is cut, nothing leads back to itself. -/
theorem isOnCycle_of_foldl_cut (links : Links) (hrange : links.InRange) (cuts ids : List DeclId)
    (h : (ids.foldl cut (links, cuts)).2 = cuts) :
    ∀ id ∈ ids, links.isOnCycle id = false := by
  induction ids with
  | nil => exact fun id hid => absurd hid List.not_mem_nil
  | cons first rest ih =>
      rw [List.foldl_cons, cut_eq _ hrange] at h
      by_cases hcycle : links.isOnCycle first = true
      · -- A cut would never be undone.
        rw [if_pos hcycle] at h
        have hle := length_cuts_le (links.set first none, cuts ++ [first]) rest
        rw [h, List.length_append, List.length_singleton] at hle
        omega
      · rw [if_neg hcycle] at h
        intro id hid
        rcases List.mem_cons.mp hid with rfl | hid
        · exact Bool.eq_false_iff.mpr hcycle
        · exact ih h id hid

theorem repair_eq_self (links : Links) (hrange : links.InRange)
    (h : ∀ id < links.length, links.isOnCycle id = false) : links.repair = (links, []) :=
  foldl_cut_eq_self links hrange [] _ fun id hid => h id (List.mem_range.mp hid)

end Links

/-- The links of declarations as they were written, those that are dropped left
    out. -/
def writtenLinks (ds : List Declaration) : Links :=
  ds.zipIdx.map fun pair => (link (ds.map Declaration.name) pair.2 pair.1).toOption.join

/-- What is reported about the link of a declaration. -/
def droppedLink? (names : List String) (pair : Declaration × DeclId) : Option Diagnostic :=
  match link names pair.2 pair.1 with
  | .ok _ => none
  | .error fault => some (fault.diagnostic pair.1.name)

/-- Declarations with different names, none of which encloses itself. -/
structure IsForest (ds : List Declaration) : Prop where
  nodup : (ds.map Declaration.name).Nodup
  acyclic : ∀ id < (writtenLinks ds).length, (writtenLinks ds).isOnCycle id = false

theorem inRange_writtenLinks (ds : List Declaration) : (writtenLinks ds).InRange :=
  inRange_links ds

@[simp]
theorem length_writtenLinks (ds : List Declaration) : (writtenLinks ds).length = ds.length := by
  rw [writtenLinks, List.length_map, List.length_zipIdx]

theorem parent?_writtenLinks (ds : List Declaration) (id : DeclId) :
    (writtenLinks ds).parent? id =
      (ds[id]?).bind fun d => (link (ds.map Declaration.name) id d).toOption.join := by
  rw [Links.parent?, writtenLinks, List.getElem?_map, List.getElem?_zipIdx]
  cases ds[id]? with
  | none => rfl
  | some d => simp only [Option.map_some, Nat.zero_add, Option.join_some, Option.bind_some]

namespace Table

theorem register_uniquelyNamed (ds : List Declaration) : (register ds).1.UniquelyNamed := by
  have hnames : (register ds).1.entries.map Entry.name =
      (registered ds).map Declaration.name := by
    have hfst : (registered ds).map Declaration.name =
        ((registered ds).zipIdx.map Prod.fst).map Declaration.name := by
      rw [List.zipIdx_map_fst]
    rw [entries_register, hfst, List.map_map, List.map_map]
    rfl
  rw [UniquelyNamed, hnames]
  exact (registeredFrom_nodup [] ds).1

/-- The name of a registered declaration is one that was written. -/
theorem exists_name_register (ds : List Declaration) (id : DeclId)
    (hid : id < (register ds).1.size) : ∃ d ∈ ds, (register ds).1.name id = d.name := by
  rw [size_register] at hid
  refine ⟨(registered ds)[id], registeredFrom_subset [] ds (List.getElem_mem hid), ?_⟩
  rw [name, get?_register, List.getElem?_eq_getElem hid]
  rfl

/-- What registration reports: the repetitions, the links that were dropped as
    they were written, and the cuts. -/
theorem reported_register (ds : List Declaration) :
    (register ds).2 = (repeated ds).map repeatedDiagnostic ++
      (registered ds).zipIdx.filterMap (droppedLink? ((registered ds).map Declaration.name)) ++
      (writtenLinks (registered ds)).repair.2.map fun id =>
        EnclosureFault.cycle.diagnostic
          ((((registered ds).map Declaration.name)[id]?).getD "") := by
  unfold register writtenLinks
  simp only [List.map_map, List.filterMap_map]
  rfl

/-- What is not reported is not there. -/
theorem isForest_of_register (ds : List Declaration)
    (hunique : ∀ d ∈ (register ds).2, d.code ≠ .duplicateDeclaration)
    (hcycle : ∀ name, EnclosureFault.cycle.diagnostic name ∉ (register ds).2) : IsForest ds := by
  rw [reported_register] at hunique hcycle
  have hnodup : (ds.map Declaration.name).Nodup := by
    rw [← repeated_eq_nil_iff, List.eq_nil_iff_forall_not_mem]
    intro d hd
    exact hunique _ (List.mem_append_left _ (List.mem_append_left _ (List.mem_map_of_mem hd))) rfl
  refine ⟨hnodup, ?_⟩
  -- Every cut is reported with some name, whatever that is.
  have hcuts : (writtenLinks ds).repair.2 = [] := by
    rw [List.eq_nil_iff_forall_not_mem]
    intro id hid
    rw [registered_eq_self ds hnodup] at hcycle
    exact hcycle _ (List.mem_append_right _ (List.mem_map_of_mem hid))
  intro id hid
  exact Links.isOnCycle_of_foldl_cut _ (inRange_writtenLinks ds) [] _ hcuts id
    (List.mem_range.mpr hid)

section Forest

variable (ds : List Declaration) (h : IsForest ds)

include h

theorem reported_of_isForest : (register ds).2 =
    ds.zipIdx.filterMap (droppedLink? (ds.map Declaration.name)) := by
  rw [reported_register, registered_eq_self ds h.nodup, (repeated_eq_nil_iff ds).mpr h.nodup,
    Links.repair_eq_self _ (inRange_writtenLinks ds) h.acyclic, List.map_nil, List.map_nil,
    List.append_nil, List.nil_append]

theorem get?_of_isForest (id : DeclId) : (register ds).1.get? id =
    (ds[id]?).map (entryOf ds (writtenLinks ds) id) := by
  have hlinks : enclosureLinks ds = (writtenLinks (registered ds)).repair.1 := rfl
  rw [get?_register, hlinks, registered_eq_self ds h.nodup,
    Links.repair_eq_self _ (inRange_writtenLinks ds) h.acyclic]

end Forest

end Table

/-- The same declaration with its sites in another order. -/
def Declaration.Shuffled (d d' : Declaration) : Prop :=
  ∃ body, body.Perm d.body ∧ d' = { d with body }

/-- Declarations that stand at other places, with their sites in another order. -/
structure Redeclared (σ : Equiv.Perm DeclId) (ds ds' : List Declaration) : Prop where
  names_perm : (ds'.map Declaration.name).Perm (ds.map Declaration.name)
  rel : ∀ id, Option.Rel Declaration.Shuffled ds[id]? ds'[σ id]?

/-- A permutation of places from the second place on. -/
def shiftPerm (σ : Equiv.Perm Nat) : Equiv.Perm Nat where
  toFun
    | 0 => 0
    | n + 1 => σ n + 1
  invFun
    | 0 => 0
    | n + 1 => σ.symm n + 1
  left_inv n := by
    cases n with
    | zero => rfl
    | succ n => simp only [Equiv.symm_apply_apply]
  right_inv n := by
    cases n with
    | zero => rfl
    | succ n => simp only [Equiv.apply_symm_apply]

/-- A permutation of a list is one of its places. -/
theorem exists_perm_getElem? {α : Type} {items items' : List α} (h : items.Perm items') :
    ∃ σ : Equiv.Perm Nat, ∀ n : Nat, items'[σ n]? = items[n]? := by
  induction h with
  | nil => exact ⟨Equiv.refl _, fun n => rfl⟩
  | cons x _ ih =>
      rcases ih with ⟨σ, hσ⟩
      refine ⟨shiftPerm σ, fun n => ?_⟩
      cases n with
      | zero => rfl
      | succ n => exact hσ n
  | swap x y rest =>
      -- Only the first two places change.
      refine ⟨Equiv.swap 0 1, fun n => ?_⟩
      rcases n with _ | _ | n
      · rw [Equiv.swap_apply_left]
        rfl
      · rw [Equiv.swap_apply_right]
        rfl
      · rw [Equiv.swap_apply_of_ne_of_ne (by omega) (by omega)]
        rfl
  | trans _ _ ih ih' =>
      rcases ih with ⟨σ, hσ⟩
      rcases ih' with ⟨τ, hτ⟩
      exact ⟨σ.trans τ, fun n => (hτ (σ n)).trans (hσ n)⟩

theorem rel_getElem?_of_forall₂ {R : Declaration → Declaration → Prop}
    {ds ds' : List Declaration} (h : List.Forall₂ R ds ds') (id : DeclId) :
    Option.Rel R ds[id]? ds'[id]? := by
  induction h generalizing id with
  | nil => exact Option.Rel.none
  | cons hd _ ih =>
      cases id with
      | zero => exact Option.Rel.some hd
      | succ id => exact ih id

/-- Reordering is renumbering. -/
theorem exists_redeclared {ds es ds' : List Declaration} (hperm : es.Perm ds)
    (hshuffled : List.Forall₂ Declaration.Shuffled es ds') : ∃ σ, Redeclared σ ds ds' := by
  have hnames : es.map Declaration.name = ds'.map Declaration.name := by
    clear hperm
    induction hshuffled with
    | nil => rfl
    | cons hd _ ih =>
        rcases hd with ⟨body, _, rfl⟩
        rw [List.map_cons, List.map_cons, ih]
  -- The places change first; sites are then shuffled where they stand.
  rcases exists_perm_getElem? hperm.symm with ⟨σ, hσ⟩
  refine ⟨σ, hnames ▸ hperm.map _, fun id => ?_⟩
  rw [← hσ id]
  exact rel_getElem?_of_forall₂ hshuffled (σ id)

/-- What is collected from declarations with their numbers can as well be collected
    from the numbers. -/
theorem flatMap_zipIdx_eq {α : Type} (ds : List Declaration)
    (f : Declaration × DeclId → List α) :
    ds.zipIdx.flatMap f =
      (List.range ds.length).flatMap fun id => (ds[id]?).elim [] fun d => f (d, id) := by
  induction ds using List.reverseRecOn with
  | nil => rfl
  | append_singleton ds d ih =>
      -- The last declaration has the last number, and the numbers before it are as they were.
      have hfront : ((List.range ds.length).flatMap fun id =>
            ((ds ++ [d])[id]?).elim [] fun d => f (d, id)) =
          (List.range ds.length).flatMap fun id => (ds[id]?).elim [] fun d => f (d, id) := by
        refine List.flatMap_congr fun id hid => ?_
        rw [List.getElem?_append_left (List.mem_range.mp hid)]
      rw [List.zipIdx_append, List.flatMap_append, ih, List.length_append, List.length_singleton,
        List.range_succ, List.flatMap_append, hfront]
      congr 1
      simp only [List.zipIdx_singleton, List.flatMap_singleton, Nat.zero_add,
        List.getElem?_concat_length, Option.elim_some]

namespace Redeclared

variable {σ : Equiv.Perm DeclId} {ds ds' : List Declaration}

theorem length_eq (h : Redeclared σ ds ds') : ds'.length = ds.length := by
  have hlength := h.names_perm.length_eq
  rwa [List.length_map, List.length_map] at hlength

theorem nodup (h : Redeclared σ ds ds') (hnodup : (ds.map Declaration.name).Nodup) :
    (ds'.map Declaration.name).Nodup :=
  h.names_perm.nodup_iff.mpr hnodup

/-- What stands at a place and at the new one. -/
theorem cases_at (h : Redeclared σ ds ds') (id : DeclId) :
    (ds[id]? = none ∧ ds'[σ id]? = none) ∨
      ∃ d d', ds[id]? = some d ∧ ds'[σ id]? = some d' ∧ d.Shuffled d' := by
  have hrel := h.rel id
  -- Related options are both there or both not.
  cases hd : ds[id]? with
  | none =>
      cases hd' : ds'[σ id]? with
      | none => exact Or.inl ⟨rfl, rfl⟩
      | some d' =>
          rw [hd, hd'] at hrel
          nomatch hrel
  | some d =>
      cases hd' : ds'[σ id]? with
      | none =>
          rw [hd, hd'] at hrel
          nomatch hrel
      | some d' =>
          rw [hd, hd'] at hrel
          cases hrel with
          | some hshuffled => exact Or.inr ⟨d, d', rfl, rfl, hshuffled⟩

theorem lt_length_iff (h : Redeclared σ ds ds') (id : DeclId) :
    σ id < ds'.length ↔ id < ds.length := by
  rcases h.cases_at id with ⟨hd, hd'⟩ | ⟨d, d', hd, hd', _⟩
  · rw [List.getElem?_eq_none_iff] at hd hd'
    exact iff_of_false (Nat.not_lt.mpr hd') (Nat.not_lt.mpr hd)
  · exact iff_of_true (List.getElem?_eq_some_iff.mp hd').1 (List.getElem?_eq_some_iff.mp hd).1

/-- What is collected from declarations is collected from them at their new places,
    in another order. -/
theorem flatMap_perm {α : Type} (h : Redeclared σ ds ds')
    (f f' : Declaration × DeclId → List α)
    (hf : ∀ id d d', d.Shuffled d' → (f' (d', σ id)).Perm (f (d, id))) :
    (ds'.zipIdx.flatMap f').Perm (ds.zipIdx.flatMap f) := by
  have hplaces : (List.range ds'.length).Perm ((List.range ds.length).map σ) := by
    rw [List.perm_ext_iff_of_nodup List.nodup_range
      ((List.nodup_map_iff σ.injective).mpr List.nodup_range)]
    intro id
    rcases σ.surjective id with ⟨old, rfl⟩
    rw [List.mem_map_of_injective σ.injective, List.mem_range, List.mem_range, h.lt_length_iff]
  -- Collected by number, the two lists differ in the order of numbers only.
  rw [flatMap_zipIdx_eq, flatMap_zipIdx_eq]
  refine (hplaces.flatMap_right _).trans ?_
  rw [List.flatMap_map]
  refine List.Perm.flatMap_left _ fun id _ => ?_
  rcases h.cases_at id with ⟨hd, hd'⟩ | ⟨d, d', hd, hd', hshuffled⟩
  · rw [hd, hd']
    exact List.Perm.refl _
  · rw [hd, hd']
    exact hf id d d' hshuffled

theorem names (h : Redeclared σ ds ds') (id : DeclId) :
    (ds'.map Declaration.name)[σ id]? = (ds.map Declaration.name)[id]? := by
  rw [List.getElem?_map, List.getElem?_map]
  rcases h.cases_at id with ⟨hd, hd'⟩ | ⟨d, d', hd, hd', body, _, rfl⟩
  · rw [hd, hd']
  · rw [hd, hd']
    rfl

theorem typeParams (h : Redeclared σ ds ds') (id : DeclId) :
    (ds'[σ id]?).elim [] Declaration.typeParams = (ds[id]?).elim [] Declaration.typeParams := by
  rcases h.cases_at id with ⟨hd, hd'⟩ | ⟨d, d', hd, hd', body, _, rfl⟩
  · rw [hd, hd']
  · rw [hd, hd']
    rfl

/-- A name is found at its new place. -/
theorem findIdx? (h : Redeclared σ ds ds') (hnodup : (ds.map Declaration.name).Nodup)
    (name : String) :
    (ds'.map Declaration.name).findIdx? (· == name) =
      ((ds.map Declaration.name).findIdx? (· == name)).map σ := by
  -- Where names differ, the first place of a name is its only one.
  have hfind : ∀ names : List String, names.Nodup → ∀ id,
      names.findIdx? (· == name) = some id ↔ names[id]? = some name := by
    intro names hnames place
    have hiff := findIdx?_eq_some_iff_of_nodup id names (by rwa [List.map_id]) name place
    simp only [id_eq, exists_eq_right] at hiff
    exact hiff
  ext id
  rcases σ.surjective id with ⟨old, rfl⟩
  rw [hfind _ (h.nodup hnodup), h.names, ← hfind _ hnodup]
  exact ((Option.map_injective σ.injective).eq_iff (b := some old)).symm

/-- Links are renumbered, and dropped for the same reason. -/
theorem link (h : Redeclared σ ds ds') (hnodup : (ds.map Declaration.name).Nodup) (id : DeclId)
    (d d' : Declaration) (hd : d.Shuffled d') :
    link (ds'.map Declaration.name) (σ id) d' =
      (link (ds.map Declaration.name) id d).map (Option.map σ) := by
  rcases hd with ⟨body, _, rfl⟩
  unfold Monomorph.link
  cases d.enclosing with
  | none => rfl
  | some enclosing =>
      simp only [h.findIdx? hnodup]
      cases (ds.map Declaration.name).findIdx? (· == enclosing) with
      | none => rfl
      | some parent =>
          -- It names itself before and after, or it does neither.
          simp only [Option.map_some, σ.injective.eq_iff]
          by_cases hself : parent = id
          · rw [if_pos hself, if_pos hself, Except.map]
          · rw [if_neg hself, if_neg hself, Except.map, Option.map_some]

theorem writtenLinks (h : Redeclared σ ds ds') (hnodup : (ds.map Declaration.name).Nodup) :
    Links.Renamed σ (writtenLinks ds) (writtenLinks ds') := by
  intro id
  rw [parent?_writtenLinks, parent?_writtenLinks]
  rcases h.cases_at id with ⟨hd, hd'⟩ | ⟨d, d', hd, hd', hshuffled⟩
  · rw [hd, hd']
    rfl
  · rw [hd, hd', Option.bind_some, Option.bind_some, h.link hnodup id d d' hshuffled]
    cases Monomorph.link (ds.map Declaration.name) id d with
    | error fault => rfl
    | ok found => rfl

/-- Nothing encloses itself at the new places either. -/
theorem isForest (h : Redeclared σ ds ds') (hforest : IsForest ds) : IsForest ds' := by
  refine ⟨h.nodup hforest.nodup, fun id hid => ?_⟩
  rcases σ.surjective id with ⟨old, rfl⟩
  -- A cycle is looked for in as many steps as there are declarations.
  have hlength : (Monomorph.writtenLinks ds').length = (Monomorph.writtenLinks ds).length := by
    simp [h.length_eq]
  have hold : old < (Monomorph.writtenLinks ds).length := by
    rw [length_writtenLinks] at hid ⊢
    exact (h.lt_length_iff old).mp hid
  have hcycle := hforest.acyclic old hold
  rwa [Links.isOnCycle, ← (h.writtenLinks hforest.nodup).leadsTo, ← hlength] at hcycle

theorem entryOf (h : Redeclared σ ds ds') (hnodup : (ds.map Declaration.name).Nodup)
    (id : DeclId) (d d' : Declaration) (hd : d.Shuffled d') :
    Table.entryOf ds' (Monomorph.writtenLinks ds') (σ id) d' =
      (Table.entryOf ds (Monomorph.writtenLinks ds) id d).rename σ := by
  have hlinks := h.writtenLinks hnodup
  -- The chain is renumbered, and what stands on it has the parameters it had.
  have hformals : (((Monomorph.writtenLinks ds').chain ds'.length (σ id)).reverse.flatMap
        fun outer => (ds'[outer]?).elim [] Declaration.typeParams) =
      ((Monomorph.writtenLinks ds).chain ds.length id).reverse.flatMap
        fun outer => (ds[outer]?).elim [] Declaration.typeParams := by
    rw [hlinks.chain, h.length_eq, ← List.map_reverse, List.flatMap_map]
    simp only [h.typeParams]
  rcases hd with ⟨body, _, rfl⟩
  simp only [Table.entryOf, Entry.rename, hformals, hlinks id]

/-- The table is renumbered. -/
theorem register (h : Redeclared σ ds ds') (hforest : IsForest ds) :
    Table.Renamed σ (Table.register ds).1 (Table.register ds').1 := by
  have hforest' := h.isForest hforest
  refine ⟨?_, fun id => ?_, Table.register_uniquelyNamed ds, Table.register_uniquelyNamed ds'⟩
  · simp [registered_eq_self ds hforest.nodup, registered_eq_self ds' hforest'.nodup, h.length_eq]
  · rw [Table.get?_of_isForest ds hforest, Table.get?_of_isForest ds' hforest']
    rcases h.cases_at id with ⟨hd, hd'⟩ | ⟨d, d', hd, hd', hshuffled⟩
    · rw [hd, hd']
      rfl
    · rw [hd, hd', Option.map_some, Option.map_some, Option.map_some,
        h.entryOf hforest.nodup id d d' hshuffled]

/-- The same links are reported as dropped. -/
theorem reported (h : Redeclared σ ds ds') (hforest : IsForest ds) :
    (Table.register ds').2.Perm (Table.register ds).2 := by
  rw [Table.reported_of_isForest ds hforest, Table.reported_of_isForest ds' (h.isForest hforest),
    List.filterMap_eq_flatMap_toList, List.filterMap_eq_flatMap_toList]
  refine h.flatMap_perm _ _ fun id d d' hshuffled => List.Perm.of_eq ?_
  have hlink := h.link hforest.nodup id d d' hshuffled
  rcases hshuffled with ⟨body, _, rfl⟩
  simp only [droppedLink?, hlink]
  cases Monomorph.link (ds.map Declaration.name) id d <;> rfl

end Redeclared

end Monomorph

import Monomorph.Analysis
import Monomorph.Proofs.Figures
import Monomorph.Proofs.Order
import Monomorph.Proofs.Renaming

/-!
# Resolving a Renumbered Graph

A graph whose declarations are numbered in another way, and whose edges stand in
another order, is resolved to the renumbered result.

The search itself does not go the same way. It meets the same instantiations at
the same level, but in another order, and which of several parents brings one up
first differs too. What the search leaves behind was therefore said in terms of
walks, and walks can be renumbered one hop at a time (`Renamed.meets_iff`). The
rest follows from there: what is reached and what is given up are the same maps
up to the renumbering, hence have the same size, the same texts and the same
diagnostics, and the figures that count steps of the search are already known to
be functions of those sizes.

A plan is sorted by text and where texts agree by number, so entries with the
same text may change places. The list of texts does not change.

## Main definitions

* `Graph.Renamed`: Two graphs with a renumbering between them.
* `Resolution.Renamed`: Two resolutions with a renumbering between them.

## Theorems

* `FirstMap.entries_perm_rename`, `FirstMap.keys_perm_rename`,
  `FirstMap.size_eq_of_rename`: Maps that are the same up to a renumbering.
* `Hop.source_rename`, `Hop.target_rename`, `Hop.args_rename`: The parts of a
  renumbered hop.
* `Graph.Renamed.hops`, `Graph.Renamed.isSeed_iff`, `Graph.Renamed.applyAll_binding`:
  Edges, seeds and bindings are renumbered.
* `Graph.Renamed.leads_iff`, `Graph.Renamed.meets_iff`, `Graph.Renamed.firstMet_iff`:
  So are hops and walks.
* `Closure.exceeded?_rename`: Limits do not look at numbers.
* `Stats.eq_of_fields`: Figures are equal that agree in each.
* `Graph.Renamed.reached`, `Graph.Renamed.abandoned`, `Graph.Renamed.seeds`: What the
  search leaves behind is renumbered.
* `Graph.Renamed.siteEdges`, `Graph.Renamed.detachedSites`: As many sites are detached.
* `Graph.Renamed.resolve`: The resolution is renumbered.
* `Table.Renamed.comp_name`, `Table.Renamed.render`, `Table.Renamed.key`,
  `Table.Renamed.abandonedDiagnostic`: Texts stay the same.
* `Resolution.Renamed.keys`: What is reached is renumbered.
* `Resolution.Renamed.diagnostics`: The diagnostics stay the same.
* `Resolution.Renamed.published`: What is published is renumbered.
* `Plan.canonicalize_perm`: So is the canonical list, up to order.
* `Plan.keys_eq_of_renamed`, `Plan.entries_perm_of_renamed`: The plan has the
  same texts.
-/

namespace Monomorph

/-- Two maps from instantiations that have the same values up to a renumbering have
    the same entries up to it. -/
theorem FirstMap.entries_perm_rename {ν : Type} [DecidableEq ν] (σ : Equiv.Perm DeclId)
    (m m' : FirstMap Instantiation ν)
    (h : ∀ i value, m'.get? (i.rename σ) = some value ↔ m.get? i = some value) :
    m'.entries.Perm (m.entries.map fun entry => (entry.1.rename σ, entry.2)) := by
  have hpairs : Function.Injective
      fun entry : Instantiation × ν => (entry.1.rename σ, entry.2) := by
    rintro ⟨i, value⟩ ⟨j, value'⟩ heq
    rw [Prod.mk.injEq] at heq ⊢
    exact ⟨Instantiation.rename_injective σ heq.1, heq.2⟩
  -- No key occurs twice on either side, so the same entries are all that is needed.
  rw [List.perm_ext_iff_of_nodup (List.Nodup.of_map _ m'.nodup)
    ((List.nodup_map_iff hpairs).mpr (List.Nodup.of_map _ m.nodup))]
  rintro ⟨i', value⟩
  rw [← Instantiation.rename_rename_symm σ i', ← get?_eq_some_iff, h, get?_eq_some_iff]
  exact (List.mem_map_of_injective hpairs).symm

theorem FirstMap.keys_perm_rename {ν : Type} {σ : Equiv.Perm DeclId}
    {m m' : FirstMap Instantiation ν}
    (h : m'.entries.Perm (m.entries.map fun entry => (entry.1.rename σ, entry.2))) :
    m'.keys.Perm (m.keys.map (Instantiation.rename σ)) := by
  have hkeys := h.map Prod.fst
  rw [List.map_map] at hkeys
  rw [keys, keys, List.map_map]
  exact hkeys

theorem FirstMap.size_eq_of_rename {ν : Type} {σ : Equiv.Perm DeclId}
    {m m' : FirstMap Instantiation ν}
    (h : m'.entries.Perm (m.entries.map fun entry => (entry.1.rename σ, entry.2))) :
    m'.size = m.size := by
  rw [size, h.length_eq, List.length_map]
  rfl

/-- Renumbered entries of a table and its edges, up to order. -/
structure Graph.Renamed (σ : Equiv.Perm DeclId) (g g' : Graph) : Prop where
  table : Table.Renamed σ g.table g'.table
  edges : g'.edges.Perm (g.edges.map (Edge.rename σ))
  hierarchy : g'.hierarchy.Perm (g.hierarchy.map (HierarchyEdge.rename σ))

/-- The hop with declarations numbered in another way. -/
def Hop.rename (σ : DeclId → DeclId) : Hop → Hop
  | use edge => use (edge.rename σ)
  | inherit edge => inherit (edge.rename σ)

namespace Hop

variable (σ : DeclId → DeclId) (hop : Hop)

@[simp]
theorem source_rename : (hop.rename σ).source = σ hop.source := by
  cases hop <;> rfl

@[simp]
theorem target_rename : (hop.rename σ).target = σ hop.target := by
  cases hop <;> rfl

@[simp]
theorem args_rename : (hop.rename σ).args = hop.args.map (Expr.rename σ) := by
  cases hop <;> rfl

end Hop

namespace Graph

namespace Renamed

variable {σ : Equiv.Perm DeclId} {g g' : Graph}

theorem hops (h : Renamed σ g g') : g'.hops.Perm (g.hops.map (Hop.rename σ)) := by
  unfold Graph.hops
  rw [List.map_append, List.map_map, List.map_map]
  refine ((h.edges.map Hop.use).append (h.hierarchy.map Hop.inherit)).trans ?_
  rw [List.map_map, List.map_map]
  exact List.Perm.refl _

theorem isSeed_iff (h : Renamed σ g g') (i : Instantiation) :
    g'.IsSeed (i.rename σ) ↔ g.IsSeed i := by
  unfold IsSeed
  constructor
  · -- Every edge of the renumbered graph is the renumbering of one.
    rintro ⟨edge', hedge', hkind, hcallee, hargs⟩
    rcases List.mem_map.mp (h.edges.mem_iff.mp hedge') with ⟨edge, hedge, rfl⟩
    exact ⟨edge, hedge, hkind, σ.injective hcallee,
      (Expr.rename_injective σ).list_map hargs⟩
  · rintro ⟨edge, hedge, hkind, hcallee, hargs⟩
    refine ⟨edge.rename σ, h.edges.mem_iff.mpr (List.mem_map_of_mem hedge), hkind, ?_, ?_⟩
    · exact congrArg σ hcallee
    · exact congrArg (List.map (Expr.rename σ)) hargs

theorem applyAll_binding (h : Renamed σ g g') (i : Instantiation) (args : List Expr) :
    (g'.binding (i.rename σ)).applyAll (args.map (Expr.rename σ)) =
      ((g.binding i).applyAll args).map (Expr.rename σ) := by
  have hformals : g'.table.formals (i.rename σ).decl = g.table.formals i.decl :=
    h.table.formals i.decl
  unfold binding
  rw [hformals]
  exact Subst.applyAll_rename σ _ i.args args

theorem leads_iff (h : Renamed σ g g') (i j : Instantiation) :
    g'.Leads (i.rename σ) (j.rename σ) ↔ g.Leads i j := by
  unfold Leads
  constructor
  · rintro ⟨hop', hhop', hsource, htarget, hargs⟩
    rcases List.mem_map.mp (h.hops.mem_iff.mp hhop') with ⟨hop, hhop, rfl⟩
    simp only [Hop.source_rename] at hsource
    simp only [Hop.target_rename] at htarget
    rw [Hop.args_rename, h.applyAll_binding] at hargs
    -- Numbers and expressions that are renumbered to the same are the same.
    exact ⟨hop, hhop, σ.injective hsource, σ.injective htarget,
      (Expr.rename_injective σ).list_map hargs⟩
  · rintro ⟨hop, hhop, hsource, htarget, hargs⟩
    refine ⟨hop.rename σ, h.hops.mem_iff.mpr (List.mem_map_of_mem hhop), ?_, ?_, ?_⟩
    · rw [Hop.source_rename, hsource]
      rfl
    · rw [Hop.target_rename, htarget]
      rfl
    · rw [Hop.args_rename, h.applyAll_binding, hargs]
      rfl

/-- A walk is renumbered hop by hop. Every instantiation of the renumbered graph
    is the renumbering of one, so no walk has to be looked for elsewhere. -/
theorem meets_iff (h : Renamed σ g g') (limit n : Nat) (j : Instantiation) :
    g'.Meets limit n (j.rename σ) ↔ g.Meets limit n j := by
  induction n generalizing j with
  | zero => exact h.isSeed_iff j
  | succ n ih =>
      -- To go on from an instantiation it has to be within the limit, before as after.
      have hwalk : ∀ i, g'.Walk limit n (i.rename σ) ↔ g.Walk limit n i := by
        intro i
        rw [walk_iff, walk_iff, ih, Instantiation.nesting_rename]
      constructor
      · rintro ⟨i', hi', hleads⟩
        rw [← Instantiation.rename_rename_symm σ i'] at hi' hleads
        exact ⟨i'.rename σ.symm, (hwalk _).mp hi', (h.leads_iff _ j).mp hleads⟩
      · rintro ⟨i, hi, hleads⟩
        exact ⟨i.rename σ, (hwalk i).mpr hi, (h.leads_iff i j).mpr hleads⟩

theorem firstMet_iff (h : Renamed σ g g') (limit n : Nat) (j : Instantiation) :
    g'.FirstMet limit n (j.rename σ) ↔ g.FirstMet limit n j := by
  unfold FirstMet
  simp only [h.meets_iff]

end Renamed

end Graph

@[simp]
theorem Closure.exceeded?_rename (σ : DeclId → DeclId) (settings : Settings) (i : Instantiation)
    (d : Nat) : exceeded? settings ⟨i.rename σ, d⟩ = exceeded? settings ⟨i, d⟩ := by
  unfold exceeded?
  rw [Instantiation.nesting_rename]

theorem Stats.eq_of_fields {s s' : Stats} (hseeds : s'.seeds = s.seeds)
    (hexpansions : s'.expansions = s.expansions) (hdetached : s'.detachedSites = s.detachedSites)
    (habandoned : s'.abandoned = s.abandoned) (hpasses : s'.passes = s.passes)
    (hconverged : s'.converged = s.converged) : s' = s := by
  cases s
  cases s'
  rw [Stats.mk.injEq]
  exact ⟨hseeds, hexpansions, hdetached, habandoned, hpasses, hconverged⟩

/-- Resolutions of which one is the other with declarations numbered in another
    way: what was reached and given up is renumbered, and nothing else differs. -/
structure Resolution.Renamed (σ : Equiv.Perm DeclId) (r r' : Resolution) : Prop where
  reached : r'.reached.entries.Perm
    (r.reached.entries.map fun entry => (entry.1.rename σ, entry.2))
  abandoned : r'.abandoned.entries.Perm
    (r.abandoned.entries.map fun entry => (entry.1.rename σ, entry.2))
  stalled : r'.stalled = r.stalled
  stats : r'.stats = r.stats

namespace Graph

namespace Renamed

variable {σ : Equiv.Perm DeclId} {g g' : Graph}

theorem reached (h : Renamed σ g g') (settings : Settings) :
    (g'.resolve settings).reached.entries.Perm
      ((g.resolve settings).reached.entries.map fun entry => (entry.1.rename σ, entry.2)) := by
  refine FirstMap.entries_perm_rename σ _ _ fun i d => ?_
  rw [get?_reached_iff, get?_reached_iff, h.firstMet_iff, Closure.exceeded?_rename]

theorem abandoned (h : Renamed σ g g') (settings : Settings) :
    (g'.resolve settings).abandoned.entries.Perm
      ((g.resolve settings).abandoned.entries.map fun entry => (entry.1.rename σ, entry.2)) := by
  refine FirstMap.entries_perm_rename σ _ _ fun i limit => ?_
  rw [get?_abandoned_iff, get?_abandoned_iff]
  simp only [h.firstMet_iff, Closure.exceeded?_rename]

/-- As many seeds are known before anything is expanded. -/
theorem seeds (h : Renamed σ g g') (settings : Settings) :
    (g'.resolve settings).stats.seeds = (g.resolve settings).stats.seeds := by
  -- Several edges may give one seed, so their number says nothing; it is counted once
  -- known, and what is known at the start is what is met after no hops.
  have hperm := FirstMap.entries_perm_rename σ (Closure.start g settings).1.index
    (Closure.start g' settings).1.index fun i d => by
      rw [(Closure.start_decidedBelow g' settings).1.index,
        (Closure.start_decidedBelow g settings).1.index, h.firstMet_iff, Closure.exceeded?_rename]
  rw [resolve_seeds, resolve_seeds]
  exact FirstMap.size_eq_of_rename hperm

theorem siteEdges (h : Renamed σ g g') :
    g'.siteEdges.Perm (g.siteEdges.map (Edge.rename σ)) := by
  unfold Graph.siteEdges
  refine (h.edges.filter _).trans ?_
  rw [List.filter_map]
  exact List.Perm.refl _

/-- The same number of sites is open and stands where nothing was reached. -/
theorem detachedSites (h : Renamed σ g g') (reached reached' : List Instantiation)
    (hreached : reached'.Perm (reached.map (Instantiation.rename σ))) :
    g'.detachedSites reached' = g.detachedSites reached := by
  -- Of a site and its renumbering either both are counted or neither is.
  have hsame : ∀ edge : Edge,
      (!Expr.allClosed (edge.rename σ).args &&
        !reached'.any fun i => i.decl = (edge.rename σ).caller) =
      (!Expr.allClosed edge.args && !reached.any fun i => i.decl = edge.caller) := by
    intro edge
    have hany : (reached'.any fun i => i.decl = (edge.rename σ).caller) =
        reached.any fun i => i.decl = edge.caller := by
      rw [hreached.any_eq, List.any_map]
      congr 1
      funext i
      exact decide_eq_decide.mpr σ.injective.eq_iff
    rw [hany]
    congr 2
    exact Expr.allClosed_map_rename σ edge.args
  unfold Graph.detachedSites
  rw [(h.siteEdges.filter _).length_eq, List.filter_map, List.length_map]
  congr 2
  funext edge
  exact hsame edge

/-- Resolving the renumbered graph gives the renumbered resolution. -/
theorem resolve (h : Renamed σ g g') (settings : Settings) :
    (g.resolve settings).Renamed σ (g'.resolve settings) := by
  have hreached := h.reached settings
  have habandoned := h.abandoned settings
  rcases g.resolve_passes settings with ⟨hpasses, hconverged, hstalled⟩
  rcases g'.resolve_passes settings with ⟨hpasses', hconverged', hstalled'⟩
  refine ⟨hreached, habandoned, hstalled'.trans hstalled.symm, ?_⟩
  -- The order of expansions differs, their number is that of what is reached.
  have hexpansions : (g'.resolve settings).stats.expansions =
      (g.resolve settings).stats.expansions := by
    rw [resolve_expansions, resolve_expansions, hpasses, hpasses',
      FirstMap.size_eq_of_rename hreached]
  exact Stats.eq_of_fields (h.seeds settings) hexpansions
    (h.detachedSites _ _ (FirstMap.keys_perm_rename hreached))
    (FirstMap.size_eq_of_rename habandoned) (hpasses'.trans hpasses.symm)
    (hconverged'.trans hconverged.symm)

end Renamed

end Graph

namespace Table

namespace Renamed

variable {σ : Equiv.Perm DeclId} {t t' : Table}

theorem comp_name (h : Renamed σ t t') : t'.name ∘ σ = t.name :=
  funext h.name

/-- A renumbered expression has the same text. -/
theorem render (h : Renamed σ t t') (e : Expr) :
    (e.rename σ).render t'.name = e.render t.name := by
  rw [Expr.render, Expr.chars_rename, h.comp_name]
  rfl

/-- A renumbered instantiation has the same key. -/
theorem key (h : Renamed σ t t') (i : Instantiation) : (i.rename σ).key t' = i.key t := by
  have happ : Expr.app (i.rename σ).decl (i.rename σ).args =
      (Expr.app i.decl i.args).rename σ := (Expr.rename_app σ i.decl i.args).symm
  rw [Instantiation.key, Expr.renderApplied, happ, Expr.chars_rename, h.comp_name]
  rfl

theorem abandonedDiagnostic (h : Renamed σ t t') (i : Instantiation) (limit : Limit) :
    abandonedDiagnostic t' (i.rename σ, limit) = abandonedDiagnostic t (i, limit) := by
  simp only [Monomorph.abandonedDiagnostic, h.key]

end Renamed

end Table

namespace Resolution

namespace Renamed

variable {σ : Equiv.Perm DeclId} {t t' : Table} {r r' : Resolution}

theorem keys (h : Renamed σ r r') :
    r'.reached.keys.Perm (r.reached.keys.map (Instantiation.rename σ)) :=
  FirstMap.keys_perm_rename h.reached

/-- The same things are reported, in the same words. -/
theorem diagnostics (h : Renamed σ r r') (ht : Table.Renamed σ t t') :
    (r'.diagnostics t').Perm (r.diagnostics t) := by
  have hgiven : (r'.abandoned.entries.map (abandonedDiagnostic t')).Perm
      (r.abandoned.entries.map (abandonedDiagnostic t)) := by
    have hsame : (abandonedDiagnostic t' ∘ fun entry => (entry.1.rename σ, entry.2)) =
        abandonedDiagnostic t := funext fun entry => ht.abandonedDiagnostic entry.1 entry.2
    refine (h.abandoned.map _).trans ?_
    rw [List.map_map, hsame]
  unfold Resolution.diagnostics
  refine (Diagnostic.sort_perm _).trans (List.Perm.trans ?_ (Diagnostic.sort_perm _).symm)
  rw [h.stalled]
  exact hgiven.append_right _

/-- What is published is renumbered. -/
theorem published (h : Renamed σ r r') (ht : Table.Renamed σ t t') :
    (r'.published t').Perm ((r.published t).map (Instantiation.rename σ)) := by
  unfold Resolution.published
  refine (h.keys.filterMap _).trans ?_
  rw [List.filterMap_map, List.map_filterMap]
  refine List.Perm.of_eq (List.filterMap_congr fun i _ => ?_)
  have hentry : t'.get? (i.rename σ).decl = (t.get? i.decl).map (Entry.rename σ) :=
    ht.get? i.decl
  simp only [Function.comp_apply, hentry]
  -- Whether to publish, and with which arguments, is said by parts of the entry that
  -- hold no numbers.
  cases t.get? i.decl with
  | none => rfl
  | some entry =>
      simp only [Option.map_some, Entry.rename]
      by_cases hspecial : entry.requiresSpecialization = true
      · simp only [hspecial, if_true, Option.map_some, Instantiation.published]
        by_cases hown : entry.ownParams.isEmpty = true
        · simp only [hown, if_true]
          rfl
        · simp only [hown, if_false, Bool.false_eq_true]
      · simp only [hspecial, if_false, Option.map_none, Bool.false_eq_true]

end Renamed

end Resolution

namespace Plan

variable {σ : Equiv.Perm DeclId} {t t' : Table} {items items' : List Instantiation}

/-- The canonical list of renumbered instantiations is renumbered, up to the order
    of those with the same key. -/
theorem canonicalize_perm (t t' : Table)
    (hitems : items'.Perm (items.map (Instantiation.rename σ))) :
    (canonicalize t' items').Perm ((canonicalize t items).map (Instantiation.rename σ)) := by
  -- No member occurs twice on either side, so it is enough to compare members.
  have hinjective := Instantiation.rename_injective σ
  rw [List.perm_ext_iff_of_nodup (canonicalize_nodup t' items')
    ((List.nodup_map_iff hinjective).mpr (canonicalize_nodup t items))]
  intro i'
  rw [← Instantiation.rename_rename_symm σ i', mem_canonicalize_iff, hitems.mem_iff,
    List.mem_map_of_injective hinjective, List.mem_map_of_injective hinjective,
    mem_canonicalize_iff]

/-- The plan of renumbered instantiations has the same entries up to order. -/
theorem entries_perm_of_renamed (ht : Table.Renamed σ t t')
    (hitems : items'.Perm (items.map (Instantiation.rename σ))) :
    ((ofInstantiations t' items').entries.map fun e => (e.declaration, e.arguments, e.key)).Perm
      ((ofInstantiations t items).entries.map fun e => (e.declaration, e.arguments, e.key)) := by
  have hentry : ∀ i : Instantiation,
      ((entry t' (i.rename σ)).declaration, (entry t' (i.rename σ)).arguments,
        (entry t' (i.rename σ)).key) =
      ((entry t i).declaration, (entry t i).arguments, (entry t i).key) := by
    intro i
    have hargs : (i.rename σ).args.map (Expr.render t'.name) = i.args.map (Expr.render t.name) := by
      change (i.args.map (Expr.rename σ)).map (Expr.render t'.name) = _
      rw [List.map_map]
      exact List.map_congr_left fun e _ => ht.render e
    simp only [entry, ht.key, hargs]
    rw [show t'.name (i.rename σ).decl = t.name i.decl from ht.name i.decl]
  simp only [ofInstantiations, List.map_map]
  refine ((canonicalize_perm t t' hitems).map _).trans ?_
  rw [List.map_map]
  exact List.Perm.of_eq (List.map_congr_left fun i _ => hentry i)

/-- The plan of renumbered instantiations has the same keys in the same order. -/
theorem keys_eq_of_renamed (ht : Table.Renamed σ t t')
    (hitems : items'.Perm (items.map (Instantiation.rename σ))) :
    (ofInstantiations t' items').keys = (ofInstantiations t items).keys := by
  have hperm := (entries_perm_of_renamed ht hitems).map fun e => e.2.2
  rw [List.map_map, List.map_map] at hperm
  -- Both lists ascend, and a set of texts has one ascending list.
  refine List.Perm.eq_of_pairwise (fun a b _ _ hab hba => ?_)
    (keys_ofInstantiations t' items' ▸ keys_canonicalize_pairwise t' items')
    (keys_ofInstantiations t items ▸ keys_canonicalize_pairwise t items) hperm
  exact Std.LawfulEqOrd.eq_of_compare (Std.OrientedCmp.isLE_antisymm hab hba)

end Plan

end Monomorph

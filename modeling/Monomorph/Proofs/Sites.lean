import Monomorph.Proofs.Reached

/-!
# What Becomes of a Site

Every site of a program is accounted for.

Resolving drops whatever stays open, and it does so without a word: an edge under
a binding that leaves a parameter leads nowhere. That this never happens to a
scanned graph is what makes the silence harmless. An instantiation that is
reached has an argument for each formal of its declaration, the arguments of an
edge mention nothing else, so binding closes them all.

A site whose arguments are closed as written is a seed. One that is open waits
for its caller to be reached, and then fires for each instantiation of it. If that
never happens it is detached, and the figures of a resolution say how many sites
are. There is no fourth way for a site to end up.

## Main definitions

* `SiteFate`: What can become of a site.
* `Graph.HasFate`: What does become of it.

## Theorems

* `Settings.validate_eq_ok_iff`, `Settings.maxTypeNesting_pos`,
  `Settings.maxTypeNesting_le`: Which settings are valid.
* `count_filter_key`, `Graph.count_edgesFrom`, `Graph.count_basesOf`: Every edge is listed
  once, where it leaves.
* `Graph.mem_targets_iff`: What an expansion follows are hops.
* `Graph.exists_closed_target`: Expanding drops nothing.
* `Graph.fires`: An open site fires wherever its caller is reached.
* `Graph.existsUnique_fate`: A site has exactly one fate.
* `Graph.detachedSites_eq`: The figures count the detached ones.
* `Program.sites_accounted`: All of it for a program.
* `Errands.fates_program`: A program with a site of each fate.
-/

namespace Monomorph

/-- What can become of a site: it is closed as written, nothing reaches its
    caller, or it fires whenever its caller is reached. -/
inductive SiteFate where
  | closed
  | detached
  | fired
deriving DecidableEq, Repr

namespace Settings

/-- Settings are valid if no limit is zero and the one on nesting is not above what is
    supported. -/
theorem validate_eq_ok_iff (s : Settings) : s.validate = .ok s ↔
    1 ≤ s.maxDepth ∧ 1 ≤ s.maxTypeNesting ∧ s.maxTypeNesting ≤ nestingCeiling ∧
      1 ≤ s.maxPasses := by
  have hfault : s.validate = .ok s ↔ s.fault? = none := by
    unfold validate
    cases s.fault? with
    | none => exact iff_of_true rfl rfl
    | some fault => simp only [reduceCtorEq]
  rw [hfault, fault?]
  -- One case for each limit that is out of bounds, and one where none is.
  repeat' split
  all_goals simp only [reduceCtorEq, true_iff, false_iff]
  all_goals omega

theorem maxTypeNesting_pos (s : Settings) (h : s.validate = .ok s) : 1 ≤ s.maxTypeNesting :=
  (s.validate_eq_ok_iff.mp h).2.1

theorem maxTypeNesting_le (s : Settings) (h : s.validate = .ok s) :
    s.maxTypeNesting ≤ nestingCeiling :=
  (s.validate_eq_ok_iff.mp h).2.2.1

end Settings

/-- A bucket holds each of its members as often as the list does, and nothing
    else. -/
theorem count_filter_key {α : Type} [DecidableEq α] (key : α → DeclId) (id : DeclId)
    (items : List α) (a : α) :
    (items.filter fun item => key item == id).count a =
      if key a = id then items.count a else 0 := by
  by_cases h : key a = id
  · rw [if_pos h]
    exact List.count_filter (beq_iff_eq.mpr h)
  · rw [if_neg h, List.count_eq_zero]
    intro hmem
    exact h (beq_iff_eq.mp (List.mem_filter.mp hmem).2)

namespace Graph

/-- The rows of a graph list every edge once, where it leaves. -/
theorem count_edgesFrom (g : Graph) (id : DeclId) (edge : Edge) :
    (g.edgesFrom id).count edge = if edge.caller = id then g.edges.count edge else 0 := by
  rw [edgesFrom_eq_filter]
  exact count_filter_key Edge.caller id g.edges edge

theorem count_basesOf (g : Graph) (id : DeclId) (edge : HierarchyEdge) :
    (g.basesOf id).count edge = if edge.derived = id then g.hierarchy.count edge else 0 := by
  rw [basesOf_eq_filter]
  exact count_filter_key HierarchyEdge.derived id g.hierarchy edge

theorem mem_targets_iff (g : Graph) (id : DeclId) (target : DeclId × List Expr) :
    target ∈ g.targets id ↔
      ∃ hop ∈ g.hops, hop.source = id ∧ (hop.target, hop.args) = target := by
  unfold targets hops
  rw [edgesFrom_eq_filter, basesOf_eq_filter]
  simp only [List.mem_append, List.mem_map, List.mem_filter, beq_iff_eq]
  constructor
  · rintro (⟨edge, ⟨hmem, hcaller⟩, rfl⟩ | ⟨edge, ⟨hmem, hderived⟩, rfl⟩)
    · exact ⟨.use edge, Or.inl ⟨edge, hmem, rfl⟩, hcaller, rfl⟩
    · exact ⟨.inherit edge, Or.inr ⟨edge, hmem, rfl⟩, hderived, rfl⟩
  · rintro ⟨hop, ⟨edge, hmem, rfl⟩ | ⟨edge, hmem, rfl⟩, hsource, rfl⟩
    · exact Or.inl ⟨edge, ⟨hmem, hsource⟩, rfl⟩
    · exact Or.inr ⟨edge, ⟨hmem, hsource⟩, rfl⟩

/-- Expanding drops nothing: the arguments close, and closed arguments make an
    instantiation. -/
theorem exists_closed_target (g : Graph) (limit : Nat) (hwell : g.WellFormed limit)
    (i : Instantiation) (hfits : g.Fits i) (target : DeclId × List Expr)
    (h : target ∈ g.targets i.decl) :
    ∃ args j, (g.binding i).closeAll? target.2 = some args ∧
      Instantiation.ofArgs? target.1 args = some j := by
  -- The hop can be taken, and taking it is closing its arguments first.
  rcases (mem_targets_iff g i.decl target).mp h with ⟨hop, hmem, hsource, rfl⟩
  rcases exists_along g limit hwell i hfits hop hmem hsource with ⟨j, hj⟩
  rcases Option.bind_eq_some_iff.mp hj with ⟨args, hargs, hof⟩
  exact ⟨args, j, hargs, hof⟩

/-- What becomes of a site. One that fires leads, from each reached instantiation
    of its caller, to something that is reached or given up. -/
def HasFate (g : Graph) (r : Resolution) (edge : Edge) : SiteFate → Prop
  | .closed => Expr.allClosed edge.args = true
  | .detached => Expr.allClosed edge.args = false ∧ ∀ i ∈ r.reached.keys, i.decl ≠ edge.caller
  | .fired => Expr.allClosed edge.args = false ∧
      (∃ i ∈ r.reached.keys, i.decl = edge.caller) ∧
      ∀ i ∈ r.reached.keys, i.decl = edge.caller →
        ∃ j, g.along i (.use edge) = some j ∧ (j ∈ r.reached.keys ∨ j ∈ r.abandoned.keys)

instance (g : Graph) (r : Resolution) (edge : Edge) : Decidable (g.HasFate r edge .detached) :=
  inferInstanceAs (Decidable (Expr.allClosed edge.args = false ∧
    ∀ i ∈ r.reached.keys, i.decl ≠ edge.caller))

/-- A site that fires does so from every reached instantiation of its caller. -/
theorem fires (g : Graph) (settings : Settings) (limit : Nat) (hwell : g.WellFormed limit)
    (edge : Edge) (hedge : edge ∈ g.edges) (i : Instantiation)
    (hi : i ∈ (g.resolve settings).reached.keys) (hcaller : i.decl = edge.caller) :
    ∃ j, g.along i (.use edge) = some j ∧
      (j ∈ (g.resolve settings).reached.keys ∨ j ∈ (g.resolve settings).abandoned.keys) := by
  have hmem : Hop.use edge ∈ g.hops := List.mem_append_left _ (List.mem_map_of_mem hedge)
  -- What is reached is the end of a walk, so it has an argument for each formal.
  rcases (mem_reached_iff g settings i).mp hi with ⟨n, _, hwalk⟩
  have hfits := (hwalk.fits g limit settings.maxTypeNesting n hwell i).2
  rcases exists_along g limit hwell i hfits (.use edge) hmem hcaller.symm with ⟨j, hj⟩
  have hleads : g.Leads i j :=
    ⟨.use edge, hmem, hcaller.symm, (along_eq_some_iff g i j (.use edge)).mp hj⟩
  exact ⟨j, hj, mem_reached_or_abandoned g settings i j hi hleads⟩

theorem existsUnique_fate (g : Graph) (settings : Settings) (limit : Nat)
    (hwell : g.WellFormed limit) (edge : Edge) (hedge : edge ∈ g.edges) :
    ∃! fate, g.HasFate (g.resolve settings) edge fate := by
  by_cases hclosed : Expr.allClosed edge.args = true
  · refine ⟨.closed, hclosed, fun fate h => ?_⟩
    cases fate with
    | closed => rfl
    | detached => exact absurd hclosed (Bool.eq_false_iff.mp h.1)
    | fired => exact absurd hclosed (Bool.eq_false_iff.mp h.1)
  · have hopen : Expr.allClosed edge.args = false := Bool.eq_false_iff.mpr hclosed
    -- An open site waits for its caller, so all depends on whether that is reached.
    by_cases hcaller : ∃ i ∈ (g.resolve settings).reached.keys, i.decl = edge.caller
    · refine ⟨.fired, ⟨hopen, hcaller, g.fires settings limit hwell edge hedge⟩,
        fun fate h => ?_⟩
      cases fate with
      | closed => exact absurd h hclosed
      | detached =>
          rcases hcaller with ⟨i, hi, heq⟩
          exact absurd heq (h.2 i hi)
      | fired => rfl
    · refine ⟨.detached, ⟨hopen, fun i hi heq => hcaller ⟨i, hi, heq⟩⟩, fun fate h => ?_⟩
      cases fate with
      | closed => exact absurd h hclosed
      | detached => rfl
      | fired => exact absurd h.2.1 hcaller

/-- The figures count exactly the detached sites. -/
theorem detachedSites_eq (g : Graph) (settings : Settings) :
    (g.resolve settings).stats.detachedSites =
      (g.siteEdges.filter fun edge => g.HasFate (g.resolve settings) edge .detached).length := by
  have hfigure : (g.resolve settings).stats.detachedSites =
      g.detachedSites (g.resolve settings).reached.keys := rfl
  rw [hfigure, detachedSites]
  refine congrArg List.length (List.filter_congr fun edge _ => ?_)
  rw [Bool.eq_iff_iff, decide_eq_true_iff]
  simp only [HasFate, Bool.and_eq_true, Bool.not_eq_true', List.any_eq_false, decide_eq_true_eq,
    ne_eq]

end Graph

/-- Everything that was written is well-formed and accounted for. The hops of a
    scanned graph are well-formed and listed once under their source. So expanding
    what is reached drops nothing, and each site is closed, detached or fired, the
    detached ones being those that are counted. -/
theorem Program.sites_accounted (p : Program) (settings : Settings)
    (hvalid : settings.validate = .ok settings) :
    let a := p.analyze settings
    let g := a.scan.graph
    let r := a.resolution
    (∀ hop ∈ g.hops, hop.source < g.table.size ∧ hop.target < g.table.size ∧
      hop.args.length = (g.table.formals hop.target).length ∧
      ∀ e ∈ hop.args, e.InScope g.table (g.table.formals hop.source) ∧
        e.nesting ≤ settings.maxTypeNesting) ∧
    (∀ id edge, (g.edgesFrom id).count edge =
      if edge.caller = id then g.edges.count edge else 0) ∧
    (∀ id edge, (g.basesOf id).count edge =
      if edge.derived = id then g.hierarchy.count edge else 0) ∧
    (∀ i ∈ r.reached.keys, i.decl < g.table.size ∧
      i.args.length = (g.table.formals i.decl).length ∧
      ∀ target ∈ g.targets i.decl, ∃ args j, (g.binding i).closeAll? target.2 = some args ∧
        Instantiation.ofArgs? target.1 args = some j) ∧
    (∀ edge ∈ g.siteEdges, ∃! fate, g.HasFate r edge fate) ∧
    r.stats.detachedSites = (g.siteEdges.filter fun edge => g.HasFate r edge .detached).length := by
  intro a g r
  have hwell : g.WellFormed settings.maxTypeNesting := p.scan_wellFormed settings.maxTypeNesting
  have hpos := settings.maxTypeNesting_pos hvalid
  refine ⟨fun hop hmem => ?_, g.count_edgesFrom, g.count_basesOf, fun i hi => ?_,
    fun edge hedge => ?_, g.detachedSites_eq settings⟩
  · have hhop := hwell hop hmem
    refine ⟨hhop.source_lt, hhop.target_lt, hhop.arity, fun e he => ⟨hhop.inScope e he, ?_⟩⟩
    -- A parameter that is passed on nests once, which valid settings allow.
    rcases hhop.nesting e he with hle | ⟨name, rfl⟩
    · exact hle
    · exact hpos
  · rcases (g.mem_reached_iff settings i).mp hi with ⟨n, _, hwalk⟩
    rcases hwalk.fits g _ _ n hwell i with ⟨hlt, hfits⟩
    exact ⟨hlt, hfits, g.exists_closed_target _ hwell i hfits⟩
  · exact g.existsUnique_fate settings _ hwell edge (List.mem_filter.mp hedge).1

namespace Errands

/-- A call that is closed as written leads to a copy, which makes a list of what
    it was given. Nothing calls the other method. -/
def program : Program where
  declarations :=
    [{ name := "main", kind := .method, body := [⟨"copy", ["List<int>"], .call⟩] },
     { name := "List", kind := .type, typeParams := ["T"] },
     { name := "copy", kind := .method, typeParams := ["A"],
       body := [⟨"List", ["A"], .construct⟩] },
     { name := "unused", kind := .method, typeParams := ["B"],
       body := [⟨"List", ["List<B>"], .construct⟩] }]

/-- The three sites have a fate each, and one of them is detached. -/
theorem fates_program :
    ({} : Settings).validate = .ok {} ∧
    (program.analyze {}).scan.graph.siteEdges.length = 3 ∧
    (∀ edge ∈ (program.analyze {}).scan.graph.siteEdges, ∃! fate,
      (program.analyze {}).scan.graph.HasFate (program.analyze {}).resolution edge fate) ∧
    ((program.analyze {}).scan.graph.siteEdges.filter fun edge =>
      (program.analyze {}).scan.graph.HasFate (program.analyze {}).resolution edge
        .detached).length = 1 := by
  have hvalid : ({} : Settings).validate = .ok {} := by decide
  rcases program.sites_accounted {} hvalid with ⟨_, _, _, _, hfates, hdetached⟩
  refine ⟨hvalid, by decide +kernel, hfates, ?_⟩
  rw [← hdetached]
  decide +kernel

end Errands

end Monomorph

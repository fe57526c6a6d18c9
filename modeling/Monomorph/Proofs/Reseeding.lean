import Monomorph.Proofs.Canonical
import Monomorph.Proofs.Keys
import Monomorph.Proofs.Sites
import Monomorph.Proofs.Unmentioned

/-!
# Seeding With What Was Reached

Whatever a program reaches can be written down and analysed again, and nothing more
comes of it.

An instantiation is written as a call of its declaration, with its arguments as they
are rendered. Two things have to fit for the call to be scanned to the instantiation
it was written for. The arguments are read back as they were, because they are
legible and were within the limit on nesting, in a scope that has no formals; and
there are as many as the declaration takes, so the call is never taken for one that
leaves out what its target inherits (`capturedFormals_of_all`).

In the graph the new calls are seeds and nothing else, since the method that makes
them is not reached itself. Where nothing was given up, what was reached is closed
under hops, so it is all that these seeds lead to. Only the numbers of hops change:
everything is a seed now.

## Main definitions

* `Instantiation.site`: The call that writes an instantiation.
* `Declaration.calling`: A method that calls each of some instantiations.
* `Graph.reseeded`: A graph with one more entry, which uses each of them.

## Theorems

* `Expr.Legible.chars_push`, `Expr.Legible.push`, `Instantiation.Legible.render_push`,
  `Instantiation.Legible.key_push`: What is legible is written in the same way in a
  table with one more entry.
* `canonicalize_push`, `Plan.ofInstantiations_push`: So lists and plans are the same.
* `Plan.ofInstantiations_eq`: A plan depends on the members of a list alone.
* `Resolution.plan_push`: Of the same reached set there is the same plan, also in a
  table with one more entry.
* `scanSite_site`: The call is scanned to the instantiation it writes.
* `Graph.isSeed_reseeded_iff`, `Graph.leads_reseeded_iff`: What the new edges do.
* `Graph.seedsWithin_reseeded`: The new seeds are within the limit on nesting.
* `Graph.mem_reached_reseeded_iff`, `Graph.abandoned_reseeded`: The closure is a fixed
  point.
* `successes_map_ok`, `failures_map_ok`: Where nothing fails.
* `Program.scanBody_calling`, `Program.graph_calling`, `Program.diagnostics_calling`:
  The graph with the calls.
* `Program.analyze_reseeded`: Results are stable under seeding with them.
* `Harbour.analyze_seeded`: A program in which a target inherits formals.
-/

namespace Monomorph

/-- The call that writes an instantiation: the name of its declaration, with its
    arguments as they are rendered. -/
def Instantiation.site (t : Table) (i : Instantiation) : Site where
  target := t.name i.decl
  typeArgs := i.args.map (Expr.render t.name)

/-- A method without parameters that calls each of the instantiations. -/
def Declaration.calling (t : Table) (name : String) (requiresSpecialization : Bool)
    (items : List Instantiation) : Declaration where
  name
  kind := .method
  requiresSpecialization
  body := items.map (Instantiation.site t)

section Push

variable (t : Table) (added : Monomorph.Entry)

/-- What is legible is written in the same way when there is one more entry. -/
theorem Expr.Legible.chars_push (e : Expr) (h : e.Legible t) :
    e.chars (t.push added).name = e.chars t.name := by
  induction h with
  | literal name _ => rfl
  | param name => rfl
  | app head args hhead _ _ _ _ ih =>
      -- The head was there before, so its name is the same.
      rw [chars, chars, charsAll_eq_map, charsAll_eq_map, t.name_push added head hhead,
        List.map_congr_left ih]

theorem Expr.Legible.push (hformals : added.formals = []) (e : Expr) (h : e.Legible t) :
    e.Legible (t.push added) := by
  induction h with
  | literal name hname => exact .literal name hname
  | param name => exact .param name
  | app head args hhead hname harity hpos _ ih =>
      refine .app head args ?_ ?_ ?_ hpos ih
      · simpa using Nat.lt_succ_of_lt hhead
      · rwa [t.name_push added head hhead]
      · rwa [t.formals_push added hformals]

namespace Instantiation.Legible

variable {i : Instantiation} (h : i.Legible t)

include h

theorem render_push :
    i.args.map (Expr.render (t.push added).name) = i.args.map (Expr.render t.name) :=
  List.map_congr_left fun e he =>
    congrArg String.ofList (Expr.Legible.chars_push t added e (h.args e he))

theorem key_push : i.key (t.push added) = i.key t := by
  rw [key_eq, key_eq, h.render_push, t.name_push added i.decl h.decl_lt]

end Instantiation.Legible

theorem canonicalize_push (items : List Instantiation) (h : ∀ i ∈ items, i.Legible t) :
    canonicalize (t.push added) items = canonicalize t items :=
  canonicalize_congr t _ items fun i hi => (h i hi).key_push t added

theorem Plan.ofInstantiations_push (items : List Instantiation) (h : ∀ i ∈ items, i.Legible t) :
    ofInstantiations (t.push added) items = ofInstantiations t items := by
  rw [ofInstantiations, ofInstantiations, canonicalize_push t added items h]
  refine congrArg Plan.mk (List.map_congr_left fun i hi => ?_)
  have hi' := h i ((mem_canonicalize_iff t items i).mp hi)
  rw [Plan.entry, Plan.entry, hi'.render_push, hi'.key_push, t.name_push added i.decl hi'.decl_lt]

theorem Plan.ofInstantiations_eq (t : Table) (items others : List Instantiation)
    (h : ∀ i, i ∈ items ↔ i ∈ others) : ofInstantiations t items = ofInstantiations t others := by
  rw [ofInstantiations, ofInstantiations, (canonicalize_eq_iff t items others).mpr h]

/-- What is planned depends on the reached set alone, and one more entry makes no
    difference to it. -/
theorem Resolution.plan_push (r r' : Resolution) (hlegible : ∀ i ∈ r.reached.keys, i.Legible t)
    (hreached : ∀ i, i ∈ r'.reached.keys ↔ i ∈ r.reached.keys) :
    Plan.ofInstantiations (t.push added) (r'.published (t.push added)) =
      Plan.ofInstantiations t (r.published t) := by
  have hpublished : ∀ i, i ∈ r'.published (t.push added) ↔ i ∈ r.published t := by
    intro i
    rw [mem_published_iff, mem_published_iff]
    refine exists_congr fun j => ?_
    rw [hreached j]
    refine and_congr_right fun hj => ?_
    rw [t.get?_push added j.decl (hlegible j hj).decl_lt]
  have hlegible' : ∀ i ∈ r.published t, i.Legible t := by
    intro i hi
    rcases (r.mem_published_iff t i).mp hi with ⟨j, hj, entry, _, _, rfl⟩
    exact (hlegible j hj).published t entry
  calc Plan.ofInstantiations (t.push added) (r'.published (t.push added))
      = Plan.ofInstantiations (t.push added) (r.published t) :=
        Plan.ofInstantiations_eq _ _ _ hpublished
    _ = Plan.ofInstantiations t (r.published t) := Plan.ofInstantiations_push t added _ hlegible'

/-- The call that writes an instantiation is scanned to an edge with its arguments. -/
theorem scanSite_site (hformals : added.formals = [])
    (hunique : (t.push added).UniquelyNamed) (limit : Nat)
    (hlimit : limit ≤ Settings.nestingCeiling) (i : Instantiation) (h : i.Legible t)
    (harity : i.args.length = (t.formals i.decl).length) (hnest : i.nesting ≤ limit) :
    scanSite (t.push added) limit t.size (i.site t) =
      .ok ⟨t.size, i.decl, i.args, .site .call⟩ := by
  have hdecl : i.decl < (t.push added).size := by
    simpa using Nat.lt_succ_of_lt h.decl_lt
  have hfind : (t.push added).find? (i.site t).target = some i.decl :=
    ((t.push added).find?_eq_some_iff hunique _ i.decl).mpr
      ⟨hdecl, t.name_push added i.decl h.decl_lt⟩
  have hentry : ∃ target, (t.push added).get? i.decl = some target :=
    ⟨_, List.getElem?_eq_getElem hdecl⟩
  rcases hentry with ⟨target, hget⟩
  have hown := (t.push added).formals_of_get? i.decl target hget
  have hlength : (i.site t).typeArgs.length = target.formals.length := by
    rw [← hown, t.formals_push added hformals, ← harity]
    exact List.length_map _
  -- As many arguments as formals are written, so none is passed on in silence.
  have hcaptured := capturedFormals_of_all (t.push added) t.size target
  refine (scanSite_eq_ok_iff _ _ _ _ _).mpr ⟨i.decl, target, i.args, hfind, hget, ?_, ?_⟩
  · rw [hlength, hcaptured, parseArgs_eq_ok_iff, hlength, hown]
    refine ⟨rfl, ?_⟩
    change List.Forall₂ _ (i.args.map (Expr.render t.name)) i.args
    rw [← h.render_push t added, List.forall₂_map_left_iff, List.forall₂_same]
    intro e he
    -- The method has no formals, so what is closed can be spelled there.
    have hnone : (t.push added).formals t.size = [] := by
      rw [(t.push added).formals_of_get? _ _ (t.get?_push_size added), hformals]
    have hclosed := (Expr.allClosed_iff i.args).mp i.closed
    have hspellable := (Expr.Legible.push t added hformals e (h.args e he)).spellable _ e
      (hclosed e he)
    rw [hnone]
    refine Scope.parse_render _ hunique e hspellable ?_
    have hle := (Expr.nestingAll_le_iff i.args limit).mp hnest e he
    exact Nat.le_min.mpr ⟨hle, Nat.le_trans hle hlimit⟩
  · rw [hlength, hcaptured]
    rfl

end Push

namespace Graph

/-- The graph with one more entry, which uses each of the instantiations. -/
def reseeded (g : Graph) (added : Entry) (items : List Instantiation) : Graph where
  table := g.table.push added
  edges := g.edges ++ items.map fun i => ⟨g.table.size, i.decl, i.args, .site .call⟩
  hierarchy := g.hierarchy
  caller_lt := by
    intro edge hedge
    rw [Table.size_push]
    rcases List.mem_append.mp hedge with hold | hnew
    · exact Nat.lt_succ_of_lt (g.caller_lt edge hold)
    · rcases List.mem_map.mp hnew with ⟨i, _, rfl⟩
      exact Nat.lt_succ_self _
  derived_lt := by
    intro edge hedge
    rw [Table.size_push]
    exact Nat.lt_succ_of_lt (g.derived_lt edge hedge)

section Reseeded

variable (g : Graph) (added : Entry) (items : List Instantiation)

theorem isSeed_reseeded_iff (i : Instantiation) :
    (g.reseeded added items).IsSeed i ↔ g.IsSeed i ∨ i ∈ items := by
  unfold IsSeed reseeded
  simp only [List.mem_append, List.mem_map]
  constructor
  · rintro ⟨edge, hold | ⟨j, hj, rfl⟩, hkind, hdecl, hargs⟩
    · exact Or.inl ⟨edge, hold, hkind, hdecl, hargs⟩
    · -- A new edge is a seed for the instantiation that it was made from.
      have heq : j = i := (Instantiation.ext_iff j i).mpr ⟨hdecl, hargs⟩
      exact Or.inr (heq ▸ hj)
  · rintro (⟨edge, hold, hseed⟩ | hi)
    · exact ⟨edge, Or.inl hold, hseed⟩
    · exact ⟨_, Or.inr ⟨i, hi, rfl⟩,
        by simp only [ne_eq, reduceCtorEq, not_false_eq_true], rfl, rfl⟩

/-- From what was there before, no hop leads anywhere else. -/
theorem leads_reseeded_iff (hformals : added.formals = []) (i j : Instantiation)
    (hi : i.decl < g.table.size) : (g.reseeded added items).Leads i j ↔ g.Leads i j := by
  -- Bindings look up formals, and the new entry has none.
  have hbinding : (g.reseeded added items).binding i = g.binding i := by
    rw [binding, binding, reseeded, g.table.formals_push added hformals]
  have hhops : ∀ hop, (hop ∈ (g.reseeded added items).hops ∧ hop.source = i.decl) ↔
      (hop ∈ g.hops ∧ hop.source = i.decl) := by
    intro hop
    refine and_congr_left fun hsource => ?_
    simp only [hops, reseeded, List.map_append, List.map_map, List.mem_append]
    rw [or_assoc, or_left_comm]
    -- The new edges start at the new entry, and the hop does not.
    refine or_iff_right ?_
    intro hnew
    rcases List.mem_map.mp hnew with ⟨k, _, rfl⟩
    exact Nat.ne_of_gt hi hsource
  unfold Leads
  rw [hbinding]
  refine exists_congr fun hop => ?_
  rw [← and_assoc, hhops hop, and_assoc]

variable (settings : Settings) (hformals : added.formals = [])
  (hseeds : g.SeedsWithin settings.maxTypeNesting)
  (hdecl : ∀ i ∈ (g.resolve settings).reached.keys, i.decl < g.table.size)
  (hnone : (g.resolve settings).stats.abandoned = 0)
  (hitems : ∀ i, i ∈ items ↔ i ∈ (g.resolve settings).reached.keys)

include hseeds hitems

theorem seedsWithin_reseeded : (g.reseeded added items).SeedsWithin settings.maxTypeNesting := by
  intro i hseed
  rcases (g.isSeed_reseeded_iff added items i).mp hseed with hold | hi
  · exact hseeds i hold
  · rcases (g.mem_reached_iff settings i).mp ((hitems i).mp hi) with ⟨n, _, hwalk⟩
    exact ((walk_iff g _ n i).mp hwalk).2

include hformals hdecl hnone

/-- Nothing was given up, so what was reached is closed under hops, and seeding with it
    leads no further. -/
theorem mem_reached_reseeded_iff (i : Instantiation) :
    i ∈ ((g.reseeded added items).resolve settings).reached.keys ↔
      i ∈ (g.resolve settings).reached.keys := by
  constructor
  · intro h
    rcases (mem_reached_iff _ settings i).mp h with ⟨n, -, hwalk⟩
    clear h
    -- Along a walk one never leaves what was reached before.
    induction hwalk with
    | seed i hseed _ =>
        rcases (g.isSeed_reseeded_iff added items i).mp hseed with hold | hi
        · exact g.mem_reached_of_isSeed settings hseeds i hold
        · exact (hitems i).mp hi
    | hop n i j _ hleads _ ih =>
        rw [g.leads_reseeded_iff added items hformals i j (hdecl i ih)] at hleads
        exact g.mem_reached_of_leads settings hnone i j ih hleads
  · -- What was reached is a seed now.
    intro h
    have hseeds' := g.seedsWithin_reseeded added items settings hseeds hitems
    refine mem_reached_of_isSeed _ settings hseeds' i ?_
    exact (g.isSeed_reseeded_iff added items i).mpr (Or.inr ((hitems i).mpr h))

theorem abandoned_reseeded :
    ((g.reseeded added items).resolve settings).stats.abandoned = 0 := by
  have hseeds' := g.seedsWithin_reseeded added items settings hseeds hitems
  have hreached := g.mem_reached_reseeded_iff added items settings hformals hseeds hdecl hnone
    hitems
  -- Whatever is given up, something reached leads to it, and so it was reached itself.
  have hkeys : ((g.reseeded added items).resolve settings).abandoned.keys = [] := by
    rw [List.eq_nil_iff_forall_not_mem]
    intro j hj
    rcases (mem_abandoned_iff _ settings hseeds' j).mp hj with ⟨hnot, i, hi, hleads⟩
    rw [hreached] at hnot hi
    rw [g.leads_reseeded_iff added items hformals i j (hdecl i hi)] at hleads
    exact hnot (g.mem_reached_of_leads settings hnone i j hi hleads)
  have hsize : ((g.reseeded added items).resolve settings).stats.abandoned =
      ((g.reseeded added items).resolve settings).abandoned.keys.length :=
    (List.length_map _).symm
  rw [hsize, hkeys]
  rfl

end Reseeded

end Graph

@[simp]
theorem successes_map_ok {ε α β : Type} (f : α → β) (items : List α) :
    successes (items.map fun a => (.ok (f a) : Except ε β)) = items.map f := by
  rw [successes, List.filterMap_map]
  exact congrFun List.filterMap_eq_map items

@[simp]
theorem failures_map_ok {ε α β : Type} (f : α → β) (items : List α) :
    failures (items.map fun a => (.ok (f a) : Except ε β)) = [] := by
  rw [List.eq_nil_iff_forall_not_mem]
  intro e he
  rcases List.mem_map.mp ((mem_failures_iff _ e).mp he) with ⟨a, _, heq⟩
  exact absurd heq (by simp only [reduceCtorEq, not_false_eq_true])

namespace Program

section Calling

variable (p : Program) (settings : Settings) (hvalid : settings.validate = .ok settings)
  {d : Declaration} (hapart : d.StandsApart p) (items : List Instantiation)
  (hbody : d.body = items.map (Instantiation.site (p.analyze settings).table))
  (hitems : ∀ i ∈ items, i ∈ (p.analyze settings).resolution.reached.keys)

include hvalid hapart hbody hitems

/-- Every call of what was reached is scanned to the edge that it stands for. -/
theorem scanBody_calling :
    scanBody ((p.analyze settings).table.push d.topEntry) settings.maxTypeNesting
      (p.analyze settings).table.size d =
    items.map fun i => .ok ⟨(p.analyze settings).table.size, i.decl, i.args, .site .call⟩ := by
  have hunique := Table.register_uniquelyNamed (p.declare d).declarations
  rw [hapart.register_declare] at hunique
  rw [scanBody, hbody, List.map_map]
  refine List.map_congr_left fun i hi => ?_
  -- What was reached has as many arguments as its declaration takes, and nests no deeper
  -- than the limit.
  rcases (Graph.mem_reached_iff _ settings i).mp (hitems i hi) with ⟨n, _, hwalk⟩
  have hfits := (hwalk.fits _ _ _ n (p.scan_wellFormed settings.maxTypeNesting) i).2
  have hnest := ((Graph.walk_iff _ _ n i).mp hwalk).2
  have hsite := scanSite_site (p.analyze settings).table d.topEntry hapart.typeParams hunique
    settings.maxTypeNesting (settings.maxTypeNesting_le hvalid) i
    (p.legible_of_reached settings i (hitems i hi)) hfits hnest
  exact congrArg (Except.mapError _) hsite

theorem graph_calling : ((p.declare d).scan settings.maxTypeNesting).graph =
    (p.scan settings.maxTypeNesting).graph.reseeded d.topEntry items := by
  have hscanned := p.scanBody_calling settings hvalid hapart items hbody hitems
  have hedges : declarationEdges ((p.analyze settings).table.push d.topEntry)
      settings.maxTypeNesting (p.analyze settings).table.size d =
      items.map fun i => ⟨(p.analyze settings).table.size, i.decl, i.args, .site .call⟩ := by
    -- Nothing encloses the method, so its calls are all it contributes.
    have hmember : memberEdge? ((p.analyze settings).table.push d.topEntry)
        (p.analyze settings).table.size d.topEntry = none := by
      rw [memberEdge?, Declaration.topEntry, ite_self]
    rw [declarationEdges, hscanned, successes_map_ok, Table.get?_push_size, Option.bind_some,
      hmember]
    rfl
  rcases hapart.graph_declare settings.maxTypeNesting with ⟨htable, hall, hhierarchy⟩
  refine Graph.ext htable (hall.trans ?_) hhierarchy
  exact congrArg _ hedges

theorem diagnostics_calling : ((p.declare d).scan settings.maxTypeNesting).diagnostics =
    (p.scan settings.maxTypeNesting).diagnostics := by
  have hscanned := p.scanBody_calling settings hvalid hapart items hbody hitems
  refine hapart.diagnostics_declare settings.maxTypeNesting ?_
  exact (congrArg failures hscanned).trans (failures_map_ok _ items)

end Calling

/-- Results are stable under seeding with them. A method of a name that is not
    mentioned, which calls everything that was reached as it is rendered, changes
    nothing, provided that nothing was given up: no call is reported, the same is
    reached and planned, and still nothing is given up. -/
theorem analyze_reseeded (p : Program) (settings : Settings)
    (hvalid : settings.validate = .ok settings)
    (hnone : (p.analyze settings).resolution.stats.abandoned = 0) (name : String)
    (hfresh : name ∉ p.mentioned) (special : Bool) (items : List Instantiation)
    (hitems : items.Perm (p.analyze settings).resolution.reached.keys) :
    let a := p.analyze settings
    let b := (p.declare (Declaration.calling a.table name special items)).analyze settings
    b.scan.diagnostics = a.scan.diagnostics ∧
    b.resolution.reached.keys.Perm a.resolution.reached.keys ∧
    b.reached = a.reached ∧ b.plan = a.plan ∧ b.resolution.stats.abandoned = 0 := by
  intro a b
  let g := a.scan.graph
  let d := Declaration.calling a.table name special items
  have hapart : d.StandsApart p := ⟨rfl, rfl, hfresh⟩
  have hmem : ∀ i, i ∈ items ↔ i ∈ a.resolution.reached.keys := fun i => hitems.mem_iff
  have hgraph : b.scan.graph = g.reseeded d.topEntry items :=
    p.graph_calling settings hvalid hapart items rfl fun i => (hmem i).mp
  have hresolution : b.resolution = (g.reseeded d.topEntry items).resolve settings :=
    congrArg (fun g : Graph => g.resolve settings) hgraph
  have htable : b.table = a.table.push d.topEntry := congrArg Graph.table hgraph
  have hlegible := p.legible_of_reached settings
  have hseeds : g.SeedsWithin settings.maxTypeNesting :=
    g.nesting_le_of_isSeed settings.maxTypeNesting (p.scan_wellFormed settings.maxTypeNesting)
  have hdecl : ∀ i ∈ a.resolution.reached.keys, i.decl < a.table.size :=
    fun i hi => (hlegible i hi).decl_lt
  have hreached : ∀ i, i ∈ b.resolution.reached.keys ↔ i ∈ a.resolution.reached.keys := by
    rw [hresolution]
    exact g.mem_reached_reseeded_iff d.topEntry items settings rfl hseeds hdecl hnone hmem
  refine ⟨p.diagnostics_calling settings hvalid hapart items rfl fun i => (hmem i).mp,
    ?_, ?_, ?_, ?_⟩
  · exact (List.perm_ext_iff_of_nodup b.resolution.reached.nodup
      a.resolution.reached.nodup).mpr hreached
  · rw [Analysis.reached, htable, (canonicalize_eq_iff _ _ _).mpr hreached]
    exact canonicalize_push a.table d.topEntry _ hlegible
  · have hplan : b.plan = Plan.ofInstantiations b.table (b.resolution.published b.table) := rfl
    rw [hplan, htable]
    exact Resolution.plan_push a.table d.topEntry a.resolution b.resolution hlegible hreached
  · rw [hresolution]
    exact g.abandoned_reseeded d.topEntry items settings rfl hseeds hdecl hnone hmem

end Program

namespace Harbour

/-- A dock with berths. The method of a dock leaves out what a berth inherits. -/
def program : Program where
  declarations :=
    [{ name := "main", kind := .method, body := [⟨"Dock", ["ship"], .construct⟩] },
     { name := "Dock", kind := .type, typeParams := ["A"], requiresSpecialization := true },
     { name := "Dock.Berth", kind := .type, typeParams := ["B"], enclosing := some "Dock",
       requiresSpecialization := true },
     { name := "Dock.moor", kind := .method, enclosing := some "Dock",
       body := [⟨"Dock.Berth", ["Dock<A>"], .construct⟩] }]

/-- The program with a method that calls everything that is reached. -/
def seeded : Program :=
  program.declare (.calling (program.analyze {}).table "Pilot" true
    (program.analyze {}).resolution.reached.keys)

/-- The calls write both arguments of a berth, and are not taken for calls that leave
    one out. -/
theorem analyze_seeded :
    ({} : Settings).validate = .ok {} ∧
    (program.analyze {}).resolution.stats.abandoned = 0 ∧
    "Pilot" ∉ program.mentioned ∧
    seeded.declarations.getLast?.map Declaration.body = some
      [⟨"Dock", ["ship"], .call⟩, ⟨"Dock.moor", ["ship"], .call⟩,
        ⟨"Dock.Berth", ["ship", "Dock<ship>"], .call⟩] ∧
    (program.analyze {}).plan.keys = ["Dock.Berth<ship,Dock<ship>>", "Dock<ship>"] ∧
    (seeded.analyze {}).scan.diagnostics = (program.analyze {}).scan.diagnostics ∧
    (seeded.analyze {}).resolution.reached.keys.Perm
      (program.analyze {}).resolution.reached.keys ∧
    (seeded.analyze {}).reached = (program.analyze {}).reached ∧
    (seeded.analyze {}).plan = (program.analyze {}).plan ∧
    (seeded.analyze {}).resolution.stats.abandoned = 0 := by
  have hvalid : ({} : Settings).validate = .ok {} := by decide
  have hnone : (program.analyze {}).resolution.stats.abandoned = 0 := by decide +kernel
  have hfresh : "Pilot" ∉ program.mentioned := by decide +kernel
  refine ⟨hvalid, hnone, hfresh, by decide +kernel, by decide +kernel, ?_⟩
  unfold seeded
  exact program.analyze_reseeded {} hvalid hnone "Pilot" hfresh true _ (.refl _)

end Harbour

end Monomorph

import Monomorph.Analysis
import Monomorph.Proofs.Cycles
import Monomorph.Proofs.Order
import Monomorph.Proofs.Reached

/-!
# Faulty Facts Are Isolated

A fact that is refused has no effect beyond its being reported: the program
without it has the same graph, and nothing is reported about that one.

Scanning recovers from every fault where it meets it and goes on with what is
left. It does so at different times. Repetitions are ignored before numbers are
given, links are dropped before formals are collected, and sites are refused when
the table is there. A later stage reads what an earlier one has repaired, so it is
not plain that leaving the facts out from the start would come to the same. Links
are the hard part. Clearing the ones that were dropped has to leave the others
alone, of which the cycles that were cut are made, and must not bring about new
cycles. It does not, because what is left to name is what is linked in the table
already (`namesOuter_purged_iff`), and there nothing leads back to itself.

The rest follows stage by stage. The same links give the same formals and so the
same table (`register_purged`). Under the same table a site gives the same edge or
the same fault, so those that are left give the edges there were and no faults
(`successes_filter_isOk`). Resolving sees only the graph.

## Main definitions

* `linkReported`: Something reported says that a declaration lost its link.
* `Declaration.purged`, `Program.purged`: What is left without the facts that were
  refused.

## Theorems

* `successes_filter_isOk`, `failures_filter_isOk`: Leaving out what fails.
* `SiteFault.code_ne_invalidEnclosure`, `Program.mem_diagnostics_iff_of_code`: What is
  reported about links.
* `Program.linkReported_iff`: A lost link is reported under the declaration's name.
* `Program.getElem?_purged`, `Program.length_purged`, `Program.registered_purged`: The
  declarations that are left, under the same numbers.
* `Program.enclosing_purged_eq_some_iff`, `Program.namesOuter_purged_iff`: What is left
  to name is what is linked.
* `Program.not_applies_purged`: Nothing is wrong with the links that are left.
* `Program.reported_purged`, `Program.links_purged`, `Program.register_purged`: The
  table is the same, and nothing is reported about it.
* `Program.flatMap_purged`, `Program.declarationEdges_purged`,
  `Program.failures_scanBody_purged`, `Program.scanHierarchy_purged`: What is scanned of
  what is left.
* `Program.scan_purged`: The graph is the same, and nothing is reported at all.
* `Diagnostic.sort_sort`: A report is in its order already.
* `Program.analyze_purged`: So is everything that comes of it.
-/

namespace Monomorph

/-- Whether something that was reported says that the declaration with a name lost
    its link. -/
def linkReported (reported : List Diagnostic) (name : String) : Bool :=
  reported.any fun x => x.code = .invalidEnclosure ∧ x.subject = some name

/-- The declaration with a number, without the link if that was reported and without
    the sites that give no edge. -/
def Declaration.purged (scan : Scan) (maxNesting : Nat) (id : DeclId) (d : Declaration) :
    Declaration :=
  { d with
    enclosing := if linkReported scan.diagnostics d.name then none else d.enclosing
    body := d.body.filter fun site => (scanSite scan.graph.table maxNesting id site).isOk }

/-- The program without the facts that its scan reports: repeated declarations,
    links that were dropped, and sites and inheritance relations without an edge. -/
def Program.purged (p : Program) (maxNesting : Nat) : Program where
  declarations :=
    (registered p.declarations).mapIdx (Declaration.purged (p.scan maxNesting) maxNesting)
  hierarchy :=
    p.hierarchy.filter fun i =>
      (scanInheritance (p.scan maxNesting).graph.table maxNesting i).isOk

section Outcomes

variable {α β ε δ : Type} (f : α → Except ε β) (report : α → ε → δ) (items : List α)

/-- What succeeds is found whether or not the failures are left out first. -/
theorem successes_filter_isOk :
    successes ((items.filter fun a => (f a).isOk).map fun a => (f a).mapError (report a)) =
      successes (items.map fun a => (f a).mapError (report a)) := by
  unfold successes
  rw [List.filterMap_map, List.filterMap_map, List.filterMap_filter]
  refine List.filterMap_congr fun a _ => ?_
  cases h : f a with
  | ok b => simp only [Function.comp_apply, h, Except.isOk, Except.toBool, if_true]
  | error e =>
      simp only [Function.comp_apply, h, Except.isOk, Except.toBool, Bool.false_eq_true, if_false]
      rfl

/-- Without the failures nothing fails. -/
theorem failures_filter_isOk :
    failures ((items.filter fun a => (f a).isOk).map fun a => (f a).mapError (report a)) = [] := by
  rw [List.eq_nil_iff_forall_not_mem]
  intro x hx
  rcases List.mem_map.mp ((mem_failures_iff _ _).mp hx) with ⟨a, ha, hfail⟩
  rcases (mapError_eq_error_iff _ _ _).mp hfail with ⟨e, he, _⟩
  have hok := (List.mem_filter.mp ha).2
  rw [he] at hok
  exact absurd hok Bool.false_ne_true

end Outcomes

theorem SiteFault.code_ne_invalidEnclosure (subject : String) (fault : SiteFault) :
    (fault.diagnostic subject).code ≠ .invalidEnclosure := by
  cases fault <;> exact Diagnostic.Code.noConfusion

namespace Program

variable (p : Program) (maxNesting : Nat)

/-- What a scan reports about links is one report for each that was dropped. -/
theorem mem_diagnostics_iff_of_code (x : Diagnostic) (hcode : x.code = .invalidEnclosure) :
    x ∈ (p.scan maxNesting).diagnostics ↔ ∃ fault ∈ enclosureFaults p.declarations,
      fault.2.diagnostic ((Table.register p.declarations).1.name fault.1) = x := by
  rw [← List.mem_map, ← Table.filter_reported, List.mem_filter]
  constructor
  · intro hx
    refine ⟨?_, decide_eq_true hcode⟩
    -- Faults of sites and of inheritance relations have other codes.
    rcases List.mem_append.mp hx with hx | hx
    · rcases List.mem_append.mp hx with hx | hx
      · exact hx
      · rcases List.mem_flatMap.mp hx with ⟨body, _, hbody⟩
        rcases List.mem_map.mp ((mem_failures_iff _ _).mp hbody) with ⟨site, _, hsite⟩
        rcases (mapError_eq_error_iff _ _ _).mp hsite with ⟨fault, _, rfl⟩
        exact absurd hcode (SiteFault.code_ne_invalidEnclosure _ fault)
    · rcases List.mem_map.mp ((mem_failures_iff _ _).mp hx) with ⟨i, _, hi⟩
      rcases (mapError_eq_error_iff _ _ _).mp hi with ⟨fault, _, rfl⟩
      exact absurd hcode (SiteFault.code_ne_invalidEnclosure _ fault)
  · rintro ⟨hx, _⟩
    exact List.mem_append_left _ (List.mem_append_left _ hx)

/-- A declaration is reported to have lost its link exactly where a fault applies to
    it. -/
theorem linkReported_iff (id : DeclId) (d : Declaration)
    (hget : (registered p.declarations)[id]? = some d) :
    linkReported (p.scan maxNesting).diagnostics d.name = true ↔
      ∃ fault : EnclosureFault, fault.Applies (registered p.declarations) id := by
  have hnodup := nodup_registered p.declarations
  have hname : (Table.register p.declarations).1.name id = d.name := by
    rw [Table.name_register, List.getElem?_map, hget]
    rfl
  unfold linkReported
  simp only [List.any_eq_true, decide_eq_true_eq]
  constructor
  · rintro ⟨x, hx, hcode, hsubject⟩
    rcases (p.mem_diagnostics_iff_of_code maxNesting x hcode).mp hx with ⟨⟨id', fault⟩, hmem, rfl⟩
    have happlies := (mem_enclosureFaults_iff p.declarations id' fault).mp hmem
    -- Names differ, so it is this declaration that the report is about.
    rcases happlies.exists_get with ⟨d', hget'⟩
    have hname' : (Table.register p.declarations).1.name id' = d'.name := by
      rw [Table.name_register, List.getElem?_map, hget']
      rfl
    have hsame : d'.name = d.name := hname'.symm.trans (Option.some.inj hsubject)
    rw [eq_of_name_eq _ hnodup id' id d' d hget' hget hsame] at happlies
    exact ⟨fault, happlies⟩
  · rintro ⟨fault, happlies⟩
    refine ⟨fault.diagnostic d.name, ?_, rfl, rfl⟩
    exact (p.mem_diagnostics_iff_of_code maxNesting _ rfl).mpr
      ⟨(id, fault), (mem_enclosureFaults_iff p.declarations id fault).mpr happlies, by rw [hname]⟩

@[simp]
theorem getElem?_purged (id : DeclId) :
    (p.purged maxNesting).declarations[id]? = (registered p.declarations)[id]?.map
      (Declaration.purged (p.scan maxNesting) maxNesting id) :=
  List.getElem?_mapIdx

/-- Names are those of the registered declarations, so none is repeated. -/
@[simp]
theorem registered_purged :
    registered (p.purged maxNesting).declarations = (p.purged maxNesting).declarations := by
  refine registered_eq_self _ ?_
  have hnames : (p.purged maxNesting).declarations.map Declaration.name =
      (registered p.declarations).map Declaration.name := by
    refine List.ext_getElem? fun id => ?_
    rw [List.getElem?_map, List.getElem?_map, getElem?_purged, Option.map_map]
    rfl
  rw [hnames]
  exact nodup_registered p.declarations

/-- What a declaration encloses by name is left where no fault applies to it. -/
theorem enclosing_purged_eq_some_iff (id : DeclId) (d : Declaration) (name : String)
    (hget : (registered p.declarations)[id]? = some d) :
    (d.purged (p.scan maxNesting) maxNesting id).enclosing = some name ↔
      d.enclosing = some name ∧
        ∀ fault : EnclosureFault, ¬ fault.Applies (registered p.declarations) id := by
  have hiff := p.linkReported_iff maxNesting id d hget
  simp only [Declaration.purged]
  by_cases hreported : linkReported (p.scan maxNesting).diagnostics d.name = true
  · rw [if_pos hreported]
    rcases hiff.mp hreported with ⟨fault, happlies⟩
    exact iff_of_false (by simp only [reduceCtorEq, not_false_eq_true])
      fun h => h.2 fault happlies
  · rw [if_neg hreported]
    exact (and_iff_left fun fault happlies => hreported (hiff.mpr ⟨fault, happlies⟩)).symm

/-- What is left to name is what is linked in the table. -/
theorem namesOuter_purged_iff (id outer : DeclId) :
    NamesOuter (p.purged maxNesting).declarations id outer ↔
      (Table.register p.declarations).1.Within id outer := by
  rw [Table.within_register_iff]
  unfold NamesOuter
  simp only [getElem?_purged, Option.map_eq_some_iff]
  constructor
  · rintro ⟨hne, _, _, ⟨d, hd, rfl⟩, ⟨e, he, rfl⟩, hname⟩
    rcases (p.enclosing_purged_eq_some_iff maxNesting id d _ hd).mp hname with ⟨hnamed, hnone⟩
    exact ⟨⟨hne, d, e, hd, he, hnamed⟩, hnone⟩
  · rintro ⟨⟨hne, d, e, hd, he, hnamed⟩, hnone⟩
    exact ⟨hne, _, _, ⟨d, hd, rfl⟩, ⟨e, he, rfl⟩,
      (p.enclosing_purged_eq_some_iff maxNesting id d _ hd).mpr ⟨hnamed, hnone⟩⟩

/-- Nothing is wrong with the links that are left. -/
theorem not_applies_purged (id : DeclId) (fault : EnclosureFault) :
    ¬ fault.Applies (p.purged maxNesting).declarations id := by
  intro happlies
  cases happlies with
  | unknown d' name hget hname hnone =>
      rw [getElem?_purged] at hget
      rcases Option.map_eq_some_iff.mp hget with ⟨d, hd, rfl⟩
      rcases (p.enclosing_purged_eq_some_iff maxNesting id d name hd).mp hname with
        ⟨hnamed, hfaults⟩
      -- A name that is not among those that are left was not there before.
      refine hfaults (.unknown name) (.unknown d name hd hnamed fun e he heq => ?_)
      rcases List.getElem?_of_mem he with ⟨place, hplace⟩
      have hleft := p.getElem?_purged maxNesting place
      rw [hplace] at hleft
      exact hnone _ (List.mem_of_getElem? hleft) heq
  | itself d' hget hname =>
      rw [getElem?_purged] at hget
      rcases Option.map_eq_some_iff.mp hget with ⟨d, hd, rfl⟩
      rcases (p.enclosing_purged_eq_some_iff maxNesting id d _ hd).mp hname with
        ⟨hnamed, hfaults⟩
      exact hfaults .itself (.itself d hd hnamed)
  | cycle hleast =>
      -- A cycle of what is left would be one of links in the table.
      have hsame : NamesOuter (p.purged maxNesting).declarations =
          (Table.register p.declarations).1.Within := by
        funext a b
        exact propext (p.namesOuter_purged_iff maxNesting a b)
      have hcycle := hleast.1
      rw [hsame] at hcycle
      exact Table.not_transGen_within p.declarations id hcycle

theorem reported_purged : (Table.register (p.purged maxNesting).declarations).2 = [] := by
  -- Repetitions and lost links are all that registering reports.
  have hrepeated : repeated (p.purged maxNesting).declarations = [] := by
    rw [repeated_eq_nil_iff, ← registered_purged]
    exact nodup_registered _
  have hfaults : enclosureFaults (p.purged maxNesting).declarations = [] := by
    rw [List.eq_nil_iff_forall_not_mem]
    rintro ⟨id, fault⟩ hmem
    rw [mem_enclosureFaults_iff, registered_purged] at hmem
    exact p.not_applies_purged maxNesting id fault hmem
  rw [Table.reported_eq_enclosureFaults, hrepeated, hfaults]
  rfl

@[simp]
theorem length_purged :
    (p.purged maxNesting).declarations.length = (registered p.declarations).length :=
  List.length_mapIdx

theorem links_purged :
    enclosureLinks (p.purged maxNesting).declarations = enclosureLinks p.declarations := by
  have hlength := (enclosureLinks_acyclic p.declarations).1
  have hlength' := (enclosureLinks_acyclic (p.purged maxNesting).declarations).1
  rw [registered_purged, length_purged] at hlength'
  refine Links.eq_of_within _ _ (hlength'.trans hlength.symm) ?_
  intro id outer
  have hwithin : ∀ ds, (enclosureLinks ds).Within = (Table.register ds).1.Within := by
    intro ds
    rw [← Table.within_links, Table.links_register]
    rfl
  -- What is left names what is linked, and no fault applies to it, so it keeps that.
  rw [hwithin, hwithin, Table.within_register_iff, registered_purged, namesOuter_purged_iff]
  exact and_iff_left (p.not_applies_purged maxNesting id)

/-- Leaving out what is refused leaves the table as it is, with nothing to report. -/
theorem register_purged : Table.register (p.purged maxNesting).declarations =
    ((Table.register p.declarations).1, []) := by
  refine Prod.ext (congrArg Table.mk (List.ext_getElem? fun id => ?_))
    (p.reported_purged maxNesting)
  have hget := Table.get?_register (p.purged maxNesting).declarations id
  rw [links_purged, registered_purged, getElem?_purged, Option.map_map] at hget
  refine hget.trans (Eq.trans ?_ (Table.get?_register p.declarations id).symm)
  -- Purging leaves parameters alone, so the chains collect the same formals.
  have hparams : ∀ outer : DeclId,
      ((p.purged maxNesting).declarations[outer]?).elim [] Declaration.typeParams =
        ((registered p.declarations)[outer]?).elim [] Declaration.typeParams := by
    intro outer
    rw [getElem?_purged]
    cases (registered p.declarations)[outer]? with
    | none => rfl
    | some d => rfl
  refine congrArg (fun f => (registered p.declarations)[id]?.map f) (funext fun d => ?_)
  simp only [Function.comp_apply, Table.entryOf, length_purged, hparams, Declaration.purged]

/-- Something that is collected from the declarations is collected from those that
    are left, if leaving out makes no difference to what each gives. -/
theorem flatMap_purged {α : Type} (f f' : DeclId → Declaration → List α)
    (h : ∀ id d, f' id (d.purged (p.scan maxNesting) maxNesting id) = f id d) :
    ((registered (p.purged maxNesting).declarations).zipIdx.flatMap fun body =>
        f' body.2 body.1) =
      (registered p.declarations).zipIdx.flatMap fun body => f body.2 body.1 := by
  rw [registered_purged, flatMap_zipIdx_eq, flatMap_zipIdx_eq, length_purged]
  refine List.flatMap_congr fun id _ => ?_
  rw [getElem?_purged]
  cases (registered p.declarations)[id]? with
  | none => rfl
  | some d => exact h id d

theorem declarationEdges_purged (id : DeclId) (d : Declaration) :
    declarationEdges (p.scan maxNesting).graph.table maxNesting id
        (d.purged (p.scan maxNesting) maxNesting id) =
      declarationEdges (p.scan maxNesting).graph.table maxNesting id d :=
  congrArg (((p.scan maxNesting).graph.table.get? id).bind _).toList.append
    (successes_filter_isOk (scanSite (p.scan maxNesting).graph.table maxNesting id)
      (fun _ => SiteFault.diagnostic d.name) d.body)

theorem failures_scanBody_purged (id : DeclId) (d : Declaration) :
    failures (scanBody (p.scan maxNesting).graph.table maxNesting id
      (d.purged (p.scan maxNesting) maxNesting id)) = [] :=
  failures_filter_isOk (scanSite (p.scan maxNesting).graph.table maxNesting id)
    (fun _ => SiteFault.diagnostic d.name) d.body

theorem scanHierarchy_purged :
    successes (scanHierarchy (p.scan maxNesting).graph.table maxNesting
        (p.purged maxNesting).hierarchy) = (p.scan maxNesting).graph.hierarchy ∧
      failures (scanHierarchy (p.scan maxNesting).graph.table maxNesting
        (p.purged maxNesting).hierarchy) = [] :=
  ⟨successes_filter_isOk (scanInheritance (p.scan maxNesting).graph.table maxNesting)
      (fun i => SiteFault.diagnostic i.derived) p.hierarchy,
    failures_filter_isOk (scanInheritance (p.scan maxNesting).graph.table maxNesting)
      (fun i => SiteFault.diagnostic i.derived) p.hierarchy⟩

/-- Leaving out what is refused leaves the graph as it is, with nothing to report. -/
theorem scan_purged :
    (p.purged maxNesting).scan maxNesting = { graph := (p.scan maxNesting).graph } := by
  have htable : Table.register (p.purged maxNesting).declarations =
      ((p.scan maxNesting).graph.table, []) := p.register_purged maxNesting
  have hedges := p.flatMap_purged maxNesting _ _ (p.declarationEdges_purged maxNesting)
  have hsites := p.flatMap_purged maxNesting (fun _ _ => [])
    (fun id d => failures (scanBody (p.scan maxNesting).graph.table maxNesting id d))
    (p.failures_scanBody_purged maxNesting)
  rcases p.scanHierarchy_purged maxNesting with ⟨hrelations, hrefused⟩
  have hnone : ((registered p.declarations).zipIdx.flatMap fun _ => ([] : List Diagnostic)) = [] :=
    List.flatMap_eq_nil_iff.mpr fun _ _ => rfl
  -- Under the same table, part by part.
  refine Scan.ext (Graph.ext ?_ ?_ ?_) ?_
  · rw [table_scan, htable]
  · rw [edges_scan, htable]
    exact hedges
  · rw [hierarchy_scan, htable]
    exact hrelations
  · rw [diagnostics_scan, htable, hsites, hrefused, hnone]
    rfl

end Program

/-- Sorting a report again leaves it as it is. -/
theorem Diagnostic.sort_sort (ds : List Diagnostic) : sort (sort ds) = sort ds :=
  List.mergeSort_of_pairwise (sort_pairwise ds)

/-- What is refused has no effect beyond its being reported. Without the repeated
    declarations, the links that were dropped and the sites and relations that were
    refused, a program has the same graph, about which there is nothing to report, and
    from there on everything is the same. -/
theorem Program.analyze_purged (p : Program) (settings : Settings) :
    let a := p.analyze settings
    let b := (p.purged settings.maxTypeNesting).analyze settings
    b.scan.graph = a.scan.graph ∧ b.scan.diagnostics = [] ∧
    b.plan = a.plan ∧ b.resolution.reached = a.resolution.reached ∧
    b.resolution.stats = a.resolution.stats ∧
    b.diagnostics = a.resolution.diagnostics a.table := by
  intro a b
  have hscan : b.scan = { graph := a.scan.graph } := p.scan_purged settings.maxTypeNesting
  have hgraph : b.scan.graph = a.scan.graph := by rw [hscan]
  have hresolution : b.resolution = a.resolution :=
    congrArg (fun g : Graph => g.resolve settings) hgraph
  refine ⟨hgraph, by rw [hscan], ?_, congrArg _ hresolution,
    congrArg _ hresolution, ?_⟩
  · exact congrArg (fun g : Graph => Plan.ofInstantiations g.table
      ((g.resolve settings).published g.table)) hgraph
  · have htable : b.table = a.table := congrArg Graph.table hgraph
    rw [Analysis.diagnostics, hscan, hresolution, htable, List.nil_append]
    exact Diagnostic.sort_sort _

example : (({ declarations := Ring.declarations } : Program).purged 8).declarations.map
      (fun d => (d.name, d.enclosing)) =
    [("Tail", some "B"), ("A", none), ("B", some "C"), ("C", some "A"), ("Own", none),
      ("Lost", none)] := by
  decide +kernel

end Monomorph

import Monomorph.Proofs.Reached
import Monomorph.Proofs.Registration
import Monomorph.Proofs.Renumbering

/-!
# The Order of Writing Does Not Matter

A program may be written in another order: its declarations, the sites in each
body, and its inheritance relations. Provided that names differ and nothing
encloses itself, an analysis comes to the same result.

Another order of declarations gives them other numbers, and this is the only
thing that it changes: the scan is the renumbered one, up to the order of edges
(`scan_renamed`), and renumbered graphs have been dealt with. What remains are
the diagnostics. They carry no numbers, so the same ones are reported, in an
order that differs. A report sorts them by code, subject and message, and that
is enough to put the same ones into the same places, since what an analysis
reports is `Regular`: the level goes with the code, and whether there is a
suggestion can be told from how the message starts.

## Main definitions

* `Program.Reordered`: The same program written in another order.
* `Diagnostic.Regular`: Level and suggestions follow from code and message.

## Theorems

* `Table.Renamed.scanBody_perm`, `Table.Renamed.declarationEdges_perm`,
  `Table.Renamed.failures_scanBody_perm`: A body in another order.
* `Table.Renamed.scanHierarchy_perm`: Inheritance relations in another order.
* `Program.scan_renamed`: Scanning a reordered program renumbers the graph.
* `SiteFault.head?_message_wrongCount`, `SiteFault.head?_message_badArgument`: How the
  messages about a site start.
* `Diagnostic.Regular.eq_of_compare`: Regular diagnostics that a report does not
  tell apart are the same.
* `Diagnostic.regular_about`, `Diagnostic.regular_site`: Single diagnostics are regular.
* `Program.regular_scan`, `Graph.regular_resolve`, `Program.regular_analyze`: So is
  everything that an analysis reports.
* `Program.analyze_reordered`: An analysis does not depend on the order.
* `Ledger.analyze_reversed`: A program read from its end.
-/

namespace Monomorph

/-- The same program with its declarations, the sites of each of them and its
    inheritance relations written in another order. -/
structure Program.Reordered (p q : Program) : Prop where
  declarations : ∃ ds, ds.Perm p.declarations ∧
    List.Forall₂ Declaration.Shuffled ds q.declarations
  hierarchy : q.hierarchy.Perm p.hierarchy

namespace Table.Renamed

variable {σ : Equiv.Perm DeclId} {t t' : Table}

/-- The outcomes of a body are those of its sites in another order, renumbered. -/
theorem scanBody_perm (h : Renamed σ t t') (maxNesting : Nat) (id : DeclId)
    (d d' : Declaration) (hd : d.Shuffled d') :
    (scanBody t' maxNesting (σ id) d').Perm
      ((scanBody t maxNesting id d).map (Except.map (Edge.rename σ))) := by
  rcases hd with ⟨body, hbody, rfl⟩
  unfold scanBody
  rw [List.map_map]
  -- A fault names the declaration by its text, so only edges have numbers to change.
  refine (hbody.map _).trans (List.Perm.of_eq (List.map_congr_left fun site _ => ?_))
  rw [h.scanSite, Function.comp_apply]
  cases Monomorph.scanSite t maxNesting id site <;> rfl

theorem declarationEdges_perm (h : Renamed σ t t') (maxNesting : Nat) (id : DeclId)
    (d d' : Declaration) (hd : d.Shuffled d') :
    (declarationEdges t' maxNesting (σ id) d').Perm
      ((declarationEdges t maxNesting id d).map (Edge.rename σ)) := by
  have hmember : ((t'.get? (σ id)).bind (Monomorph.memberEdge? t' (σ id))).toList =
      (((t.get? id).bind (Monomorph.memberEdge? t id)).toList).map (Edge.rename σ) := by
    rw [h.get?]
    cases t.get? id with
    | none => rfl
    | some entry =>
        rw [Option.map_some, Option.bind_some, Option.bind_some, h.memberEdge?]
        cases Monomorph.memberEdge? t id entry <;> rfl
  unfold declarationEdges
  rw [hmember, List.map_append, ← successes_map]
  exact ((h.scanBody_perm maxNesting id d d' hd).filterMap _).append_left _

theorem failures_scanBody_perm (h : Renamed σ t t') (maxNesting : Nat) (id : DeclId)
    (d d' : Declaration) (hd : d.Shuffled d') :
    (failures (scanBody t' maxNesting (σ id) d')).Perm
      (failures (scanBody t maxNesting id d)) := by
  rw [← failures_map (Edge.rename σ) (scanBody t maxNesting id d)]
  exact (h.scanBody_perm maxNesting id d d' hd).filterMap _

theorem scanHierarchy_perm (h : Renamed σ t t') (maxNesting : Nat)
    (hierarchy hierarchy' : List Inheritance) (hperm : hierarchy'.Perm hierarchy) :
    (scanHierarchy t' maxNesting hierarchy').Perm
      ((scanHierarchy t maxNesting hierarchy).map (Except.map (HierarchyEdge.rename σ))) := by
  unfold scanHierarchy
  rw [List.map_map]
  refine (hperm.map _).trans (List.Perm.of_eq (List.map_congr_left fun i _ => ?_))
  rw [h.scanInheritance, Function.comp_apply]
  cases Monomorph.scanInheritance t maxNesting i <;> rfl

end Table.Renamed

namespace Program

variable {p q : Program} {maxNesting : Nat}

/-- Scanning a reordered program renumbers its graph and reports the same. -/
theorem scan_renamed (hreordered : p.Reordered q)
    (hunique : ∀ d ∈ (p.scan maxNesting).diagnostics, d.code ≠ .duplicateDeclaration)
    (hcycle : ∀ name, EnclosureFault.cycle.diagnostic name ∉ (p.scan maxNesting).diagnostics) :
    ∃ σ, Graph.Renamed σ (p.scan maxNesting).graph (q.scan maxNesting).graph ∧
      (q.scan maxNesting).diagnostics.Perm (p.scan maxNesting).diagnostics := by
  -- What registering would report about names and enclosing, the scan reports.
  have hforest : IsForest p.declarations := by
    refine Table.isForest_of_register p.declarations (fun d hd => hunique d ?_)
      (fun name hname => hcycle name ?_)
    · exact List.mem_append_left _ (List.mem_append_left _ hd)
    · exact List.mem_append_left _ (List.mem_append_left _ hname)
  rcases hreordered.declarations with ⟨ds, hperm, hshuffled⟩
  rcases exists_redeclared hperm hshuffled with ⟨σ, h⟩
  -- Nothing is ignored in either order, so both scans go over all that was written.
  have htable := h.register hforest
  have hhierarchy := htable.scanHierarchy_perm maxNesting _ _ hreordered.hierarchy
  have hregistered := registered_eq_self _ hforest.nodup
  have hregistered' := registered_eq_self _ (h.isForest hforest).nodup
  refine ⟨σ, ⟨htable, ?_, ?_⟩, ?_⟩
  · rw [edges_scan, edges_scan, hregistered, hregistered', List.map_flatMap]
    exact h.flatMap_perm _ _ fun id d d' hd => htable.declarationEdges_perm maxNesting id d d' hd
  · rw [hierarchy_scan, hierarchy_scan, ← successes_map]
    exact hhierarchy.filterMap _
  · rw [diagnostics_scan, diagnostics_scan, hregistered, hregistered']
    refine ((h.reported hforest).append ?_).append ?_
    · exact h.flatMap_perm _ _ fun id d d' hd =>
        htable.failures_scanBody_perm maxNesting id d d' hd
    · rw [← failures_map (HierarchyEdge.rename σ) (scanHierarchy _ maxNesting p.hierarchy)]
      exact hhierarchy.filterMap _

end Program

namespace SiteFault

theorem head?_message_wrongCount (target : String) (expected found : Nat) :
    (wrongCount target expected found).message.toList.head? = "`".toList.head? := by
  change ("`" ++ target ++ "` expects " ++ _ ++ _ ++ _).toList.head? = _
  simp only [String.toList_append, List.append_assoc]
  exact List.head?_append_of_ne_nil _ (by decide)

theorem head?_message_badArgument (target text : String) (cause : ParseError) :
    (badArgument target text cause).message.toList.head? ≠ "`".toList.head? := by
  change ("cannot decompose `" ++ text ++ "` for `" ++ target ++ "`: " ++ _).toList.head? ≠ _
  simp only [String.toList_append, List.append_assoc]
  rw [List.head?_append_of_ne_nil _ (by decide)]
  decide

end SiteFault

namespace Diagnostic

/-- The suggestions that go with a code and a message. Only a wrong number of
    arguments comes with one, and of the messages with its code these are the ones
    that start by quoting a name. -/
def expectedSuggestions (code : Code) (message : String) : List String :=
  if code = .malformedGenericExpression ∧ message.toList.head? = "`".toList.head? then
    (SiteFault.wrongCount "" 0 0).suggestions
  else []

/-- A diagnostic of which everything can be told from code, subject and message. -/
structure Regular (d : Diagnostic) : Prop where
  level : d.level = d.code.level
  suggestions : d.suggestions = expectedSuggestions d.code d.message

theorem Regular.eq_of_compare {a b : Diagnostic} (ha : a.Regular) (hb : b.Regular)
    (h : compare a b = .eq) : a = b := by
  -- The order looks at three fields, and the other two are told from these.
  rcases (compare_eq_iff a b).mp h with ⟨hcode, hsubject, hmessage⟩
  have hlevel : a.level = b.level := by rw [ha.level, hb.level, hcode]
  have hsuggestions : a.suggestions = b.suggestions := by
    rw [ha.suggestions, hb.suggestions, hcode, hmessage]
  cases a
  cases b
  simp only at hcode hsubject hmessage hlevel hsuggestions
  rw [hcode, hsubject, hmessage, hlevel, hsuggestions]

theorem regular_about (code : Code) (subject message : String)
    (hcode : code ≠ .malformedGenericExpression) : (about code subject message).Regular :=
  ⟨rfl, (if_neg fun h => hcode h.1).symm⟩

theorem regular_site (subject : String) (fault : SiteFault) :
    (SiteFault.diagnostic subject fault).Regular := by
  refine ⟨rfl, ?_⟩
  -- Two faults share a code. Of these one message starts with a quoted name.
  cases fault with
  | unknownTarget _ => exact (if_neg fun h => Code.noConfusion h.1).symm
  | unknownRelative _ _ _ => exact (if_neg fun h => Code.noConfusion h.1).symm
  | wrongCount target expected found =>
      exact (if_pos ⟨rfl, SiteFault.head?_message_wrongCount target expected found⟩).symm
  | badArgument target text cause =>
      exact (if_neg fun h => SiteFault.head?_message_badArgument target text cause h.2).symm

end Diagnostic

/-- Everything that a scan reports is regular. -/
theorem Program.regular_scan (p : Program) (maxNesting : Nat) :
    ∀ d ∈ (p.scan maxNesting).diagnostics, d.Regular :=
  Program.forall_scan Diagnostic.Regular
    (fun _ => Diagnostic.regular_about _ _ _ Diagnostic.Code.noConfusion)
    (fun _ _ => Diagnostic.regular_about _ _ _ Diagnostic.Code.noConfusion)
    Diagnostic.regular_site p maxNesting

/-- Everything that a resolution reports is regular. -/
theorem Graph.regular_resolve (g : Graph) (settings : Settings) :
    ∀ d ∈ (g.resolve settings).diagnostics g.table, d.Regular := by
  intro d hd
  unfold Resolution.diagnostics at hd
  rw [(g.resolve_passes settings).2.2, Option.toList_none, List.append_nil,
    (Diagnostic.sort_perm _).mem_iff] at hd
  rcases List.mem_map.mp hd with ⟨given, _, rfl⟩
  exact Diagnostic.regular_about _ _ _ Diagnostic.Code.noConfusion

/-- Everything that an analysis reports before sorting is regular. -/
theorem Program.regular_analyze (p : Program) (settings : Settings) :
    ∀ d ∈ (p.analyze settings).scan.diagnostics ++
      (p.analyze settings).resolution.diagnostics (p.analyze settings).table, d.Regular := by
  intro d hd
  rcases List.mem_append.mp hd with hd | hd
  · exact p.regular_scan settings.maxTypeNesting d hd
  · exact (p.scan settings.maxTypeNesting).graph.regular_resolve settings d hd

/-- An analysis does not depend on the order in which declarations, sites and
    inheritance relations are written. -/
theorem Program.analyze_reordered (p q : Program) (settings : Settings)
    (hreordered : p.Reordered q)
    (hunique : ∀ d ∈ (p.scan settings.maxTypeNesting).diagnostics,
      d.code ≠ .duplicateDeclaration)
    (hcycle : ∀ name, EnclosureFault.cycle.diagnostic name ∉
      (p.scan settings.maxTypeNesting).diagnostics) :
    (q.analyze settings).plan.keys = (p.analyze settings).plan.keys ∧
    ((q.analyze settings).plan.entries.map fun e => (e.declaration, e.arguments, e.key)).Perm
      ((p.analyze settings).plan.entries.map fun e => (e.declaration, e.arguments, e.key)) ∧
    ((q.analyze settings).resolution.reached.keys.map
        (Instantiation.key (q.analyze settings).table)).Perm
      ((p.analyze settings).resolution.reached.keys.map
        (Instantiation.key (p.analyze settings).table)) ∧
    (q.analyze settings).diagnostics = (p.analyze settings).diagnostics ∧
    (q.analyze settings).resolution.stats = (p.analyze settings).resolution.stats := by
  rcases scan_renamed hreordered hunique hcycle with ⟨σ, hgraph, hscan⟩
  have htable := hgraph.table
  have hresolve := hgraph.resolve settings
  have hpublished := hresolve.published htable
  refine ⟨Plan.keys_eq_of_renamed htable hpublished,
    Plan.entries_perm_of_renamed htable hpublished, ?_, ?_, hresolve.stats⟩
  · -- Keys are texts, and a renumbered instantiation has the same.
    refine (hresolve.keys.map _).trans ?_
    rw [List.map_map]
    exact List.Perm.of_eq (List.map_congr_left fun i _ => htable.key i)
  · -- The same diagnostics, of which sorting leaves no two to choose from.
    refine Diagnostic.sort_eq_of_perm _ _ (hscan.append (hresolve.diagnostics htable)) ?_
    intro a ha b hb hab
    exact (q.regular_analyze settings a ha).eq_of_compare (q.regular_analyze settings b hb) hab

namespace Ledger

def main : Declaration where
  name := "main"
  kind := .method
  body := [⟨"copy", ["List<int>"], .call⟩, ⟨"Sorted", [], .construct⟩,
    ⟨"Sorted", ["List<"], .construct⟩, ⟨"Sorted", ["str"], .construct⟩]

def list : Declaration where
  name := "List"
  kind := .type
  typeParams := ["T"]
  requiresSpecialization := true

def sorted : Declaration where
  name := "Sorted"
  kind := .type
  typeParams := ["K"]
  enclosing := some "Index"
  requiresSpecialization := true

def copy : Declaration where
  name := "copy"
  kind := .method
  typeParams := ["A"]
  body := [⟨"List", ["A"], .construct⟩, ⟨"List", ["Sorted<A>"], .construct⟩]

def program : Program where
  declarations := [main, list, sorted, copy]
  hierarchy := [⟨"Sorted", "List", ["K"]⟩, ⟨"Sorted", "Table", ["K"]⟩]

/-- The program from its end to its start. -/
def reversed : Program where
  declarations := [copy, sorted, list, main].map fun d => { d with body := d.body.reverse }
  hierarchy := program.hierarchy.reverse

/-- Read from its end, the program gives the same plan and the same complaints: two
    sites cannot be read, one of them with a suggestion, and two names are not
    declared. -/
theorem analyze_reversed :
    (program.analyze {}).scan.diagnostics.length = 4 ∧
    (program.analyze {}).plan.keys =
      ["List<List<int>>", "List<Sorted<List<int>>>", "List<str>", "Sorted<str>"] ∧
    (reversed.analyze {}).plan.keys = (program.analyze {}).plan.keys ∧
    (reversed.analyze {}).diagnostics = (program.analyze {}).diagnostics ∧
    (reversed.analyze {}).resolution.stats = (program.analyze {}).resolution.stats := by
  have hshuffled : ∀ d : Declaration, d.Shuffled { d with body := d.body.reverse } :=
    fun d => ⟨d.body.reverse, List.reverse_perm d.body, rfl⟩
  have hreordered : program.Reordered reversed := by
    refine ⟨⟨[copy, sorted, list, main], List.reverse_perm program.declarations, ?_⟩,
      List.reverse_perm program.hierarchy⟩
    exact List.forall₂_map_right_iff.mpr (List.forall₂_same.mpr fun d _ => hshuffled d)
  have hcycle : ∀ d ∈ (program.scan ({} : Settings).maxTypeNesting).diagnostics,
      d ≠ EnclosureFault.cycle.diagnostic (d.subject.getD "") := by decide +kernel
  rcases program.analyze_reordered reversed {} hreordered (by decide +kernel)
    (fun name hname => hcycle _ hname rfl) with ⟨hkeys, _, _, hdiagnostics, hstats⟩
  exact ⟨by decide +kernel, by decide +kernel, hkeys, hdiagnostics, hstats⟩

end Ledger

end Monomorph

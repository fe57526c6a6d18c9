import Monomorph.Proofs.Cycles
import Monomorph.Proofs.Documents
import Monomorph.Proofs.Figures
import Monomorph.Proofs.Reporting

/-!
# Whatever Is Written Is Answered

Every site and every inheritance relation of a program becomes an edge or is
reported as an error, and is so once.

A scan has three lists to show for what was written: the edges, the hierarchy edges
and the diagnostics. Nothing in them says which entry answers what. Edges that make
something a member stand between those of sites, and warnings about declarations
before the errors. What is claimed here is that the lists are answers nevertheless:
what was written can be lined up with outcomes, one each and in order, so that the
hops are those among the outcomes and the errors are those among the outcomes
(`Program.written_answered`). Something that was passed over in silence, reported
twice, or reported as a mere warning would leave the two out of step.

Resolving only ever warns. So the errors of an analysis are those of its scan, and
their number is the number of those written entries that became nothing. A command
that is told to deny errors fails for exactly these, provided that it comes as far
as that: it has its settings and its program, and its report got out.

## Main definitions

* `Written`: A site or an inheritance relation, as it was written.
* `Program.written`: All of them, in order.
* `Written.Becomes`: A hop says what was written.
* `Written.Answer`: What may come of something written.
* `Written.outcome`: What does come of it.

## Theorems

* `successes_append`, `failures_append`, `successes_flatMap`, `failures_flatMap`:
  Outcomes in parts.
* `length_successes_add_length_failures`: An outcome is one or the other.
* `SiteFault.isError_diagnostic`: A fault in what was written is an error.
* `Table.find?_eq_none`: A name that is not found is nobody's.
* `Written.Answer.isError`: What answers without a hop is an error.
* `Written.answer_site`, `Written.answer_inheritance`, `Program.answer_of_mem_written`:
  Each outcome is an answer.
* `Program.map_outcome_written`: The outcomes are those of the scan.
* `Program.filter_declarationEdges`, `Program.siteEdges_scan`,
  `Program.successes_written`: The hops in order.
* `Program.filter_isError_register`, `Program.failures_written`: The errors in order.
* `Graph.isError_resolve`: Resolving reports no error.
* `Analysis.hasErrors_iff`: There are errors where they are counted.
* `Program.filter_isError_perm`: The errors of an analysis are those of its scan.
* `Program.written_answered`: All of it for a program.
* `Mailroom.namesOf_input`, `Mailroom.namesOf_output`, `Mailroom.leadsDown_input`,
  `Mailroom.leadsDown_output`: Two paths down from the working directory.
* `Mailroom.files_directory`, `Mailroom.holds_directory`, `Mailroom.content?_output`,
  `Mailroom.takes_directory`: A directory for them.
* `Mailroom.load_program`, `Mailroom.reports_program`: A command gets its report out.
* `Mailroom.written_program`: A program with each sort of answer.
-/

namespace Monomorph

/-- Something that was written to become a hop: a site in the body of a registered
    declaration, with the number of that, or an inheritance relation. -/
inductive Written where
  | site (id : DeclId) (writer : Declaration) (site : Site)
  | inheritance (i : Inheritance)
deriving DecidableEq

/-- Everything that was written to become a hop, in order: the sites of registered
    declarations, then the inheritance relations. -/
def Program.written (p : Program) : List Written :=
  ((registered p.declarations).zipIdx.flatMap fun body => body.1.body.map (.site body.2 body.1)) ++
    p.hierarchy.map .inheritance

namespace Written

/-- The name of the declaration that it was written for. -/
def subject : Written → String
  | site _ writer _ => writer.name
  | inheritance i => i.derived

/-- The names by which it refers to declarations. -/
def names : Written → List String
  | site _ _ source => [source.target]
  | inheritance i => [i.derived, i.base]

/-- The hop says what was written: it leads from the declaration it was written for to
    the one that was named, and is of the kind that was written. -/
inductive Becomes (t : Table) : Written → Hop → Prop
  | site (id : DeclId) (writer : Declaration) (site : Site) (callee : DeclId) (args : List Expr)
      (hcaller : id < t.size) (hwriter : t.name id = writer.name)
      (hcallee : callee < t.size) (htarget : t.name callee = site.target) :
      Becomes t (.site id writer site) (.use ⟨id, callee, args, .site site.kind⟩)
  | inheritance (i : Inheritance) (derived base : DeclId) (args : List Expr)
      (hderived : derived < t.size) (hsource : t.name derived = i.derived)
      (hbase : base < t.size) (htarget : t.name base = i.base) :
      Becomes t (.inheritance i) (.inherit ⟨derived, base, args⟩)

/-- What may come of something written: a hop that says it, or an error about the
    declaration it was written for. A name that is not registered is reported as such,
    and only if all names are does it come to the arguments. -/
inductive Answer (t : Table) (w : Written) : Except Diagnostic Hop → Prop
  | hop (hop : Hop) (h : w.Becomes t hop) : Answer t w (.ok hop)
  | unknown (d : Diagnostic) (hlevel : d.isError = true) (hsubject : d.subject = some w.subject)
      (hcode : d.code = .unknownDeclaration) (name : String) (hname : name ∈ w.names)
      (hunknown : ∀ id < t.size, t.name id ≠ name) : Answer t w (.error d)
  | malformed (d : Diagnostic) (hlevel : d.isError = true) (hsubject : d.subject = some w.subject)
      (hcode : d.code = .malformedGenericExpression)
      (hknown : ∀ name ∈ w.names, ∃ id < t.size, t.name id = name) : Answer t w (.error d)

/-- What comes of something written. -/
def outcome (t : Table) (maxNesting : Nat) : Written → Except Diagnostic Hop
  | site id writer source => (siteOutcome t maxNesting id writer.name source).map .use
  | inheritance i =>
    ((scanInheritance t maxNesting i).mapError (SiteFault.diagnostic i.derived)).map .inherit

end Written

section Outcomes

variable {ε α β : Type}

@[simp]
theorem successes_append (outcomes outcomes' : List (Except ε α)) :
    successes (outcomes ++ outcomes') = successes outcomes ++ successes outcomes' :=
  List.filterMap_append

@[simp]
theorem failures_append (outcomes outcomes' : List (Except ε α)) :
    failures (outcomes ++ outcomes') = failures outcomes ++ failures outcomes' :=
  List.filterMap_append

@[simp]
theorem successes_flatMap (items : List β) (f : β → List (Except ε α)) :
    successes (items.flatMap f) = items.flatMap fun item => successes (f item) :=
  List.filterMap_flatMap

@[simp]
theorem failures_flatMap (items : List β) (f : β → List (Except ε α)) :
    failures (items.flatMap f) = items.flatMap fun item => failures (f item) :=
  List.filterMap_flatMap

/-- An outcome is a result or a failure, and not both. -/
theorem length_successes_add_length_failures (outcomes : List (Except ε α)) :
    (successes outcomes).length + (failures outcomes).length = outcomes.length := by
  induction outcomes with
  | nil => rfl
  | cons outcome rest ih =>
      cases outcome with
      | ok a =>
          have hok : successes (.ok a :: rest) = a :: successes rest := rfl
          have herror : failures (.ok a :: rest) = failures rest := rfl
          rw [hok, herror, List.length_cons, List.length_cons]
          omega
      | error e =>
          have hok : successes (.error e :: rest) = successes rest := rfl
          have herror : failures (.error e :: rest) = e :: failures rest := rfl
          rw [hok, herror, List.length_cons, List.length_cons]
          omega

end Outcomes

/-- A fault in what was written is an error, whatever it is. -/
theorem SiteFault.isError_diagnostic (subject : String) (fault : SiteFault) :
    (fault.diagnostic subject).isError = true := by
  cases fault <;> rfl

theorem Table.find?_eq_none (t : Table) (hunique : t.UniquelyNamed) (name : String)
    (h : t.find? name = none) : ∀ id < t.size, t.name id ≠ name := by
  intro id hid hname
  -- Names are not shared, so what has the name would have been found.
  rw [(t.find?_eq_some_iff hunique name id).mpr ⟨hid, hname⟩] at h
  exact Option.some_ne_none id h

namespace Written

theorem Answer.isError {t : Table} {w : Written} {d : Diagnostic} (h : w.Answer t (.error d)) :
    d.isError = true := by
  cases h with
  | unknown _ hlevel => exact hlevel
  | malformed _ hlevel => exact hlevel

variable (t : Table) (hunique : t.UniquelyNamed) (maxNesting : Nat)

include hunique

/-- Whatever comes of a site in the body of a declaration answers it. -/
theorem answer_site (id : DeclId) (writer : Declaration) (source : Site)
    (hcaller : id < t.size) (hwriter : t.name id = writer.name) :
    (site id writer source).Answer t ((site id writer source).outcome t maxNesting) := by
  rw [outcome, siteOutcome]
  cases hscan : scanSite t maxNesting id source with
  | ok edge =>
      rcases (scanSite_eq_ok_iff t maxNesting id source edge).mp hscan with
        ⟨callee, target, args, hfind, _, _, rfl⟩
      rcases (t.find?_eq_some_iff hunique source.target callee).mp hfind with ⟨hcallee, htarget⟩
      exact .hop _ (.site id writer source callee _ hcaller hwriter hcallee htarget)
  | error fault =>
      have hlevel := fault.isError_diagnostic writer.name
      -- The target is looked up before the arguments are, so which of the two is at fault
      -- is decided by the table alone.
      unfold scanSite at hscan
      cases hfind : t.find? source.target with
      | none =>
          rw [hfind] at hscan
          obtain rfl := Except.error.inj hscan
          exact .unknown _ hlevel rfl rfl source.target (List.mem_singleton_self _)
            (t.find?_eq_none hunique source.target hfind)
      | some callee =>
          -- Only the arguments are left to be at fault, and their faults share a code.
          simp only [hfind, map_eq_error_iff] at hscan
          refine .malformed _ hlevel rfl (parseArgs_code_of_error _ _ _ _ fault hscan)
            fun name hname => ?_
          rw [List.mem_singleton.mp hname]
          exact ⟨callee, (t.find?_eq_some_iff hunique source.target callee).mp hfind⟩

/-- Whatever comes of an inheritance relation answers it. -/
theorem answer_inheritance (i : Inheritance) :
    (inheritance i).Answer t ((inheritance i).outcome t maxNesting) := by
  rw [outcome]
  cases hscan : scanInheritance t maxNesting i with
  | ok edge =>
      rcases (scanInheritance_eq_ok_iff t maxNesting i edge).mp hscan with
        ⟨derived, base, args, hfind, hfind', _, rfl⟩
      rcases (t.find?_eq_some_iff hunique i.derived derived).mp hfind with ⟨hderived, hsource⟩
      rcases (t.find?_eq_some_iff hunique i.base base).mp hfind' with ⟨hbase, htarget⟩
      exact .hop _ (.inheritance i derived base args hderived hsource hbase htarget)
  | error fault =>
      have hlevel := fault.isError_diagnostic i.derived
      -- Both relatives are looked up, the derived one first, and then the arguments.
      unfold scanInheritance at hscan
      cases hfind : t.find? i.derived with
      | none =>
          rw [hfind] at hscan
          obtain rfl := Except.error.inj hscan
          exact .unknown _ hlevel rfl rfl i.derived List.mem_cons_self
            (t.find?_eq_none hunique i.derived hfind)
      | some derived =>
          cases hfind' : t.find? i.base with
          | none =>
              simp only [hfind, hfind'] at hscan
              obtain rfl := Except.error.inj hscan
              exact .unknown _ hlevel rfl rfl i.base
                (List.mem_cons_of_mem _ (List.mem_singleton_self _))
                (t.find?_eq_none hunique i.base hfind')
          | some base =>
              simp only [hfind, hfind', map_eq_error_iff] at hscan
              refine .malformed _ hlevel rfl (parseArgs_code_of_error _ _ _ _ fault hscan)
                fun name hname => ?_
              rcases List.mem_pair.mp hname with rfl | rfl
              · exact ⟨derived, (t.find?_eq_some_iff hunique _ derived).mp hfind⟩
              · exact ⟨base, (t.find?_eq_some_iff hunique _ base).mp hfind'⟩

end Written

namespace Program

variable (p : Program) (maxNesting : Nat)

/-- The outcomes of what was written are those of the bodies and of the hierarchy. -/
theorem map_outcome_written :
    p.written.map (Written.outcome (p.scan maxNesting).graph.table maxNesting) =
      ((registered p.declarations).zipIdx.flatMap fun body =>
        (scanBody (p.scan maxNesting).graph.table maxNesting body.2 body.1).map
          (Except.map .use)) ++
      (scanHierarchy (p.scan maxNesting).graph.table maxNesting p.hierarchy).map
        (Except.map .inherit) := by
  unfold written scanBody scanHierarchy
  simp only [List.map_append, List.map_flatMap, List.map_map]
  rfl

/-- Among the edges that are found at a declaration, those of its sites are the ones
    that make nothing a member. -/
theorem filter_declarationEdges (t : Table) (id : DeclId) (d : Declaration) :
    (declarationEdges t maxNesting id d).filter (fun edge => edge.kind != .member) =
      successes (scanBody t maxNesting id d) := by
  -- The edge that makes the declaration itself a member stands in front, if there is one.
  have hmember : (((t.get? id).bind (memberEdge? t id)).toList.filter
      fun edge => edge.kind != .member) = [] := by
    rw [List.filter_eq_nil_iff]
    intro edge hedge
    rcases Option.bind_eq_some_iff.mp (Option.mem_toList.mp hedge) with ⟨entry, _, hmember⟩
    rcases memberEdge?_eq_some t id entry edge hmember with ⟨_, _, _, _, _, rfl⟩
    exact Bool.false_ne_true
  have hsites : (successes (scanBody t maxNesting id d)).filter
      (fun edge => edge.kind != .member) = successes (scanBody t maxNesting id d) := by
    rw [List.filter_eq_self]
    intro edge hedge
    rcases (mem_scanBody_iff t maxNesting id d edge).mp ((mem_successes_iff _ edge).mp hedge) with
      ⟨site, _, hscan⟩
    rcases (scanSite_eq_ok_iff t maxNesting id site edge).mp hscan with
      ⟨_, _, _, _, _, _, rfl⟩
    rfl
  rw [declarationEdges, List.filter_append, hmember, hsites, List.nil_append]

theorem siteEdges_scan :
    (p.scan maxNesting).graph.siteEdges = (registered p.declarations).zipIdx.flatMap fun body =>
      successes (scanBody (p.scan maxNesting).graph.table maxNesting body.2 body.1) := by
  unfold Graph.siteEdges
  change List.filter _ (List.flatMap _ _) = _
  rw [List.filter_flatMap]
  exact List.flatMap_congr fun body _ => filter_declarationEdges maxNesting _ body.2 body.1

/-- The hops that what was written became are the site edges and the hierarchy edges, in
    order. -/
theorem successes_written :
    successes (p.written.map (Written.outcome (p.scan maxNesting).graph.table maxNesting)) =
      (p.scan maxNesting).graph.siteEdges.map .use ++
        (p.scan maxNesting).graph.hierarchy.map .inherit := by
  rw [map_outcome_written]
  simp [siteEdges_scan, hierarchy_scan, table_scan, List.map_flatMap]

theorem filter_isError_register (ds : List Declaration) :
    (Table.register ds).2.filter Diagnostic.isError = [] := by
  rw [List.filter_eq_nil_iff]
  refine Table.forall_register (fun d => ¬ d.isError = true) (fun _ => Bool.false_ne_true)
    (fun _ fault => ?_) ds
  cases fault <;> exact Bool.false_ne_true

/-- The outcome of anything that was written answers it. -/
theorem answer_of_mem_written (w : Written) (hw : w ∈ p.written) :
    w.Answer (p.scan maxNesting).graph.table
      (w.outcome (p.scan maxNesting).graph.table maxNesting) := by
  have hunique := Table.register_uniquelyNamed p.declarations
  rcases List.mem_append.mp hw with hw | hw
  · -- The body belongs to the declaration that is registered under its number.
    rcases List.mem_flatMap.mp hw with ⟨body, hbody, hsite⟩
    rcases List.mem_map.mp hsite with ⟨source, _, rfl⟩
    have hget : (registered p.declarations)[body.2]? = some body.1 :=
      List.mem_zipIdx_iff_getElem?.mp hbody
    refine Written.answer_site _ hunique maxNesting body.2 body.1 source
      (Table.lt_size_register p.declarations body.2 body.1 hget) ?_
    rw [Table.name_register, List.getElem?_map, hget]
    rfl
  · rcases List.mem_map.mp hw with ⟨i, _, rfl⟩
    exact Written.answer_inheritance _ hunique maxNesting i

/-- What is reported for what was written are the errors of the scan, in order. -/
theorem failures_written :
    failures (p.written.map (Written.outcome (p.scan maxNesting).graph.table maxNesting)) =
      (p.scan maxNesting).diagnostics.filter Diagnostic.isError := by
  -- A failure is an answer, so it is an error.
  have hfaulty : ∀ d ∈ failures (p.written.map
      (Written.outcome (p.scan maxNesting).graph.table maxNesting)), d.isError = true := by
    intro d hd
    rcases List.mem_map.mp ((mem_failures_iff _ _).mp hd) with ⟨w, hw, houtcome⟩
    have hanswer := p.answer_of_mem_written maxNesting w hw
    rw [houtcome] at hanswer
    exact hanswer.isError
  -- What registration reports stands in front, and none of it is an error.
  have hdiagnostics : (p.scan maxNesting).diagnostics = (Table.register p.declarations).2 ++
      failures (p.written.map (Written.outcome (p.scan maxNesting).graph.table maxNesting)) := by
    rw [map_outcome_written]
    simp [diagnostics_scan, table_scan]
  rw [hdiagnostics, List.filter_append, filter_isError_register, List.nil_append,
    List.filter_eq_self.mpr hfaulty]

end Program

/-- Resolving reports no error: giving something up is a warning. -/
theorem Graph.isError_resolve (g : Graph) (settings : Settings) :
    ∀ d ∈ (g.resolve settings).diagnostics g.table, d.isError = false := by
  intro d hd
  rcases List.mem_append.mp ((Diagnostic.sort_perm _).mem_iff.mp hd) with hgiven | hstalled
  · rcases List.mem_map.mp hgiven with ⟨given, _, rfl⟩
    rfl
  · -- The search comes to an end, so that it did not is never reported.
    rw [(g.resolve_passes settings).2.2, Option.toList_none] at hstalled
    exact absurd hstalled List.not_mem_nil

namespace Analysis

theorem hasErrors_iff (a : Analysis) : a.hasErrors = true ↔ 0 < a.errorCount := by
  unfold hasErrors errorCount
  rw [List.any_eq_true, List.length_filter_pos_iff]

end Analysis

namespace Program

variable (p : Program) (settings : Settings)

/-- The errors of an analysis are those of its scan, in another order. -/
theorem filter_isError_perm :
    ((p.analyze settings).diagnostics.filter Diagnostic.isError).Perm
      ((p.analyze settings).scan.diagnostics.filter Diagnostic.isError) := by
  refine ((Diagnostic.sort_perm _).filter _).trans ?_
  have hresolve : ((p.analyze settings).resolution.diagnostics (p.analyze settings).table).filter
      Diagnostic.isError = [] := by
    rw [List.filter_eq_nil_iff]
    intro d hd
    rw [(p.scan settings.maxTypeNesting).graph.isError_resolve settings d hd]
    exact Bool.false_ne_true
  rw [List.filter_append, hresolve, List.append_nil]

end Program

/-- Whatever is written is answered once. What comes of the sites of registered
    declarations and of the inheritance relations can be lined up with them: each is a
    hop that says what was written, or an error about the one that wrote it. The hops
    are the edges of sites and of the hierarchy, and the errors those of the scan, both
    in order. Resolving adds no error. So there are errors where something written
    became no hop, as many as there is of that, and a command that is to deny errors
    and gets its report out fails just then, with their number. -/
theorem Program.written_answered (p : Program) (settings : Settings) :
    ∃ outcomes : List (Except Diagnostic Hop),
      List.Forall₂ (Written.Answer (p.analyze settings).table) p.written outcomes ∧
      successes outcomes = (p.analyze settings).scan.graph.siteEdges.map .use ++
        (p.analyze settings).scan.graph.hierarchy.map .inherit ∧
      failures outcomes = (p.analyze settings).scan.diagnostics.filter Diagnostic.isError ∧
      (∀ d ∈ (p.analyze settings).resolution.diagnostics (p.analyze settings).table,
        d.isError = false) ∧
      ((p.analyze settings).hasErrors = true ↔ ∃ d, .error d ∈ outcomes) ∧
      (p.analyze settings).errorCount = (failures outcomes).length ∧
      p.written.length = (p.analyze settings).scan.graph.siteEdges.length +
        (p.analyze settings).scan.graph.hierarchy.length + (p.analyze settings).errorCount ∧
      ∀ storage env common o, Command.Reports storage env common o settings p →
        (Command.perform storage env common (.resolve o)).2 =
          (if o.denyErrors = true ∧ 0 < (failures outcomes).length then
            .error ⟨s!"resolve failed for {o.input}",
              .errorsReported (failures outcomes).length⟩
          else .ok ()) ∧
        (Command.execute storage env common (.resolve o)).exit =
          if o.denyErrors = true ∧ 0 < (failures outcomes).length then 1 else 0 := by
  have hanswers : List.Forall₂ (Written.Answer (p.scan settings.maxTypeNesting).graph.table)
      p.written (p.written.map (Written.outcome (p.scan settings.maxTypeNesting).graph.table
        settings.maxTypeNesting)) := by
    rw [List.forall₂_map_right_iff, List.forall₂_same]
    exact p.answer_of_mem_written settings.maxTypeNesting
  have hhops := p.successes_written settings.maxTypeNesting
  have herrors := p.failures_written settings.maxTypeNesting
  have hcount := length_successes_add_length_failures (p.written.map
    (Written.outcome (p.scan settings.maxTypeNesting).graph.table settings.maxTypeNesting))
  rw [List.length_map] at hcount
  -- How the outcomes came about is not needed any more.
  generalize p.written.map (Written.outcome (p.scan settings.maxTypeNesting).graph.table
    settings.maxTypeNesting) = outcomes at hanswers hhops herrors hcount
  have hnumber : (p.analyze settings).errorCount = (failures outcomes).length := by
    rw [herrors]
    exact (p.filter_isError_perm settings).length_eq
  refine ⟨outcomes, hanswers, hhops, herrors,
    (p.scan settings.maxTypeNesting).graph.isError_resolve settings, ?_, hnumber, ?_, ?_⟩
  · rw [Analysis.hasErrors_iff, hnumber, List.length_pos_iff_exists_mem]
    exact exists_congr fun d => mem_failures_iff outcomes d
  · -- Each outcome is a hop or an error, and there are as many as were written.
    rw [hhops, List.length_append, List.length_map, List.length_map, ← hnumber] at hcount
    exact hcount.symm
  · intro storage env common o hreports
    have hperform := Command.perform_resolve storage env common o settings p hreports
    rw [hnumber] at hperform
    refine ⟨hperform, ?_⟩
    rw [Command.exit_execute, hperform]
    split <;> rfl

namespace Mailroom

/-- A mailroom with trays for something. Sorting makes a tray, and asks for one by a name
    that nothing has and for one with too many arguments. A box is said to be a tray and
    to be a shelf, of which there is none. Somebody writes down the tray once more. -/
def program : Program where
  declarations :=
    [{ name := "Tray", kind := .type, typeParams := ["T"] },
     { name := "Tray.empty", kind := .method, enclosing := some "Tray" },
     { name := "sort", kind := .method,
       body := [⟨"Tray", ["int"], .construct⟩, ⟨"Trey", ["int"], .construct⟩,
         ⟨"Tray", ["int", "int"], .construct⟩] },
     { name := "Box", kind := .type },
     { name := "Tray", kind := .type, body := [⟨"Trey", [], .call⟩] }]
  hierarchy := [⟨"Box", "Tray", ["int"]⟩, ⟨"Box", "Shelf", []⟩]

/-- The text in a file of its own, and nothing else. -/
def directory (text : String) : Command.Directory :=
  .ofFiles [("mail.json", text)]

def storage : Command.Storage :=
  (directory program.render).storage

def options : Command.ResolveOptions where
  input := "mail.json"
  output := some "plan.json"
  denyErrors := true

section Directory

open Command Directory

theorem namesOf_input : namesOf options.input = ["mail.json"] := by decide +kernel

theorem namesOf_output : namesOf "plan.json" = ["plan.json"] := by decide +kernel

theorem leadsDown_input : LeadsDown options.input :=
  ⟨by decide +kernel, by decide +kernel, by decide +kernel, _, rfl, by decide +kernel,
    by decide +kernel⟩

theorem leadsDown_output : LeadsDown "plan.json" :=
  ⟨by decide +kernel, by decide +kernel, by decide +kernel, _, rfl, by decide +kernel,
    by decide +kernel⟩

variable (text : String)

theorem files_directory : (directory text).files = [(["mail.json"], text)] :=
  congrArg (fun names => [(names, text)]) namesOf_input

theorem holds_directory : (directory text).Holds (namesOf options.input) text := by
  rw [namesOf_input]
  refine holds_of_lookup _ ["mail.json"] text (List.cons_ne_nil _ _) ?_ ?_
  · rw [files_directory]
    rfl
  · intro before hne hbefore hproper
    exact absurd (eq_nil_of_prefix_singleton before _ hbefore hproper) hne

theorem content?_output :
    (directory text).content? ((directory text).below (namesOf "plan.json")) = none := by
  rw [namesOf_output, content?_below _ _ (List.cons_ne_nil _ _), contentBelow, files_directory]
  rfl

theorem takes_directory : (directory text).Takes (namesOf "plan.json") := by
  refine ⟨?_, ?_⟩
  · rw [namesOf_output]
    exact openTo_singleton _ _
  · rw [content?_output]
    exact nofun

end Directory

theorem load_program : Program.load program.render = .ok program := by
  have hshape : program.checkShape = .ok program := by decide +kernel
  rw [Program.load_eq_checkShape, hshape]
  rfl

theorem reports_program : Command.Reports storage [] {} options {} program := by
  refine (directory program.render).reports [] {} options {} program {} {} program.render rfl rfl
    leadsDown_input (holds_directory _) load_program ?_
  intro path hpath
  rw [← Option.some.inj hpath]
  exact ⟨leadsDown_output, takes_directory _⟩

/-- Of five things that were written two became hops. The other three are what the
    command fails for, after it has added its report to the directory. -/
theorem written_program :
    Command.Reports storage [] {} options {} program ∧ program.written.length = 5 ∧
      (Command.perform storage [] {} (.resolve options)).2 =
        .error ⟨"resolve failed for mail.json", .errorsReported 3⟩ ∧
      (Command.execute storage [] {} (.resolve options)).exit = 1 ∧
      (directory program.render).added (Command.execute storage [] {} (.resolve options)).written =
        [("plan.json", (options.report (program.analyze {})).render .text)] := by
  rcases program.written_answered {} with ⟨outcomes, _, _, hfailures, _, _, _, _, hcommand⟩
  have hthree : (failures outcomes).length = 3 := by
    rw [hfailures]
    decide +kernel
  rcases hcommand storage [] {} options reports_program with ⟨hperform, hexit⟩
  rw [hthree] at hperform hexit
  have hadded := (directory program.render).added_execute [] {} options {} program "plan.json"
    reports_program rfl leadsDown_output (takes_directory _) (content?_output _)
  rw [namesOf_output] at hadded
  exact ⟨reports_program, by decide +kernel, hperform, hexit, hadded⟩

end Mailroom

end Monomorph

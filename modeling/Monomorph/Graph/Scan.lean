import Monomorph.Expr.Parser
import Monomorph.Graph.Basic
import Monomorph.Table.Register

/-!
# Scanning a Program

From a program as it was written to its graph. Each site and each inheritance
relation either becomes one edge or is reported once, so nothing that was
written is lost without a word. A site inside the scope of the declaration that
encloses its target may leave out the arguments for the formals that target
inherits from there: they are passed on as they are.

## Main definitions

* `SiteFault`: Why a site or an inheritance relation gives no edge.
* `memberEdge?`: The edge to a member without arguments of its own.
* `capturedFormals`: The formals for which a site leaves the arguments out.
* `scanSite`, `scanInheritance`: The edge of what was written.
* `Program.scan`: The graph of a program and what was reported.

## Theorems

* `mem_successes_iff`, `mem_failures_iff`: What is among outcomes.
* `caller_of_memberEdge?`, `caller_of_scanSite`, `caller_of_mem_declarationEdges`,
  `Program.caller_of_mem_edges`: Edges leave registered declarations.
* `derived_of_scanInheritance`, `derived_of_mem_scanHierarchy`: So do hierarchy edges.
* `Program.table_scan`, `Program.edges_scan`, `Program.hierarchy_scan`,
  `Program.diagnostics_scan`: The parts of a scan.
-/

namespace Monomorph

/-- Why a site or an inheritance relation gives no edge. -/
inductive SiteFault where
  | unknownTarget (target : String)
  | unknownRelative (derived base unknown : String)
  | wrongCount (target : String) (expected found : Nat)
  | badArgument (target : String) (text : String) (cause : ParseError)
deriving DecidableEq, Repr

namespace SiteFault

/-- The wording of a fault. -/
def message : SiteFault → String
  | unknownTarget target => s!"call site targets undeclared `{target}`"
  | unknownRelative derived base unknown =>
    s!"inheritance `{derived} : {base}` names undeclared `{unknown}`"
  | wrongCount target expected found =>
    s!"`{target}` expects {expected} type argument(s), found {found}"
  | badArgument target text cause =>
    s!"cannot decompose `{text}` for `{target}`: " ++ cause.message text

/-- The code of a fault. -/
def code : SiteFault → Diagnostic.Code
  | unknownTarget _ => .unknownDeclaration
  | unknownRelative _ _ _ => .unknownDeclaration
  | wrongCount _ _ _ => .malformedGenericExpression
  | badArgument _ _ _ => .malformedGenericExpression

/-- What may help against a fault. -/
def suggestions : SiteFault → List String
  | wrongCount _ _ _ =>
    ["type arguments cover enclosing parameters first, then the declaration's own"]
  | _ => []

/-- The diagnostic for a fault in what a declaration wrote. -/
def diagnostic (subject : String) (fault : SiteFault) : Diagnostic :=
  { Diagnostic.about fault.code subject fault.message with suggestions := fault.suggestions }

end SiteFault

/-- The formals as expressions. -/
def formalRefs (formals : List String) : List Expr :=
  formals.map .param

/-- Parses the texts of arguments for a target, one after the other. -/
def parseEach (scope : Scope) (target : String) : List String → Except SiteFault (List Expr)
  | [] => .ok []
  | text :: rest =>
    match scope.parse text with
    | .error cause => .error (.badArgument target text cause)
    | .ok arg => (parseEach scope target rest).map (arg :: ·)

/-- Parses the arguments that are written for a target, of which a certain
    number is expected. -/
def parseArgs (scope : Scope) (target : String) (texts : List String) (expected : Nat) :
    Except SiteFault (List Expr) :=
  if texts.length = expected then parseEach scope target texts
  else .error (.wrongCount target expected texts.length)

/-- The edge from a type to the given declaration, if that is a member of it
    without parameters of its own. -/
def memberEdge? (t : Table) (id : DeclId) (entry : Entry) : Option Edge :=
  if entry.kind.isMember && entry.ownParams.isEmpty then
    match entry.enclosing with
    | none => none
    | some owner =>
      match t.get? owner with
      | some ownerEntry =>
        if ownerEntry.kind = .type then
          some ⟨owner, id, formalRefs ownerEntry.formals, .member⟩
        else none
      | none => none
  else none

/-- The formals of a target for which a site inside `caller` leaves the
    arguments out: those the target inherits, if the site writes exactly the
    arguments for the target's own parameters and stands within the declaration
    that encloses the target. -/
def capturedFormals (t : Table) (caller : DeclId) (target : Entry) (written : Nat) :
    List String :=
  let inherited := target.formals.length - target.ownParams.length
  match target.enclosing with
  | some outer =>
    if inherited ≠ 0 ∧ written = target.ownParams.length ∧ t.encloses outer caller then
      target.formals.take inherited
    else []
  | none => []

/-- The edge of a site in the body of a declaration. -/
def scanSite (t : Table) (maxNesting : Nat) (caller : DeclId) (site : Site) :
    Except SiteFault Edge :=
  match t.find? site.target with
  | none => .error (.unknownTarget site.target)
  | some callee =>
    let captured := (t.get? callee).elim [] fun target =>
      capturedFormals t caller target site.typeArgs.length
    let scope := ({ formals := t.formals caller, table := t } : Scope).withMaxNesting maxNesting
    (parseArgs scope site.target site.typeArgs
      ((t.formals callee).length - captured.length)).map fun args =>
        ⟨caller, callee, formalRefs captured ++ args, .site site.kind⟩

/-- The edge of an inheritance relation. The derived type is looked up first. -/
def scanInheritance (t : Table) (maxNesting : Nat) (i : Inheritance) :
    Except SiteFault HierarchyEdge :=
  match t.find? i.derived with
  | none => .error (.unknownRelative i.derived i.base i.derived)
  | some derived =>
    match t.find? i.base with
    | none => .error (.unknownRelative i.derived i.base i.base)
    | some base =>
      let scope :=
        ({ formals := t.formals derived, table := t } : Scope).withMaxNesting maxNesting
      (parseArgs scope i.base i.typeArgs (t.formals base).length).map fun args =>
        ⟨derived, base, args⟩

/-- The results among outcomes, in order. -/
def successes {ε α : Type} (outcomes : List (Except ε α)) : List α :=
  outcomes.filterMap Except.toOption

/-- The failures among outcomes, in order. -/
def failures {ε α : Type} (outcomes : List (Except ε α)) : List ε :=
  outcomes.filterMap fun
    | .ok _ => none
    | .error e => some e

@[simp]
theorem mem_successes_iff {ε α : Type} (outcomes : List (Except ε α)) (a : α) :
    a ∈ successes outcomes ↔ .ok a ∈ outcomes := by
  unfold successes
  rw [List.mem_filterMap]
  constructor
  · rintro ⟨outcome, hmem, hok⟩
    cases outcome with
    | error e => exact absurd hok (by simp only [Except.toOption, reduceCtorEq, not_false_eq_true])
    | ok b =>
        simp only [Except.toOption, Option.some.injEq] at hok
        rwa [← hok]
  · intro hmem
    exact ⟨.ok a, hmem, rfl⟩

@[simp]
theorem mem_failures_iff {ε α : Type} (outcomes : List (Except ε α)) (e : ε) :
    e ∈ failures outcomes ↔ .error e ∈ outcomes := by
  unfold failures
  rw [List.mem_filterMap]
  constructor
  · rintro ⟨outcome, hmem, herror⟩
    cases outcome with
    | ok a => exact absurd herror (by simp only [reduceCtorEq, not_false_eq_true])
    | error e' =>
        simp only [Option.some.injEq] at herror
        rwa [← herror]
  · intro hmem
    exact ⟨.error e, hmem, rfl⟩

/-- The outcome of each site of a declaration. -/
def scanBody (t : Table) (maxNesting : Nat) (id : DeclId) (d : Declaration) :
    List (Except Diagnostic Edge) :=
  d.body.map fun site =>
    (scanSite t maxNesting id site).mapError (SiteFault.diagnostic d.name)

/-- The edges found at a declaration: the one that makes it a member, and those
    of its sites. -/
def declarationEdges (t : Table) (maxNesting : Nat) (id : DeclId) (d : Declaration) :
    List Edge :=
  ((t.get? id).bind (memberEdge? t id)).toList ++ successes (scanBody t maxNesting id d)

/-- The outcome of each inheritance relation. -/
def scanHierarchy (t : Table) (maxNesting : Nat) (hierarchy : List Inheritance) :
    List (Except Diagnostic HierarchyEdge) :=
  hierarchy.map fun i =>
    (scanInheritance t maxNesting i).mapError (SiteFault.diagnostic i.derived)

/-- The graph of a program with what was reported while it was made. -/
@[ext]
structure Scan where
  graph : Graph := {}
  diagnostics : List Diagnostic := []
deriving DecidableEq, Repr

section InRange

variable (t : Table) (maxNesting : Nat)

theorem caller_of_memberEdge? (id : DeclId) (entry : Entry) (edge : Edge)
    (h : memberEdge? t id entry = some edge) : edge.caller < t.size := by
  unfold memberEdge? at h
  -- Only a member with a registered owner that is a type has an edge, and it leaves the owner.
  split at h
  · split at h
    · exact nomatch h
    · rename_i owner _
      split at h
      · rename_i ownerEntry hget
        split at h
        · rw [← Option.some.inj h]
          exact (List.getElem?_eq_some_iff.mp hget).1
        · exact nomatch h
      · exact nomatch h
  · exact nomatch h

theorem caller_of_scanSite (caller : DeclId) (site : Site) (edge : Edge)
    (h : scanSite t maxNesting caller site = .ok edge) : edge.caller = caller := by
  unfold scanSite at h
  cases hfind : t.find? site.target with
  | none => simp only [hfind, reduceCtorEq] at h
  | some callee =>
      simp only [hfind] at h
      generalize parseArgs _ _ _ _ = args at h
      cases args with
      | error fault => exact nomatch h
      | ok args => rw [← Except.ok.inj h]

theorem derived_of_scanInheritance (i : Inheritance) (edge : HierarchyEdge)
    (h : scanInheritance t maxNesting i = .ok edge) : edge.derived < t.size := by
  unfold scanInheritance at h
  cases hderived : t.find? i.derived with
  | none => simp only [hderived, reduceCtorEq] at h
  | some derived =>
      cases hbase : t.find? i.base with
      | none => simp only [hderived, hbase, reduceCtorEq] at h
      | some base =>
          simp only [hderived, hbase] at h
          generalize parseArgs _ _ _ _ = args at h
          cases args with
          | error fault => exact nomatch h
          | ok args =>
              rw [← Except.ok.inj h]
              exact (List.findIdx?_eq_some_iff_findIdx_eq.mp hderived).1

/-- What is found at a declaration of the table leaves one. -/
theorem caller_of_mem_declarationEdges (id : DeclId) (hid : id < t.size) (d : Declaration)
    (edge : Edge) (h : edge ∈ declarationEdges t maxNesting id d) : edge.caller < t.size := by
  rcases List.mem_append.mp h with h | h
  · rcases Option.bind_eq_some_iff.mp (Option.mem_toList.mp h) with ⟨entry, _, hmember⟩
    exact caller_of_memberEdge? t id entry edge hmember
  · rcases List.mem_map.mp ((mem_successes_iff _ edge).mp h) with ⟨site, _, hsite⟩
    cases hscan : scanSite t maxNesting id site with
    | error fault =>
        rw [hscan] at hsite
        exact nomatch hsite
    | ok found =>
        rw [hscan] at hsite
        rw [← Except.ok.inj hsite, caller_of_scanSite t maxNesting id site found hscan]
        exact hid

/-- What is found for inheritance relations leaves a declaration of the table. -/
theorem derived_of_mem_scanHierarchy (hierarchy : List Inheritance) (edge : HierarchyEdge)
    (h : edge ∈ successes (scanHierarchy t maxNesting hierarchy)) : edge.derived < t.size := by
  rcases List.mem_map.mp ((mem_successes_iff _ edge).mp h) with ⟨i, _, hi⟩
  cases hscan : scanInheritance t maxNesting i with
  | error fault =>
      rw [hscan] at hi
      exact nomatch hi
  | ok found =>
      rw [hscan] at hi
      rw [← Except.ok.inj hi]
      exact derived_of_scanInheritance t maxNesting i found hscan

end InRange

/-- Edges that are found in the bodies of registered declarations leave them. -/
theorem Program.caller_of_mem_edges (p : Program) (maxNesting : Nat) (edge : Edge)
    (h : edge ∈ (registered p.declarations).zipIdx.flatMap fun body =>
      declarationEdges (Table.register p.declarations).1 maxNesting body.2 body.1) :
    edge.caller < (Table.register p.declarations).1.size := by
  rcases List.mem_flatMap.mp h with ⟨body, hbody, hedge⟩
  refine caller_of_mem_declarationEdges _ maxNesting body.2 ?_ body.1 edge hedge
  rw [Table.size_register]
  exact (List.getElem?_eq_some_iff.mp (List.mem_zipIdx_iff_getElem?.mp hbody)).1

/-- The graph of a program under a limit on the nesting of type arguments, and
    what there is to report: first about declarations, then about sites, then
    about inheritance. -/
def Program.scan (p : Program) (maxNesting : Nat) : Scan :=
  let registration := Table.register p.declarations
  let table := registration.1
  let bodies := (registered p.declarations).zipIdx
  let hierarchy := scanHierarchy table maxNesting p.hierarchy
  { graph :=
      { table
        edges := bodies.flatMap fun body => declarationEdges table maxNesting body.2 body.1
        hierarchy := successes hierarchy
        caller_lt := by exact p.caller_of_mem_edges maxNesting
        derived_lt := by exact derived_of_mem_scanHierarchy table maxNesting p.hierarchy }
    diagnostics :=
      registration.2 ++ (bodies.flatMap fun body =>
        failures (scanBody table maxNesting body.2 body.1)) ++ failures hierarchy }

section Parts

-- A graph carries facts about its table, so the table of a registration cannot be rewritten
-- inside a graph; it can be in each of these.
variable (p : Program) (maxNesting : Nat)

theorem Program.table_scan :
    (p.scan maxNesting).graph.table = (Table.register p.declarations).1 := rfl

theorem Program.edges_scan :
    (p.scan maxNesting).graph.edges = (registered p.declarations).zipIdx.flatMap fun body =>
      declarationEdges (Table.register p.declarations).1 maxNesting body.2 body.1 := rfl

theorem Program.hierarchy_scan :
    (p.scan maxNesting).graph.hierarchy =
      successes (scanHierarchy (Table.register p.declarations).1 maxNesting p.hierarchy) := rfl

theorem Program.diagnostics_scan :
    (p.scan maxNesting).diagnostics = (Table.register p.declarations).2 ++
      ((registered p.declarations).zipIdx.flatMap fun body =>
        failures (scanBody (Table.register p.declarations).1 maxNesting body.2 body.1)) ++
      failures (scanHierarchy (Table.register p.declarations).1 maxNesting p.hierarchy) := rfl

end Parts

end Monomorph

import Mathlib.Data.List.Forall2
import Monomorph.Proofs.Enclosure
import Monomorph.Proofs.Scope
import Monomorph.Proofs.Walk

/-!
# What a Scan Promises About Its Edges

Every hop of a scanned graph is well-formed, whichever way it came about.

There are four ways. A member edge passes on the formals of its owner, a site may
pass on the formals of what encloses its target, a site writes arguments as text,
and so does an inheritance relation. What each has to get right is the same: one
argument for each formal of the target, and nothing in an argument that the
source does not know. For written arguments that is the parser's doing. For those
passed on it rests on how formals are nested. A member without parameters of its
own has the formals of its owner and no more, and a site stands inside the
declaration whose formals it passes on, so those are among its own
(`capturedFormals_cases`).

Nesting is bounded by the limit for what was written. What is passed on is a bare
parameter, which no limit is held against; `nesting` therefore says one or the
other. Under a limit of at least one the distinction disappears.

## Main definitions

* `Hop.WellFormed`: What is promised about one hop.
* `Graph.WellFormed`: The same about all hops of a graph.
* `Graph.Fits`: An instantiation has an argument for each formal.
* `siteOutcome`: What a site gives, an edge or a report.

## Theorems

* `parseEach_eq_ok_iff`, `parseArgs_eq_ok_iff`, `parseArgs_eq_ok`: Written arguments are
  read one by one, and there are as many as expected.
* `parseEach_eq_error`, `parseArgs_code_of_error`: What is refused is one of them, or
  their number.
* `formalRefs_inScope`: What is passed on is in scope.
* `memberEdge?_eq_some`, `scanSite_eq_ok_iff`, `scanInheritance_eq_ok_iff`: What the
  edge of a member, of a site and of an inheritance relation are.
* `capturedFormals_eq`, `capturedFormals_cases`: Formals are passed on all or none.
* `capturedFormals_of_all`: None are passed on where all arguments are written.
* `capturedFormals_subset`: What is passed on is known and not too much.
* `memberEdge?_wellFormed`, `scanSite_wellFormed`, `scanInheritance_wellFormed`:
  Each way of making a hop makes a well-formed one.
* `mem_scanBody_iff`, `mem_scanHierarchy_iff`, `mem_declarationEdges_iff`,
  `Program.mem_edges_iff`, `Program.mem_hierarchy_iff`: Where the hops of a scanned
  graph come from.
* `declarationEdges_wellFormed`, `Program.scan_wellFormed`: A scanned graph is well-formed.
* `Graph.nesting_le_of_isSeed`: Seeds are never nested too deeply.
* `Graph.isClosed_of_get?_binding`, `Graph.isClosed_apply_binding`: A binding closes what
  is in scope.
* `Graph.exists_along`: No hop leaves an argument open.
* `Graph.Walk.exists_hop`, `Graph.Walk.fits`: Walks end at registered declarations, with
  the right number of arguments.
-/

namespace Monomorph

/-- Source and target are registered, there is an argument for each formal of the
    target, and the arguments are in scope of the source and nested within the
    limit or bare parameters. -/
structure Hop.WellFormed (t : Table) (limit : Nat) (hop : Hop) : Prop where
  source_lt : hop.source < t.size
  target_lt : hop.target < t.size
  arity : hop.args.length = (t.formals hop.target).length
  inScope : ∀ e ∈ hop.args, e.InScope t (t.formals hop.source)
  nesting : ∀ e ∈ hop.args, e.nesting ≤ limit ∨ ∃ name, e = .param name

/-- Every hop of the graph is well-formed. -/
def Graph.WellFormed (g : Graph) (limit : Nat) : Prop :=
  ∀ hop ∈ g.hops, hop.WellFormed g.table limit

/-- Texts are read one by one, and all of them have to be read. -/
theorem parseEach_eq_ok_iff (scope : Scope) (target : String) (texts : List String)
    (args : List Expr) :
    parseEach scope target texts = .ok args ↔
      List.Forall₂ (fun text e => scope.parse text = .ok e) texts args := by
  induction texts generalizing args with
  | nil =>
      rw [parseEach, Except.ok.injEq, List.forall₂_nil_left_iff]
      exact eq_comm
  | cons text rest ih =>
      rw [parseEach, List.forall₂_cons_left_iff]
      cases hparse : scope.parse text with
      | error cause => simp only [reduceCtorEq, false_and, exists_false]
      | ok arg =>
          -- The first is read, so all depends on the rest.
          simp only [map_eq_ok_iff, ih, Except.ok.injEq]
          constructor
          · intro h
            rcases h with ⟨later, hlater, hargs⟩
            exact ⟨arg, later, rfl, hlater, hargs.symm⟩
          · intro h
            rcases h with ⟨found, later, hfound, hlater, hargs⟩
            exact ⟨later, hlater, by rw [hargs, hfound]⟩

/-- Where arguments are refused, it is for one of the texts. -/
theorem parseEach_eq_error (scope : Scope) (target : String) (texts : List String)
    (fault : SiteFault) (h : parseEach scope target texts = .error fault) :
    ∃ text ∈ texts, ∃ cause, scope.parse text = .error cause ∧
      fault = .badArgument target text cause := by
  induction texts with
  | nil => exact absurd h (by simp only [parseEach, reduceCtorEq, not_false_eq_true])
  | cons text rest ih =>
      rw [parseEach] at h
      cases hread : scope.parse text with
      | error cause =>
          rw [hread] at h
          exact ⟨text, List.mem_cons_self, cause, hread, (Except.error.inj h).symm⟩
      | ok arg =>
          -- The first text is not to blame, so the fault is that of the rest.
          rw [hread] at h
          simp only [map_eq_error_iff] at h
          rcases ih h with ⟨other, hother, hrefused⟩
          exact ⟨other, List.mem_cons_of_mem _ hother, hrefused⟩

theorem parseArgs_eq_ok_iff (scope : Scope) (target : String) (texts : List String)
    (expected : Nat) (args : List Expr) :
    parseArgs scope target texts expected = .ok args ↔
      texts.length = expected ∧
        List.Forall₂ (fun text e => scope.parse text = .ok e) texts args := by
  unfold parseArgs
  by_cases hlength : texts.length = expected
  · rw [if_pos hlength, parseEach_eq_ok_iff]
    exact (and_iff_right hlength).symm
  · rw [if_neg hlength]
    simp only [reduceCtorEq, hlength, false_and]

/-- There are as many arguments as expected, and each was read from a text. -/
theorem parseArgs_eq_ok (scope : Scope) (target : String) (texts : List String) (expected : Nat)
    (args : List Expr) (h : parseArgs scope target texts expected = .ok args) :
    args.length = expected ∧ ∀ e ∈ args, ∃ text, scope.parse text = .ok e := by
  rcases (parseArgs_eq_ok_iff scope target texts expected args).mp h with ⟨hlength, hread⟩
  refine ⟨hread.length_eq.symm.trans hlength, ?_⟩
  intro e he
  rcases List.mem_iff_getElem.mp he with ⟨k, hk, rfl⟩
  exact ⟨_, hread.get (hread.length_eq ▸ hk) hk⟩

/-- Arguments that are refused are reported as malformed. -/
theorem parseArgs_code_of_error (scope : Scope) (target : String) (texts : List String)
    (expected : Nat) (fault : SiteFault)
    (h : parseArgs scope target texts expected = .error fault) :
    fault.code = .malformedGenericExpression := by
  unfold parseArgs at h
  by_cases hlength : texts.length = expected
  · rw [if_pos hlength] at h
    rcases parseEach_eq_error scope target texts fault h with ⟨text, _, cause, _, rfl⟩
    rfl
  · -- Their number is looked at before any of them is read.
    rw [if_neg hlength] at h
    rw [← Except.error.inj h]
    rfl

theorem formalRefs_inScope (t : Table) (formals outer : List String) (hsub : outer ⊆ formals)
    (e : Expr) (he : e ∈ formalRefs outer) :
    e.InScope t formals ∧ ∃ name, e = .param name := by
  rcases List.mem_map.mp he with ⟨name, hname, rfl⟩
  exact ⟨.param name (hsub hname), name, rfl⟩

/-- A member edge leads to a member without parameters of its own, from the type
    that encloses it. -/
theorem memberEdge?_eq_some (t : Table) (id : DeclId) (entry : Entry) (edge : Edge)
    (h : memberEdge? t id entry = some edge) :
    ∃ owner ownerEntry, entry.ownParams = [] ∧ entry.enclosing = some owner ∧
      t.get? owner = some ownerEntry ∧
      edge = ⟨owner, id, formalRefs ownerEntry.formals, .member⟩ := by
  unfold memberEdge? at h
  by_cases hmember : (entry.kind.isMember && entry.ownParams.isEmpty) = true
  · rw [if_pos hmember] at h
    rw [Bool.and_eq_true, List.isEmpty_iff] at hmember
    -- There is an edge only if there is an owner, it is registered, and it is a type.
    cases henclosing : entry.enclosing with
    | none =>
        rw [henclosing] at h
        exact absurd h (by simp only [reduceCtorEq, not_false_eq_true])
    | some owner =>
        rw [henclosing] at h
        cases howner : t.get? owner with
        | none =>
            simp only [howner] at h
            exact absurd h (by simp only [reduceCtorEq, not_false_eq_true])
        | some ownerEntry =>
            simp only [howner] at h
            by_cases hkind : ownerEntry.kind = .type
            · rw [if_pos hkind, Option.some.injEq] at h
              exact ⟨owner, ownerEntry, hmember.2, rfl, howner, h.symm⟩
            · rw [if_neg hkind] at h
              exact absurd h (by simp only [reduceCtorEq, not_false_eq_true])
  · rw [if_neg hmember] at h
    exact absurd h (by simp only [reduceCtorEq, not_false_eq_true])

/-- A member without parameters of its own has exactly the formals of its owner,
    so these are arguments for it. -/
theorem memberEdge?_wellFormed (t : Table) (hnested : t.IsNested) (limit : Nat) (id : DeclId)
    (entry : Entry) (edge : Edge) (hget : t.get? id = some entry)
    (h : memberEdge? t id entry = some edge) : (Hop.use edge).WellFormed t limit := by
  rcases memberEdge?_eq_some t id entry edge h with
    ⟨owner, ownerEntry, hown, henclosing, howner, rfl⟩
  have hformals : t.formals owner = ownerEntry.formals := t.formals_of_get? owner ownerEntry howner
  -- Nested in the owner and with nothing of its own, the member has the formals of the owner.
  have hsame : t.formals id = ownerEntry.formals := by
    rw [t.formals_of_get? id entry hget, hnested.formals_eq id entry hget, henclosing, hown,
      Option.elim_some, List.append_nil, hformals]
  have hrefs := formalRefs_inScope t (t.formals owner) ownerEntry.formals
    (by rw [hformals]; exact List.Subset.refl _)
  refine ⟨t.lt_size_of_get? owner ownerEntry howner, t.lt_size_of_get? id entry hget, ?_,
    fun e he => (hrefs e he).1, fun e he => Or.inr (hrefs e he).2⟩
  simp only [Hop.args, Hop.target, formalRefs, List.length_map, hsame]

/-- A site that writes the arguments for its target's own parameters, within what
    encloses the target, passes on all formals of what encloses it. -/
theorem capturedFormals_eq (t : Table) (hnested : t.IsNested) (caller callee outer : DeclId)
    (target : Entry) (hget : t.get? callee = some target)
    (henclosing : target.enclosing = some outer)
    (hinside : t.encloses outer caller = true) :
    capturedFormals t caller target target.ownParams.length = t.formals outer := by
  have hformals : target.formals = t.formals outer ++ target.ownParams := by
    rw [hnested.formals_eq callee target hget, henclosing, Option.elim_some]
  have hlength : target.formals.length - target.ownParams.length = (t.formals outer).length := by
    rw [hformals, List.length_append, Nat.add_sub_cancel]
  unfold capturedFormals
  simp only [henclosing, hlength, hinside, and_true]
  -- Where nothing is inherited, nothing is passed on, which comes to the same.
  by_cases hnone : (t.formals outer).length ≠ 0
  · rw [if_pos hnone, hformals, List.take_left]
  · rw [if_neg hnone]
    exact (List.eq_nil_of_length_eq_zero (not_not.mp hnone)).symm

/-- A site passes on no formals, or all those of the declaration that encloses
    its target, which it then stands in. -/
theorem capturedFormals_cases (t : Table) (hnested : t.IsNested) (caller callee : DeclId)
    (target : Entry) (hget : t.get? callee = some target) (written : Nat) :
    capturedFormals t caller target written = [] ∨
      ∃ outer, target.enclosing = some outer ∧ t.encloses outer caller = true ∧
        capturedFormals t caller target written = t.formals outer := by
  cases henclosing : target.enclosing with
  | none =>
      unfold capturedFormals
      simp only [henclosing]
      exact Or.inl trivial
  | some outer =>
      by_cases hcond : written = target.ownParams.length ∧ t.encloses outer caller = true
      · refine Or.inr ⟨outer, rfl, hcond.2, ?_⟩
        rw [hcond.1]
        exact capturedFormals_eq t hnested caller callee outer target hget henclosing hcond.2
      · -- Too many or too few arguments, or a site that stands elsewhere.
        unfold capturedFormals
        simp only [henclosing]
        rw [if_neg (fun h => hcond h.2)]
        exact Or.inl rfl

/-- A site that writes all arguments leaves none out, also where its target inherits
    formals. -/
theorem capturedFormals_of_all (t : Table) (caller : DeclId) (target : Entry) :
    capturedFormals t caller target target.formals.length = [] := by
  unfold capturedFormals
  cases target.enclosing with
  | none => rfl
  | some outer =>
      refine if_neg ?_
      -- Writing all would be writing its own only if nothing were inherited.
      rintro ⟨hinherited, hwritten, _⟩
      omega

/-- What a site passes on is known to its caller, and is no more than its target
    takes. -/
theorem capturedFormals_subset (t : Table) (hnested : t.IsNested) (caller callee : DeclId)
    (target : Entry) (hget : t.get? callee = some target) (written : Nat) :
    capturedFormals t caller target written ⊆ t.formals caller ∧
      (capturedFormals t caller target written).length ≤ (t.formals callee).length := by
  rcases capturedFormals_cases t hnested caller callee target hget written with
    hnone | ⟨outer, henclosing, hencloses, hall⟩
  · rw [hnone]
    exact ⟨List.nil_subset _, Nat.zero_le _⟩
  · rw [hall, t.formals_of_get? callee target hget, hnested.formals_eq callee target hget,
      henclosing, Option.elim_some, List.length_append]
    exact ⟨(t.formals_prefix_of_encloses hnested outer caller hencloses).subset,
      Nat.le_add_right _ _⟩

/-- What becomes of a site in a declaration of the given name: an edge, or what is
    reported. -/
def siteOutcome (t : Table) (maxNesting : Nat) (caller : DeclId) (writer : String) (site : Site) :
    Except Diagnostic Edge :=
  (scanSite t maxNesting caller site).mapError (SiteFault.diagnostic writer)

/-- The edge of a site: the formals it passes on, then the arguments it writes. -/
theorem scanSite_eq_ok_iff (t : Table) (maxNesting : Nat) (caller : DeclId) (site : Site)
    (edge : Edge) :
    scanSite t maxNesting caller site = .ok edge ↔
      ∃ callee target args, t.find? site.target = some callee ∧ t.get? callee = some target ∧
        parseArgs (({ formals := t.formals caller, table := t } : Scope).withMaxNesting maxNesting)
          site.target site.typeArgs ((t.formals callee).length -
            (capturedFormals t caller target site.typeArgs.length).length) = .ok args ∧
        edge = ⟨caller, callee,
          formalRefs (capturedFormals t caller target site.typeArgs.length) ++ args,
          .site site.kind⟩ := by
  unfold scanSite
  cases hfind : t.find? site.target with
  | none => simp only [reduceCtorEq, false_and, exists_false]
  | some callee =>
      -- What is found by its name has an entry.
      have hentry : ∃ target, t.get? callee = some target :=
        ⟨_, List.getElem?_eq_getElem (t.find?_lt_size site.target callee hfind)⟩
      rcases hentry with ⟨target, hget⟩
      simp only [hget, Option.elim_some, map_eq_ok_iff]
      constructor
      · intro h
        rcases h with ⟨args, hargs, hedge⟩
        exact ⟨callee, target, args, rfl, hget, hargs, hedge.symm⟩
      · intro h
        rcases h with ⟨found, entry, args, hfound, hentry, hargs, hedge⟩
        rw [Option.some.injEq] at hfound
        subst hfound
        rw [hget, Option.some.injEq] at hentry
        subst hentry
        exact ⟨args, hargs, hedge.symm⟩

theorem scanSite_wellFormed (t : Table) (hnested : t.IsNested) (maxNesting : Nat)
    (caller : DeclId) (hcaller : caller < t.size) (site : Site) (edge : Edge)
    (h : scanSite t maxNesting caller site = .ok edge) :
    (Hop.use edge).WellFormed t maxNesting := by
  rcases (scanSite_eq_ok_iff t maxNesting caller site edge).mp h with
    ⟨callee, target, args, hfind, hget, hargs, rfl⟩
  rcases parseArgs_eq_ok _ _ _ _ _ hargs with ⟨hlength, hall⟩
  rcases capturedFormals_subset t hnested caller callee target hget site.typeArgs.length with
    ⟨hknown, hfew⟩
  have hrefs := formalRefs_inScope t (t.formals caller) _ hknown
  refine ⟨hcaller, t.find?_lt_size site.target callee hfind, ?_, fun e he => ?_, fun e he => ?_⟩
  · -- What is expected in writing is what is not passed on, and that is not negative.
    simp only [Hop.args, Hop.target, formalRefs, List.length_append, List.length_map, hlength]
    omega
  · -- An argument is passed on or written, and the parser answers for those that are written.
    rcases List.mem_append.mp he with he | he
    · exact (hrefs e he).1
    · rcases hall e he with ⟨text, hread⟩
      exact (Scope.parse_inScope _ text e hread).1
  · rcases List.mem_append.mp he with he | he
    · exact Or.inr (hrefs e he).2
    · rcases hall e he with ⟨text, hread⟩
      exact Or.inl (Nat.le_trans (Scope.parse_inScope _ text e hread).2 (Nat.min_le_left _ _))

/-- The edge of an inheritance relation: the arguments it writes, in the words of
    the derived type. -/
theorem scanInheritance_eq_ok_iff (t : Table) (maxNesting : Nat) (i : Inheritance)
    (edge : HierarchyEdge) :
    scanInheritance t maxNesting i = .ok edge ↔
      ∃ derived base args, t.find? i.derived = some derived ∧ t.find? i.base = some base ∧
        parseArgs (({ formals := t.formals derived, table := t } : Scope).withMaxNesting maxNesting)
          i.base i.typeArgs (t.formals base).length = .ok args ∧
        edge = ⟨derived, base, args⟩ := by
  unfold scanInheritance
  cases hderived : t.find? i.derived with
  | none => simp only [reduceCtorEq, false_and, exists_false]
  | some derived =>
      cases hbase : t.find? i.base with
      | none => simp only [reduceCtorEq, false_and, and_false, exists_false]
      | some base =>
          simp only [map_eq_ok_iff, Option.some.injEq, exists_and_left, exists_eq_left']
          exact exists_congr fun args => and_congr_right fun _ => eq_comm

theorem scanInheritance_wellFormed (t : Table) (maxNesting : Nat) (i : Inheritance)
    (edge : HierarchyEdge) (h : scanInheritance t maxNesting i = .ok edge) :
    (Hop.inherit edge).WellFormed t maxNesting := by
  rcases (scanInheritance_eq_ok_iff t maxNesting i edge).mp h with
    ⟨derived, base, args, hderived, hbase, hargs, rfl⟩
  rcases parseArgs_eq_ok _ _ _ _ _ hargs with ⟨hlength, hall⟩
  refine ⟨t.find?_lt_size i.derived derived hderived, t.find?_lt_size i.base base hbase,
    hlength, fun e he => ?_, fun e he => ?_⟩
  · rcases hall e he with ⟨text, hread⟩
    exact (Scope.parse_inScope _ text e hread).1
  · rcases hall e he with ⟨text, hread⟩
    exact Or.inl (Nat.le_trans (Scope.parse_inScope _ text e hread).2 (Nat.min_le_left _ _))

theorem mem_scanBody_iff (t : Table) (maxNesting : Nat) (id : DeclId) (d : Declaration)
    (edge : Edge) :
    .ok edge ∈ scanBody t maxNesting id d ↔
      ∃ site ∈ d.body, scanSite t maxNesting id site = .ok edge := by
  simp [scanBody, mapError_eq_ok_iff]

theorem mem_scanHierarchy_iff (t : Table) (maxNesting : Nat) (hierarchy : List Inheritance)
    (edge : HierarchyEdge) :
    .ok edge ∈ scanHierarchy t maxNesting hierarchy ↔
      ∃ i ∈ hierarchy, scanInheritance t maxNesting i = .ok edge := by
  simp [scanHierarchy, mapError_eq_ok_iff]

/-- What is found at a declaration is the edge that makes it a member, or that of
    one of its sites. -/
theorem mem_declarationEdges_iff (t : Table) (maxNesting : Nat) (id : DeclId) (d : Declaration)
    (edge : Edge) :
    edge ∈ declarationEdges t maxNesting id d ↔
      (∃ entry, t.get? id = some entry ∧ memberEdge? t id entry = some edge) ∨
        ∃ site ∈ d.body, scanSite t maxNesting id site = .ok edge := by
  unfold declarationEdges
  rw [List.mem_append, Option.mem_toList, Option.bind_eq_some_iff, mem_successes_iff,
    mem_scanBody_iff]

/-- Every edge of a scanned graph was found at a registered declaration. -/
theorem Program.mem_edges_iff (p : Program) (maxNesting : Nat) (edge : Edge) :
    edge ∈ (p.scan maxNesting).graph.edges ↔
      ∃ id d, (registered p.declarations)[id]? = some d ∧
        edge ∈ declarationEdges (p.scan maxNesting).graph.table maxNesting id d := by
  constructor
  · intro h
    rcases List.mem_flatMap.mp h with ⟨⟨d, id⟩, hbody, hfound⟩
    exact ⟨id, d, List.mem_zipIdx_iff_getElem?.mp hbody, hfound⟩
  · rintro ⟨id, d, hget, hfound⟩
    exact List.mem_flatMap.mpr ⟨(d, id), List.mem_zipIdx_iff_getElem?.mpr hget, hfound⟩

/-- Every hierarchy edge of a scanned graph is that of an inheritance relation. -/
theorem Program.mem_hierarchy_iff (p : Program) (maxNesting : Nat) (edge : HierarchyEdge) :
    edge ∈ (p.scan maxNesting).graph.hierarchy ↔
      ∃ i ∈ p.hierarchy,
        scanInheritance (p.scan maxNesting).graph.table maxNesting i = .ok edge :=
  (mem_successes_iff _ _).trans (mem_scanHierarchy_iff _ _ _ _)

theorem declarationEdges_wellFormed (t : Table) (hnested : t.IsNested) (maxNesting : Nat)
    (id : DeclId) (hid : id < t.size) (d : Declaration) (edge : Edge)
    (h : edge ∈ declarationEdges t maxNesting id d) : (Hop.use edge).WellFormed t maxNesting := by
  rcases (mem_declarationEdges_iff t maxNesting id d edge).mp h with
    ⟨entry, hget, hedge⟩ | ⟨site, _, hedge⟩
  · exact memberEdge?_wellFormed t hnested maxNesting id entry edge hget hedge
  · exact scanSite_wellFormed t hnested maxNesting id hid site edge hedge

/-- Every hop of a scanned graph is well-formed, under any limit. -/
theorem Program.scan_wellFormed (p : Program) (maxNesting : Nat) :
    (p.scan maxNesting).graph.WellFormed maxNesting := by
  intro hop hmem
  have hnested := Table.register_isNested p.declarations
  rcases List.mem_append.mp hmem with huse | hinherit
  · rcases List.mem_map.mp huse with ⟨edge, hedge, rfl⟩
    rcases (p.mem_edges_iff maxNesting edge).mp hedge with ⟨id, d, hget, hfound⟩
    have hid := Table.lt_size_register p.declarations id d hget
    exact declarationEdges_wellFormed _ hnested maxNesting id hid d edge hfound
  · rcases List.mem_map.mp hinherit with ⟨edge, hedge, rfl⟩
    rcases (p.mem_hierarchy_iff maxNesting edge).mp hedge with ⟨i, _, hscan⟩
    exact scanInheritance_wellFormed _ maxNesting i edge hscan

namespace Graph

/-- A seed has closed arguments, so none of them is a parameter, and what was
    written is held against the limit. -/
theorem nesting_le_of_isSeed (g : Graph) (limit : Nat) (hwell : g.WellFormed limit)
    (i : Instantiation) (h : g.IsSeed i) : i.nesting ≤ limit := by
  rcases h with ⟨edge, hedge, _, _, hargs⟩
  have hhop := hwell (.use edge) (List.mem_append_left _ (List.mem_map_of_mem hedge))
  refine (Expr.nestingAll_le_iff i.args limit).mpr fun e he => ?_
  rcases hhop.nesting e (by rw [← hargs] at he; exact he) with hle | ⟨name, rfl⟩
  · exact hle
  · -- A bare parameter would be open.
    have hclosed := (Expr.allClosed_iff i.args).mp i.closed
    exact absurd (hclosed _ he) (by simp only [Expr.isClosed, Bool.false_eq_true,
      not_false_eq_true])

/-- There is one argument for each formal. -/
def Fits (g : Graph) (i : Instantiation) : Prop :=
  i.args.length = (g.table.formals i.decl).length

theorem isClosed_of_get?_binding (g : Graph) (i : Instantiation) (name : String) (e : Expr)
    (h : (g.binding i).get? name = some e) : e.isClosed = true :=
  (Expr.allClosed_iff i.args).mp i.closed e (Subst.mem_of_get?_ofPairs _ _ _ _ h)

/-- What is in scope of a declaration is closed by the binding of any
    instantiation of it. -/
theorem isClosed_apply_binding (g : Graph) (i : Instantiation) (hfits : g.Fits i) (e : Expr)
    (h : e.InScope g.table (g.table.formals i.decl)) : ((g.binding i).apply e).isClosed = true := by
  refine Expr.InScope.isClosed_apply _ _ _ e h fun name hname => ?_
  rcases Subst.exists_get?_ofPairs _ i.args name (Nat.le_of_eq hfits.symm) hname with ⟨e', he'⟩
  exact ⟨e', he', isClosed_of_get?_binding g i name e' he'⟩

/-- Following a hop never leaves an argument open. -/
theorem exists_along (g : Graph) (limit : Nat) (hwell : g.WellFormed limit) (i : Instantiation)
    (hfits : g.Fits i) (hop : Hop) (hmem : hop ∈ g.hops) (hsource : hop.source = i.decl) :
    ∃ j, g.along i hop = some j := by
  have hclosed : Expr.allClosed ((g.binding i).applyAll hop.args) = true := by
    rw [Expr.allClosed_iff, Subst.applyAll_eq_map]
    -- Each argument is in scope of the source, and that is what is instantiated.
    intro e he
    rcases List.mem_map.mp he with ⟨arg, harg, rfl⟩
    have hscope := (hwell hop hmem).inScope arg harg
    rw [hsource] at hscope
    exact isClosed_apply_binding g i hfits arg hscope
  exact ⟨⟨hop.target, (g.binding i).applyAll hop.args, hclosed⟩,
    (along_eq_some_iff g i _ hop).mpr ⟨rfl, rfl⟩⟩

/-- Whatever a walk ends at, some hop leads there, with as many arguments. -/
theorem Walk.exists_hop (g : Graph) (limit n : Nat) (i : Instantiation) (h : g.Walk limit n i) :
    ∃ hop ∈ g.hops, hop.target = i.decl ∧ hop.args.length = i.args.length := by
  cases h with
  | seed _ hseed _ =>
      rcases hseed with ⟨edge, hedge, _, hdecl, hargs⟩
      exact ⟨.use edge, List.mem_append_left _ (List.mem_map_of_mem hedge), hdecl,
        congrArg List.length hargs⟩
  | hop n j _ _ hleads _ =>
      rcases hleads with ⟨hop, hmem, _, htarget, hargs⟩
      exact ⟨hop, hmem, htarget, by simp [← hargs]⟩

theorem Walk.fits (g : Graph) (limit bound n : Nat) (hwell : g.WellFormed limit)
    (i : Instantiation) (h : g.Walk bound n i) : i.decl < g.table.size ∧ g.Fits i := by
  rcases h.exists_hop g bound n i with ⟨hop, hmem, htarget, hlength⟩
  have hhop := hwell hop hmem
  unfold Fits
  rw [← htarget, ← hlength]
  exact ⟨hhop.target_lt, hhop.arity⟩

end Graph

end Monomorph

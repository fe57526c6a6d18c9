import Mathlib.Order.Bounds.Basic
import Monomorph.Proofs.Edges

/-!
# What Is Passed On Without Being Written

The arguments that a target gets for formals about which nothing was written.

There are two occasions. A member without parameters of its own is reached from
its type, and a site that stands within what encloses its target may write the
arguments for the target's own parameters and leave out the rest. In both the
target inherits formals that its source has too, at the front of its own. What is
passed on for them are not arguments but names, and a name is looked up in the
binding of the source when an instantiation is expanded.

Names may repeat. Where a declaration calls a parameter what one that encloses it
calls its own, the two stand at different places among its formals, and a name is
bound at the last of them. So a formal that is inherited gets the argument for
what its name means in the source, and not the one at its own place. The two
agree for formals whose names do not recur further inside, and if none of those
inherited does, then the arguments that are passed on are those at the front.
`House.args_shadowed` shows a program in which a name recurs and both occasions
lead elsewhere.

## Main definitions

* `Program.PassesOn`: The edge leaves out arguments for what encloses its target.

## Theorems

* `Subst.exists_isGreatest_lookup`, `Subst.exists_isGreatest_get?_ofPairs`: A name is
  bound at its last place.
* `Program.exists_memberEdge?`: Where an edge to a member comes from.
* `Program.PassesOn.exists_args`: What is passed on are the names of the formals
  at the front.
* `Graph.exists_isGreatest_args`: Which arguments these names stand for.
* `Program.args_of_passesOn`: What a target gets without its being written.
* `House.args_plain`, `House.args_shadowed`: A program without names that recur
  and one with them.
-/

namespace Monomorph

namespace Subst

/-- Looking up from the end finds what stands at the last place of a name. -/
theorem exists_isGreatest_lookup (pairs : List (String × Expr)) (name : String)
    (h : name ∈ pairs.map Prod.fst) :
    ∃ m, IsGreatest {m : Nat | (pairs.map Prod.fst)[m]? = some name} m ∧
      pairs.reverse.lookup name = (pairs.map Prod.snd)[m]? := by
  -- From the end, since that is where looking up starts.
  induction pairs using List.reverseRecOn with
  | nil => exact absurd h List.not_mem_nil
  | append_singleton pairs pair ih =>
      have hfst : (pairs.map Prod.fst).length = pairs.length := List.length_map _
      have hsnd : (pairs.map Prod.snd).length = pairs.length := List.length_map _
      rw [List.map_append, List.map_singleton, List.mem_append, List.mem_singleton] at h
      rw [List.reverse_concat, List.lookup_cons, List.map_append, List.map_append,
        List.map_singleton, List.map_singleton]
      by_cases hname : name = pair.1
      · -- The last pair has the name, and there is no place after it.
        refine ⟨pairs.length, ⟨?_, ?_⟩, ?_⟩
        · rw [Set.mem_ofPred_eq, hname, ← hfst]
          exact List.getElem?_concat_length
        · intro m hm
          have hlt := (List.getElem?_eq_some_iff.mp hm).1
          rw [List.length_append, hfst, List.length_singleton] at hlt
          omega
        · rw [beq_iff_eq.mpr hname, ← hsnd]
          exact List.getElem?_concat_length.symm
      · rcases ih (h.resolve_right hname) with ⟨m, ⟨hm, hlast⟩, hlookup⟩
        have hlt := (List.getElem?_eq_some_iff.mp hm).1
        refine ⟨m, ⟨?_, ?_⟩, ?_⟩
        · rw [Set.mem_ofPred_eq, List.getElem?_append_left hlt]
          exact hm
        · intro k hk
          by_cases hend : k < (pairs.map Prod.fst).length
          · rw [Set.mem_ofPred_eq, List.getElem?_append_left hend] at hk
            exact hlast hk
          · -- The only place left is the last, where another name stands.
            rw [Set.mem_ofPred_eq, List.getElem?_append_right (Nat.le_of_not_lt hend)] at hk
            exact absurd (List.mem_singleton.mp (List.mem_of_getElem? hk)) hname
        · rw [beq_eq_false_iff_ne.mpr hname, List.getElem?_append_left (by omega)]
          exact hlookup

/-- A name is bound to the expression at its last place. -/
theorem exists_isGreatest_get?_ofPairs (names : List String) (exprs : List Expr) (name : String)
    (hlength : exprs.length = names.length) (hname : name ∈ names) :
    ∃ m, IsGreatest {m : Nat | names[m]? = some name} m ∧
      (ofPairs names exprs).get? name = exprs[m]? := by
  have hnames := List.map_fst_zip (Nat.le_of_eq hlength.symm)
  have hexprs := List.map_snd_zip (Nat.le_of_eq hlength)
  rw [get?_ofPairs]
  have hlast := exists_isGreatest_lookup (names.zip exprs) name (by rw [hnames]; exact hname)
  rwa [hnames, hexprs] at hlast

end Subst

/-- An edge that makes something a member was found as such. -/
theorem Program.exists_memberEdge? (p : Program) (maxNesting : Nat) (edge : Edge)
    (hedge : edge ∈ (p.scan maxNesting).graph.edges) (hkind : edge.kind = .member) :
    ∃ id entry, (p.scan maxNesting).graph.table.get? id = some entry ∧
      memberEdge? (p.scan maxNesting).graph.table id entry = some edge := by
  rcases (p.mem_edges_iff maxNesting edge).mp hedge with ⟨id, d, _, hfound⟩
  rcases (mem_declarationEdges_iff _ _ _ _ _).mp hfound with
    ⟨entry, hget, hmember⟩ | ⟨site, _, hscan⟩
  · exact ⟨id, entry, hget, hmember⟩
  · rcases (scanSite_eq_ok_iff _ _ _ _ _).mp hscan with ⟨callee, target, args, _, _, _, rfl⟩
    exact absurd hkind (by simp only [reduceCtorEq, not_false_eq_true])

/-- The edge leaves arguments for the formals of `outer` out, which encloses its
    target: it makes the target a member, or it is that of a site within `outer`
    that writes arguments for the target's own parameters only. -/
inductive Program.PassesOn (p : Program) (maxNesting : Nat) (outer : DeclId) : Edge → Prop
  | member (edge : Edge) (hedge : edge ∈ (p.scan maxNesting).graph.edges)
      (hkind : edge.kind = .member) (target : Entry)
      (hget : (p.scan maxNesting).graph.table.get? edge.callee = some target)
      (henclosing : target.enclosing = some outer) : PassesOn p maxNesting outer edge
  | site (caller : DeclId) (d : Declaration) (site : Site) (edge : Edge)
      (hd : (registered p.declarations)[caller]? = some d) (hsite : site ∈ d.body)
      (hscan : scanSite (p.scan maxNesting).graph.table maxNesting caller site = .ok edge)
      (target : Entry)
      (hget : (p.scan maxNesting).graph.table.get? edge.callee = some target)
      (henclosing : target.enclosing = some outer)
      (hinside : (p.scan maxNesting).graph.table.encloses outer caller = true)
      (hwritten : site.typeArgs.length = target.ownParams.length) :
      PassesOn p maxNesting outer edge

/-- What is passed on are the names of the formals of `outer`, which stand at the
    front of the formals of the source and of the target. -/
theorem Program.PassesOn.exists_args (p : Program) (maxNesting : Nat) (outer : DeclId)
    (edge : Edge) (h : p.PassesOn maxNesting outer edge) :
    let g := (p.scan maxNesting).graph
    edge ∈ g.edges ∧ g.table.formals outer <+: g.table.formals edge.caller ∧
      g.table.formals outer <+: g.table.formals edge.callee ∧
      ∃ written, edge.args = formalRefs (g.table.formals outer) ++ written := by
  intro g
  have hnested : g.table.IsNested := Table.register_isNested p.declarations
  have hinherited : ∀ callee target, g.table.get? callee = some target →
      target.enclosing = some outer → g.table.formals outer <+: g.table.formals callee := by
    intro callee target hget henclosing
    rw [g.table.formals_of_get? callee target hget, hnested.formals_eq callee target hget,
      henclosing, Option.elim_some]
    exact List.prefix_append _ _
  cases h with
  | member edge hedge hkind target hget henclosing =>
      have hfront := hinherited _ target hget henclosing
      rcases p.exists_memberEdge? maxNesting edge hedge hkind with ⟨id, entry, hentry, hmember⟩
      rcases memberEdge?_eq_some _ _ _ _ hmember with
        ⟨owner, ownerEntry, _, howner, hgetOwner, rfl⟩
      have hsame : entry = target := Option.some.inj (hentry.symm.trans hget)
      subst hsame
      -- The type that a member is reached from is what encloses it.
      have houter : owner = outer := Option.some.inj (howner.symm.trans henclosing)
      subst houter
      refine ⟨hedge, List.prefix_rfl, hfront, [], ?_⟩
      rw [List.append_nil, g.table.formals_of_get? owner ownerEntry hgetOwner]
  | site caller d site edge hd hsite hscan target hget henclosing hinside hwritten =>
      -- The site stands within `outer`, so the caller has the formals of `outer` at its front.
      have hedge : edge ∈ g.edges := by
        refine (p.mem_edges_iff maxNesting edge).mpr ⟨caller, d, hd, ?_⟩
        exact (mem_declarationEdges_iff _ _ _ _ _).mpr (Or.inr ⟨site, hsite, hscan⟩)
      rcases (scanSite_eq_ok_iff _ _ _ _ _).mp hscan with
        ⟨callee, entry, args, _, hentry, _, rfl⟩
      have hsame : entry = target := Option.some.inj (hentry.symm.trans hget)
      subst hsame
      refine ⟨hedge, g.table.formals_prefix_of_encloses hnested outer caller hinside,
        hinherited callee entry hget henclosing, args, ?_⟩
      rw [hwritten, capturedFormals_eq g.table hnested caller callee outer entry hget henclosing
        hinside]

/-- What is found for names that are passed on: the argument at the last place of
    each among the formals of the source. -/
theorem Graph.exists_isGreatest_args (g : Graph) (i j : Instantiation) (hfits : g.Fits i)
    (hop : Hop) (halong : g.along i hop = some j) (names : List String) (written : List Expr)
    (hargs : hop.args = formalRefs names ++ written) (hknown : names ⊆ g.table.formals i.decl)
    (k : Nat) (hk : k < names.length) :
    ∃ m, IsGreatest {m : Nat | (g.table.formals i.decl)[m]? = names[k]?} m ∧
      j.args[k]? = i.args[m]? := by
  have hname : names[k] ∈ g.table.formals i.decl := hknown (List.getElem_mem hk)
  rcases Subst.exists_isGreatest_get?_ofPairs _ i.args names[k] hfits hname with
    ⟨m, hlast, hget⟩
  refine ⟨m, by rw [List.getElem?_eq_getElem hk]; exact hlast, ?_⟩
  -- The place has an argument, so the name is found and replaced by it.
  have hlt : m < i.args.length := by
    rw [hfits]
    exact (List.getElem?_eq_some_iff.mp hlast.1).1
  rw [List.getElem?_eq_getElem hlt] at hget ⊢
  have hbound : (g.binding i).get? names[k] = some i.args[m] := hget
  rw [← ((along_eq_some_iff g i j hop).mp halong).2, Subst.applyAll_eq_map, hargs, formalRefs,
    List.getElem?_map, List.getElem?_append_left (by rw [List.length_map]; exact hk),
    List.getElem?_map, List.getElem?_eq_getElem hk, Option.map_some, Option.map_some, Subst.apply,
    hbound, Option.getD_some]

/-- Expanding an instantiation over an edge that leaves arguments out gives its
    target, for each formal that it inherits, the argument for what the name of
    that formal means in the source: the one at the last place where the name
    occurs. If no name of those that are inherited recurs further inside, then the
    target gets the arguments at the front. -/
theorem Program.args_of_passesOn (p : Program) (maxNesting : Nat) (outer : DeclId) (edge : Edge)
    (hpasses : p.PassesOn maxNesting outer edge) (i : Instantiation)
    (hcaller : edge.caller = i.decl) (hfits : (p.scan maxNesting).graph.Fits i) :
    let g := (p.scan maxNesting).graph
    let inherited := g.table.formals outer
    inherited <+: g.table.formals i.decl ∧
    ∃ j ∈ g.successors i, g.along i (.use edge) = some j ∧ j.decl = edge.callee ∧ g.Fits j ∧
      inherited <+: g.table.formals j.decl ∧
      (∀ k < inherited.length, ∃ m,
        IsGreatest {m : Nat | (g.table.formals i.decl)[m]? = inherited[k]?} m ∧
        j.args[k]? = i.args[m]?) ∧
      ((∀ k < inherited.length, ∀ m > k, (g.table.formals i.decl)[m]? ≠ inherited[k]?) →
        j.args.take inherited.length = i.args.take inherited.length) := by
  intro g inherited
  rcases hpasses.exists_args with ⟨hedge, hsource, htarget, written, hargs⟩
  have hwell := p.scan_wellFormed maxNesting
  have hmem : Hop.use edge ∈ g.hops := List.mem_append_left _ (List.mem_map_of_mem hedge)
  rw [hcaller] at hsource
  rcases g.exists_along maxNesting hwell i hfits (.use edge) hmem hcaller with ⟨j, halong⟩
  rcases (g.along_eq_some_iff i j (.use edge)).mp halong with ⟨hdecl, happlied⟩
  have hplaces := g.exists_isGreatest_args i j hfits (.use edge) halong inherited written hargs
    hsource.subset
  have hfitsj : g.Fits j := by
    rw [Graph.Fits, ← happlied, ← hdecl, Subst.applyAll_eq_map, List.length_map]
    exact (hwell _ hmem).arity
  refine ⟨hsource, j, ?_, halong, hdecl.symm, hfitsj, hdecl ▸ htarget, hplaces, ?_⟩
  · exact (g.mem_successors_iff i j).mpr ⟨.use edge, hmem, hcaller, hdecl, happlied⟩
  · intro honce
    refine List.ext_getElem? fun k => ?_
    rw [List.getElem?_take, List.getElem?_take]
    by_cases hk : k < inherited.length
    · rw [if_pos hk, if_pos hk]
      rcases hplaces k hk with ⟨m, ⟨hm, hlast⟩, hget⟩
      -- The name stands at this place too, and nowhere after it.
      have hle : k ≤ m := by
        have hplace := List.prefix_iff_getElem?.mp hsource k hk
        exact hlast (hplace.trans (List.getElem?_eq_getElem hk).symm)
      have hnot : ¬ k < m := fun hlt => honce k hk m hlt hm
      rw [hget, Nat.le_antisymm hle (Nat.le_of_not_lt hnot)]
    · rw [if_neg hk, if_neg hk]

namespace House

/-- A house of something with rooms, which have a parameter under any name. Rooms
    are cleaned by a task, which belongs to the house. -/
def program (name : String) : Program where
  declarations :=
    [{ name := "main", kind := .method, body := [⟨"House.Room", ["int", "bool"], .construct⟩] },
     { name := "House", kind := .type, typeParams := ["T"] },
     { name := "House.Room", kind := .type, typeParams := [name], enclosing := some "House" },
     { name := "House.Room.clean", kind := .method, enclosing := some "House.Room",
       body := [⟨"House.Task", [name], .schedule⟩] },
     { name := "House.Task", kind := .type, typeParams := ["U"], enclosing := some "House",
       requiresSpecialization := true }]

/-- A room makes its cleaning a member. -/
def cleaned (name : String) : Edge :=
  ⟨2, 3, [.param "T", .param name], .member⟩

/-- The cleaning schedules the task and leaves the argument for the house out. -/
def scheduled (name : String) : Edge :=
  ⟨3, 4, [.param "T", .param name], .site .schedule⟩

def room : Instantiation := ⟨2, [.literal "int", .literal "bool"], rfl⟩

def cleaning : Instantiation := ⟨3, [.literal "int", .literal "bool"], rfl⟩

/-- Under different names the task gets the argument of the house. -/
theorem args_plain :
    (program "S").PassesOn 32 1 (scheduled "S") ∧ (scheduled "S").caller = cleaning.decl ∧
    ((program "S").scan 32).graph.Fits cleaning ∧
    ∃ j ∈ ((program "S").scan 32).graph.successors cleaning,
      j.decl = 4 ∧ j.args.take 1 = [.literal "int"] := by
  have hhouse : ((program "S").scan 32).graph.table.formals 1 = ["T"] := by decide +kernel
  have hclean : ((program "S").scan 32).graph.table.formals cleaning.decl = ["T", "S"] := by
    decide +kernel
  have hpasses : (program "S").PassesOn 32 1 (scheduled "S") :=
    .site 3 _ ⟨"House.Task", ["S"], .schedule⟩ _ rfl List.mem_cons_self (by decide +kernel)
      ⟨"House.Task", .type, ["U"], ["T", "U"], some 1, true⟩ (by decide +kernel) rfl
      (by decide +kernel) rfl
  have hfits : ((program "S").scan 32).graph.Fits cleaning := by
    rw [Graph.Fits, hclean]
    rfl
  rcases (program "S").args_of_passesOn 32 1 _ hpasses cleaning rfl hfits with
    ⟨_, j, hj, _, hdecl, _, _, _, hfront⟩
  rw [hhouse, hclean] at hfront
  refine ⟨hpasses, rfl, hfits, j, hj, hdecl, hfront ?_⟩
  intro k hk m hm
  have hzero : k = 0 := Nat.lt_one_iff.mp hk
  subst hzero
  -- After the first place there is one more, with another name.
  match m, hm with
  | 1, _ => decide
  | m + 2, _ => simp only [List.getElem?_cons_succ, List.getElem?_nil, List.getElem?_cons_zero,
      ne_eq, reduceCtorEq, not_false_eq_true]

/-- Where the room calls its parameter what the house calls its own, the cleaning
    of a room and its task get the argument of the room in place of that of the
    house. -/
theorem args_shadowed :
    ((program "T").PassesOn 32 2 (cleaned "T") ∧
      ((program "T").scan 32).graph.table.formals 2 = ["T", "T"] ∧
      ((program "T").scan 32).graph.Fits room ∧
      ((program "T").scan 32).graph.along room (.use (cleaned "T")) =
        some ⟨3, [.literal "bool", .literal "bool"], rfl⟩ ∧
      [Expr.literal "bool", .literal "bool"].take 2 ≠ room.args.take 2) ∧
    (program "T").PassesOn 32 1 (scheduled "T") ∧
      ((program "T").scan 32).graph.table.formals 1 = ["T"] ∧
      ((program "T").scan 32).graph.Fits cleaning ∧
      ((program "T").scan 32).graph.along cleaning (.use (scheduled "T")) =
        some ⟨4, [.literal "bool", .literal "bool"], rfl⟩ ∧
      [Expr.literal "bool", .literal "bool"].take 1 ≠ cleaning.args.take 1 := by
  have hcleaned : (program "T").PassesOn 32 2 (cleaned "T") :=
    .member _ (by decide +kernel) rfl
      ⟨"House.Room.clean", .method, [], ["T", "T"], some 2, false⟩ (by decide +kernel) rfl
  have hscheduled : (program "T").PassesOn 32 1 (scheduled "T") :=
    .site 3 _ ⟨"House.Task", ["T"], .schedule⟩ _ rfl List.mem_cons_self (by decide +kernel)
      ⟨"House.Task", .type, ["U"], ["T", "U"], some 1, true⟩ (by decide +kernel) rfl
      (by decide +kernel) rfl
  have hroom : ((program "T").scan 32).graph.Fits room := by
    unfold Graph.Fits
    decide +kernel
  have hcleaning : ((program "T").scan 32).graph.Fits cleaning := by
    unfold Graph.Fits
    decide +kernel
  refine ⟨⟨hcleaned, ?_, hroom, ?_, by decide⟩, hscheduled, ?_, hcleaning, ?_, by decide⟩
  · decide +kernel
  · exact (Graph.along_eq_some_iff _ _ _ _).mpr (by decide +kernel)
  · decide +kernel
  · exact (Graph.along_eq_some_iff _ _ _ _).mpr (by decide +kernel)

end House

end Monomorph

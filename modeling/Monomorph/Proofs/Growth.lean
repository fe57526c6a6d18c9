import Monomorph.Proofs.Grammar
import Monomorph.Proofs.Publication
import Monomorph.Proofs.Registration

/-!
# Larger Programs Reach More

Nothing that was reached is lost when a program gets more sites or more
inheritance relations, or when its limits are raised.

Such a program has the same declarations, so the table is the same and an
instantiation of the one is an instantiation of the other. That is not a matter
of course: registering looks at declarations as a whole, and it is by going
through it that one sees that bodies play no part (`Table.register_eq_of_headings`).

What is scanned then grows from two sides. More is written, and under a higher
limit more of it can be read. The second is a property of the parser: it refuses
what is nested too deeply and does not read anything differently on account of the
limit. The grammar says so without looking at the parser again, since it knows no
limit (`Scope.parse_withMaxNesting_mono`).

The graph of the smaller program is thus a part of that of the larger one, and
walks in a part are walks in the whole, of the same length. An instantiation is
therefore reached after no more hops than before, and possibly after fewer.

## Main definitions

* `Declaration.Extended`, `Program.Extended`: More sites, more inheritance
  relations, and nothing else.
* `Declaration.heading`: A declaration without its body.
* `Graph.IsPartOf`: The same table, and no edge that the other has not.

## Theorems

* `writtenLinks_map_heading`, `Table.entryOf_heading`, `Table.register_eq_of_headings`:
  The table does not depend on bodies.
* `registeredFrom_forall₂`, `map_heading_of_extended`,
  `Program.Extended.registered_extended`: What is registered of an extended program.
* `Program.Extended.table_eq`: An extended program has the same table.
* `Scope.parse_withMaxNesting_mono`, `parseArgs_mono`: A higher limit changes nothing
  that was read.
* `scanSite_mono`, `scanInheritance_mono`, `declarationEdges_mono`: So what was scanned
  stays.
* `Graph.IsPartOf.isSeed`, `Graph.IsPartOf.hops`, `Graph.IsPartOf.leads`,
  `Graph.IsPartOf.walk`: Walks in a part are walks in the whole.
* `Graph.IsPartOf.exists_get?_reached`: What a part reaches, the whole does.
* `Program.Extended.isPartOf`: Extending a program extends its graph.
* `Program.analyze_mono`: What is reached and what is planned stays so.
* `Orchard.analyze_grown`: A program that grows in both ways.
-/

namespace Monomorph

/-- The same declaration with further sites anywhere in its body. -/
def Declaration.Extended (d d' : Declaration) : Prop :=
  ∃ body, d.body.Sublist body ∧ d' = { d with body }

/-- The same declarations with further sites in their bodies, and further
    inheritance relations anywhere among those there are. -/
structure Program.Extended (p q : Program) : Prop where
  declarations : List.Forall₂ Declaration.Extended p.declarations q.declarations
  hierarchy : p.hierarchy.Sublist q.hierarchy

/-- The declaration without its body. -/
def Declaration.heading (d : Declaration) : Declaration :=
  { d with body := [] }

theorem writtenLinks_map_heading (ds : List Declaration) :
    writtenLinks (ds.map Declaration.heading) = writtenLinks ds := by
  unfold writtenLinks
  rw [List.zipIdx_map, List.map_map, List.map_map]
  rfl

namespace Table

theorem entryOf_heading (ds : List Declaration) (links : Links) (id : DeclId) (d : Declaration) :
    entryOf (ds.map Declaration.heading) links id d.heading = entryOf ds links id d := by
  -- Formals are collected from headings along the chain.
  have hparams : (fun outer : DeclId =>
        ((ds.map Declaration.heading)[outer]?).elim [] Declaration.typeParams) =
      fun outer => (ds[outer]?).elim [] Declaration.typeParams := by
    funext outer
    rw [List.getElem?_map, Option.elim_map]
    rfl
  unfold entryOf
  rw [hparams, List.length_map]
  rfl

/-- The table is made of the headings of the registered declarations. -/
theorem register_eq_of_headings (ds ds' : List Declaration)
    (h : (registered ds).map Declaration.heading = (registered ds').map Declaration.heading) :
    (register ds).1 = (register ds').1 := by
  -- Written with headings only, the table is a function of what the two have in common.
  have hentries : ∀ ds : List Declaration,
      (register ds).1.entries = ((registered ds).map Declaration.heading).zipIdx.map fun pair =>
        entryOf ((registered ds).map Declaration.heading)
          (writtenLinks ((registered ds).map Declaration.heading)).repair.1 pair.2 pair.1 := by
    intro ds
    rw [entries_register, writtenLinks_map_heading, List.zipIdx_map, List.map_map]
    refine List.map_congr_left fun pair _ => ?_
    exact (entryOf_heading (registered ds) _ pair.2 pair.1).symm
  have heq : (register ds).1.entries = (register ds').1.entries := by
    rw [hentries, hentries, h]
  exact congrArg Table.mk heq

end Table

/-- Which declarations are registered depends on their names alone. -/
theorem registeredFrom_forall₂ {R : Declaration → Declaration → Prop}
    (hname : ∀ d d', R d d' → d.name = d'.name) (seen : List String)
    {ds ds' : List Declaration} (h : List.Forall₂ R ds ds') :
    List.Forall₂ R (registeredFrom seen ds) (registeredFrom seen ds') := by
  induction h generalizing seen with
  | nil => exact .nil
  | @cons d d' rest rest' hd _ ih =>
      -- Both are ignored, or both are registered and their name is seen from then on.
      rw [registeredFrom, registeredFrom, ← hname d d' hd]
      by_cases hseen : seen.contains d.name = true
      · rw [if_pos hseen, if_pos hseen]
        exact ih seen
      · rw [if_neg hseen, if_neg hseen]
        exact .cons hd (ih (d.name :: seen))

theorem map_heading_of_extended {ds ds' : List Declaration}
    (h : List.Forall₂ Declaration.Extended ds ds') :
    ds.map Declaration.heading = ds'.map Declaration.heading := by
  induction h with
  | nil => rfl
  | cons hd _ ih =>
      rcases hd with ⟨body, _, rfl⟩
      rw [List.map_cons, List.map_cons, ih]
      rfl

namespace Program.Extended

variable {p q : Program} (hext : p.Extended q)

include hext

theorem registered_extended : List.Forall₂ Declaration.Extended (registered p.declarations)
    (registered q.declarations) := by
  refine registeredFrom_forall₂ ?_ [] hext.declarations
  intro d d' hd
  rcases hd with ⟨body, _, rfl⟩
  rfl

/-- An extended program has the same table, so numbers mean the same in both. -/
theorem table_eq : (Table.register p.declarations).1 = (Table.register q.declarations).1 :=
  Table.register_eq_of_headings _ _ (map_heading_of_extended hext.registered_extended)

end Program.Extended

section Limits

variable (t : Table) (hunique : t.UniquelyNamed) (m n : Nat) (hle : m ≤ n)

include hunique hle

/-- What is read under a limit is read in the same way under a higher one. -/
theorem Scope.parse_withMaxNesting_mono (formals : List String) (text : String) (e : Expr)
    (h : (Scope.withMaxNesting { formals, table := t } m).parse text = .ok e) :
    (Scope.withMaxNesting { formals, table := t } n).parse text = .ok e := by
  rcases (parse_eq_ok_iff_exists _ hunique text e).mp h with ⟨hderives, hnest⟩
  -- The derivation does not mention the limit, so it serves under the other one as well.
  refine (parse_eq_ok_iff_exists _ hunique text e).mpr ⟨hderives, Nat.le_trans hnest ?_⟩
  simp only [withMaxNesting]
  omega

theorem parseArgs_mono (formals : List String) (target : String) (texts : List String)
    (expected : Nat) (args : List Expr)
    (h : parseArgs (Scope.withMaxNesting { formals, table := t } m) target texts expected =
      .ok args) :
    parseArgs (Scope.withMaxNesting { formals, table := t } n) target texts expected =
      .ok args := by
  rw [parseArgs_eq_ok_iff] at h ⊢
  refine ⟨h.1, h.2.imp ?_⟩
  intro text e hread
  exact Scope.parse_withMaxNesting_mono t hunique m n hle formals text e hread

theorem scanSite_mono (caller : DeclId) (site : Site) (edge : Edge)
    (h : scanSite t m caller site = .ok edge) : scanSite t n caller site = .ok edge := by
  rcases (scanSite_eq_ok_iff t m caller site edge).mp h with
    ⟨callee, target, args, hfind, hget, hargs, hedge⟩
  exact (scanSite_eq_ok_iff t n caller site edge).mpr ⟨callee, target, args, hfind, hget,
    parseArgs_mono t hunique m n hle _ _ _ _ _ hargs, hedge⟩

theorem scanInheritance_mono (i : Inheritance) (edge : HierarchyEdge)
    (h : scanInheritance t m i = .ok edge) : scanInheritance t n i = .ok edge := by
  rcases (scanInheritance_eq_ok_iff t m i edge).mp h with
    ⟨derived, base, args, hderived, hbase, hargs, hedge⟩
  exact (scanInheritance_eq_ok_iff t n i edge).mpr ⟨derived, base, args, hderived, hbase,
    parseArgs_mono t hunique m n hle _ _ _ _ _ hargs, hedge⟩

/-- What is found at a declaration is still found when it is extended. -/
theorem declarationEdges_mono (id : DeclId) (d d' : Declaration) (hext : d.Extended d') :
    declarationEdges t m id d ⊆ declarationEdges t n id d' := by
  rcases hext with ⟨body, hbody, rfl⟩
  intro edge hfound
  refine (mem_declarationEdges_iff t n id _ edge).mpr ?_
  rcases (mem_declarationEdges_iff t m id d edge).mp hfound with hmember | ⟨site, hsite, hscan⟩
  · -- That it is a member stands in the table.
    exact Or.inl hmember
  · exact Or.inr ⟨site, hbody.subset hsite, scanSite_mono t hunique m n hle id site edge hscan⟩

end Limits

namespace Graph

/-- The graph has the same table as the other one, and no edge that the other one
    has not. -/
structure IsPartOf (g h : Graph) : Prop where
  table : g.table = h.table
  edges : g.edges ⊆ h.edges
  hierarchy : g.hierarchy ⊆ h.hierarchy

namespace IsPartOf

variable {g h : Graph} (hpart : g.IsPartOf h)

include hpart

theorem isSeed (i : Instantiation) (hi : g.IsSeed i) : h.IsSeed i := by
  rcases hi with ⟨edge, hedge, hseed⟩
  exact ⟨edge, hpart.edges hedge, hseed⟩

theorem hops : g.hops ⊆ h.hops := by
  intro hop hmem
  refine List.mem_append.mpr ?_
  rcases List.mem_append.mp hmem with huse | hinherit
  · exact Or.inl (List.map_subset _ hpart.edges huse)
  · exact Or.inr (List.map_subset _ hpart.hierarchy hinherit)

theorem leads (i j : Instantiation) (hleads : g.Leads i j) : h.Leads i j := by
  rcases hleads with ⟨hop, hmem, hsource, htarget, hargs⟩
  have hbinding : g.binding i = h.binding i := by
    unfold binding
    rw [hpart.table]
  exact ⟨hop, hpart.hops hmem, hsource, htarget, hbinding ▸ hargs⟩

/-- Walks in a part are walks in the whole, hop by hop. -/
theorem walk (limit limit' : Nat) (hle : limit ≤ limit') (n : Nat) (i : Instantiation)
    (hwalk : g.Walk limit n i) : h.Walk limit' n i := by
  induction hwalk with
  | seed i hseed hnest => exact .seed i (hpart.isSeed i hseed) (Nat.le_trans hnest hle)
  | hop n i j _ hleads hnest ih =>
      exact .hop n i j ih (hpart.leads i j hleads) (Nat.le_trans hnest hle)

/-- Under limits at least as high, what is reached in a part is reached in the
    whole, after at most as many hops. -/
theorem exists_get?_reached (settings settings' : Settings)
    (hdepth : settings.maxDepth ≤ settings'.maxDepth)
    (hnest : settings.maxTypeNesting ≤ settings'.maxTypeNesting) (i : Instantiation) (d : Nat)
    (hd : (g.resolve settings).reached.get? i = some d) :
    ∃ d' ≤ d, (h.resolve settings').reached.get? i = some d' := by
  rcases (get?_reached_iff_isLeast g settings i d).mp hd with ⟨⟨hwithin, hwalk⟩, _⟩
  have hwalk' := hpart.walk _ _ hnest d i hwalk
  have hmem : i ∈ (h.resolve settings').reached.keys :=
    (mem_reached_iff h settings' i).mpr ⟨d, Nat.le_trans hwithin hdepth, hwalk'⟩
  rcases (FirstMap.mem_keys_iff _ i).mp hmem with ⟨d', hd'⟩
  -- Hops are counted along the shortest walk, and the one found in the part is no shorter.
  have hleast := ((get?_reached_iff_isLeast h settings' i d').mp hd').2
  exact ⟨d', hleast ⟨Nat.le_trans hwithin hdepth, hwalk'⟩, hd'⟩

end IsPartOf

end Graph

/-- Extending a program and raising the limit on nesting extends its graph. -/
theorem Program.Extended.isPartOf {p q : Program} (hext : p.Extended q) (m n : Nat)
    (hle : m ≤ n) : (p.scan m).graph.IsPartOf (q.scan n).graph := by
  have hunique := Table.register_uniquelyNamed p.declarations
  have htable : (p.scan m).graph.table = (q.scan n).graph.table := hext.table_eq
  refine ⟨htable, ?_, ?_⟩
  · intro edge hedge
    rcases (p.mem_edges_iff m edge).mp hedge with ⟨id, d, hget, hfound⟩
    -- What stands at this number in the larger program is the same declaration, extended.
    have hrel := rel_getElem?_of_forall₂ hext.registered_extended id
    rw [hget] at hrel
    cases hget' : (registered q.declarations)[id]? with
    | none =>
        rw [hget'] at hrel
        cases hrel
    | some d' =>
        rw [hget'] at hrel
        cases hrel with
        | some hd =>
            refine (q.mem_edges_iff n edge).mpr ⟨id, d', hget', ?_⟩
            rw [← htable]
            exact declarationEdges_mono _ hunique m n hle id d d' hd hfound
  · intro edge hedge
    rcases (p.mem_hierarchy_iff m edge).mp hedge with ⟨i, hi, hscan⟩
    refine (q.mem_hierarchy_iff n edge).mpr ⟨i, hext.hierarchy.subset hi, ?_⟩
    rw [← htable]
    exact scanInheritance_mono _ hunique m n hle i edge hscan

/-- Inserting sites and inheritance relations anywhere in a program, and raising
    the limits on hops and on nesting, loses nothing: the numbers of declarations
    stay, what was reached is reached after at most as many hops, and what was
    planned is planned. -/
theorem Program.analyze_mono (p q : Program) (settings settings' : Settings)
    (hext : p.Extended q) (hdepth : settings.maxDepth ≤ settings'.maxDepth)
    (hnest : settings.maxTypeNesting ≤ settings'.maxTypeNesting) :
    let a := p.analyze settings
    let b := q.analyze settings'
    a.table = b.table ∧
    a.resolution.reached.keys ⊆ b.resolution.reached.keys ∧
    (∀ i d, a.resolution.reached.get? i = some d →
      ∃ d' ≤ d, b.resolution.reached.get? i = some d') ∧
    a.plan.entries.map Plan.Entry.instantiation ⊆
      b.plan.entries.map Plan.Entry.instantiation := by
  intro a b
  have hpart := hext.isPartOf settings.maxTypeNesting settings'.maxTypeNesting hnest
  have hhops : ∀ i d, a.resolution.reached.get? i = some d →
      ∃ d' ≤ d, b.resolution.reached.get? i = some d' :=
    hpart.exists_get?_reached settings settings' hdepth hnest
  have hreached : a.resolution.reached.keys ⊆ b.resolution.reached.keys := by
    intro i hi
    rcases (FirstMap.mem_keys_iff _ i).mp hi with ⟨d, hd⟩
    rcases hhops i d hd with ⟨d', _, hd'⟩
    exact (FirstMap.mem_keys_iff _ i).mpr ⟨d', hd'⟩
  have htable : a.table = b.table := hpart.table
  refine ⟨htable, hreached, hhops, ?_⟩
  intro i hi
  -- What asks for specialising and in which form is said by the table, which is the same.
  rcases (p.mem_plan_iff settings i).mp hi with ⟨j, hj, entry, hget, hspecial, hform⟩
  exact (q.mem_plan_iff settings' i).mpr
    ⟨j, hreached hj, entry, htable ▸ hget, hspecial, hform⟩

namespace Orchard

/-- A tree of something and one that is nested more deeply, with room for more. -/
def program (sites : List Site) (hierarchy : List Inheritance) : Program where
  declarations :=
    [{ name := "main", kind := .method,
       body := ⟨"Tree", ["Tree<Tree<int>>"], .construct⟩ :: sites ++
         [⟨"Tree", ["int"], .construct⟩] },
     { name := "Tree", kind := .type, typeParams := ["T"], requiresSpecialization := true },
     { name := "Fruit", kind := .type, typeParams := ["T"], requiresSpecialization := true }]
  hierarchy

def settings : Settings := { maxDepth := 1, maxTypeNesting := 2 }

def raised : Settings := { maxDepth := 2, maxTypeNesting := 3, maxPasses := 1, parallel := false }

/-- The program with a site between the two that it has, and an inheritance
    relation. -/
def grown : Program :=
  program [⟨"Fruit", ["str"], .construct⟩] [⟨"Tree", "Fruit", ["Tree<T>"]⟩]

/-- The deeper tree is refused until the limit is raised, and the one that was
    planned before is planned still. -/
theorem analyze_grown :
    (program [] []).Extended grown ∧ settings.maxDepth ≤ raised.maxDepth ∧
    settings.maxTypeNesting ≤ raised.maxTypeNesting ∧
    ((program [] []).analyze settings).plan.keys = ["Tree<int>"] ∧
    (grown.analyze raised).plan.keys =
      ["Fruit<Tree<int>>", "Fruit<str>", "Tree<Tree<Tree<int>>>", "Tree<int>"] ∧
    ((program [] []).analyze settings).table = (grown.analyze raised).table ∧
    ((program [] []).analyze settings).resolution.reached.keys ⊆
      (grown.analyze raised).resolution.reached.keys ∧
    ((program [] []).analyze settings).plan.entries.map Plan.Entry.instantiation ⊆
      (grown.analyze raised).plan.entries.map Plan.Entry.instantiation := by
  have hext : (program [] []).Extended grown := by
    refine ⟨.cons ⟨_, ?_, rfl⟩ (.cons ⟨[], .slnil, rfl⟩ (.cons ⟨[], .slnil, rfl⟩ .nil)),
      List.nil_sublist _⟩
    exact .cons_cons _ (.cons _ (List.Sublist.refl _))
  have hdepth : settings.maxDepth ≤ raised.maxDepth := by decide
  have hnest : settings.maxTypeNesting ≤ raised.maxTypeNesting := by decide
  rcases (program [] []).analyze_mono grown settings raised hext hdepth hnest with
    ⟨htable, hreached, _, hplan⟩
  exact ⟨hext, hdepth, hnest, by decide +kernel, by decide +kernel, htable, hreached, hplan⟩

end Orchard

end Monomorph

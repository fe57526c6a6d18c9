import Monomorph.Proofs.Publication
import Monomorph.Proofs.Registration
import Monomorph.Proofs.Rendering

/-!
# Keys Identify Instantiations

When two instantiations have the same key, and when that cannot happen.

A key is text, and text forgets things: it does not say whether a name is a
literal or a declaration, and the name of a declaration may be any text that is
not blank. What makes a key readable nevertheless is where its parts come from. A
literal, and the name of a declaration that is applied inside an argument, were
once read by the parser, so they are runs of name characters (`Expr.Legible`).
Such arguments can be read back in only one way, and the reader is the parser
itself: it returns the arguments whose rendering it is given
(`Scope.readArgs_commaJoin`), so two lists with the same rendering are the same.

The one name in a key that was never read is the first, that of the declaration
itself. It ends where the first bracket is, provided that it has none of its own,
and then keys that agree have agreeing names. A declaration whose name has an
opening bracket in it can share a key with another one, as `Label.keys_program`
shows, so the condition cannot be dropped.

Legibility is carried along a walk from what is written (`Graph.Walk.legible`).
Parameters are legible whatever they are called, because they are replaced before
anything is rendered; this is why legible is less than spellable.

## Main definitions

* `Expr.Legible`: Literals and applied names are runs of name characters.
* `Instantiation.Legible`: Its declaration is registered and its arguments are
  legible.

## Theorems

* `Expr.Spellable.legible`: What is spellable is legible.
* `Expr.Legible.apply`: Replacing parameters by what is legible.
* `Expr.Legible.spellable`: What is legible and closed is spellable anywhere.
* `parseArgs_legible`, `formalRefs_legible`: What is read or passed on is legible.
* `Program.legible_of_mem_hops`: What a program writes is legible.
* `Graph.Walk.legible`, `Program.legible_of_reached`: So is what it reaches.
* `Instantiation.Legible.published`: So is what is published of it.
* `Expr.bracketed_eq_nil_iff`: Only no arguments are written as nothing.
* `Scope.readArgs_commaJoin`: Rendered arguments are read back.
* `Expr.eq_of_bracketed_eq`: Rendered arguments that agree are the same.
* `Expr.takeWhile_append_bracketed`: Where the name in a key ends.
* `Instantiation.eq_of_key_eq`: Without brackets in names, keys identify.
* `Program.keys_identify`: What shares a key has a bracket in a name.
* `Label.keys_program`: A program with such a name, and one without.
-/

namespace Monomorph

namespace Expr

/-- Every literal is one run of name characters, and every application is of a
    registered declaration whose name is one, to as many arguments as it takes, of
    which there is at least one. -/
inductive Legible (t : Table) : Expr → Prop
  | literal (name : String) (hname : Text.IsName name) : Legible t (.literal name)
  | param (name : String) : Legible t (.param name)
  | app (head : DeclId) (args : List Expr) (hhead : head < t.size)
      (hname : Text.IsName (t.name head)) (harity : args.length = (t.formals head).length)
      (hpos : args ≠ []) (hargs : ∀ a ∈ args, Legible t a) : Legible t (.app head args)

theorem Spellable.legible (t : Table) (formals : List String) (e : Expr)
    (h : e.Spellable t formals) : e.Legible t := by
  induction h with
  | literal name hname _ => exact .literal name hname
  | param name _ _ => exact .param name
  | app head args hhead hname harity hpos _ ih => exact .app head args hhead hname harity hpos ih

/-- Replacing parameters by what is legible leaves an expression legible. No
    argument is dropped, so applications keep theirs. -/
theorem Legible.apply (t : Table) (s : Subst)
    (hs : ∀ name value, s.get? name = some value → value.Legible t) (e : Expr)
    (h : e.Legible t) : (s.apply e).Legible t := by
  induction h with
  | literal name hname => exact .literal name hname
  | param name =>
      rw [Subst.apply_param]
      cases hget : s.get? name with
      | none => exact .param name
      | some value => exact hs name value hget
  | app head args hhead hname harity hpos _ ih =>
      rw [Subst.apply_app]
      refine .app head _ hhead hname (by rw [List.length_map, harity]) ?_ ?_
      · intro hnil
        exact hpos (List.map_eq_nil_iff.mp hnil)
      · intro a ha
        rcases List.mem_map.mp ha with ⟨arg, harg, rfl⟩
        exact ih arg harg

/-- What is legible and closed has no parameters, so it can be spelled where there
    are none. -/
theorem Legible.spellable (t : Table) (e : Expr) (h : e.Legible t)
    (hclosed : e.isClosed = true) : e.Spellable t [] := by
  induction h with
  | literal name hname => exact .literal name hname List.not_mem_nil
  | param name => exact absurd hclosed Bool.false_ne_true
  | app head args hhead hname harity hpos _ ih =>
      rw [isClosed, allClosed_iff] at hclosed
      exact .app head args hhead hname harity hpos fun a ha => ih a ha (hclosed a ha)

end Expr

/-- Arguments that were read are legible. -/
theorem parseArgs_legible (scope : Scope) (hunique : scope.table.UniquelyNamed)
    (target : String) (texts : List String) (expected : Nat) (args : List Expr)
    (h : parseArgs scope target texts expected = .ok args) :
    ∀ e ∈ args, e.Legible scope.table := by
  intro e he
  rcases (parseArgs_eq_ok scope target texts expected args h).2 e he with ⟨text, hread⟩
  exact (scope.render_of_parse hunique text e hread).2.1.legible

theorem formalRefs_legible (t : Table) (formals : List String) :
    ∀ e ∈ formalRefs formals, e.Legible t := by
  intro e he
  rcases List.mem_map.mp he with ⟨name, _, rfl⟩
  exact .param name

/-- Whatever a program writes as an argument, or passes on as one, is legible. -/
theorem Program.legible_of_mem_hops (p : Program) (maxNesting : Nat) (hop : Hop)
    (hmem : hop ∈ (p.scan maxNesting).graph.hops) :
    ∀ e ∈ hop.args, e.Legible (p.scan maxNesting).graph.table := by
  have hunique : (p.scan maxNesting).graph.table.UniquelyNamed :=
    Table.register_uniquelyNamed p.declarations
  -- An edge is found at a site or belongs to a member; other hops are inheritance.
  rcases List.mem_append.mp hmem with huse | hinherit
  · rcases List.mem_map.mp huse with ⟨edge, hedge, rfl⟩
    rcases (p.mem_edges_iff maxNesting edge).mp hedge with ⟨id, d, _, hfound⟩
    rcases (mem_declarationEdges_iff _ _ _ _ _).mp hfound with
      ⟨entry, _, hmember⟩ | ⟨site, _, hsite⟩
    · rcases memberEdge?_eq_some _ _ _ _ hmember with ⟨owner, ownerEntry, _, _, _, rfl⟩
      exact formalRefs_legible _ _
    · rcases (scanSite_eq_ok_iff _ _ _ _ _).mp hsite with
        ⟨callee, target, args, _, _, hargs, rfl⟩
      intro e he
      rcases List.mem_append.mp he with hpassed | hwritten
      · exact formalRefs_legible _ _ e hpassed
      · exact parseArgs_legible _ hunique _ _ _ _ hargs e hwritten
  · rcases List.mem_map.mp hinherit with ⟨edge, hedge, rfl⟩
    rcases (p.mem_hierarchy_iff maxNesting edge).mp hedge with ⟨i, _, hscan⟩
    rcases (scanInheritance_eq_ok_iff _ _ _ _).mp hscan with
      ⟨derived, base, args, _, _, hargs, rfl⟩
    exact parseArgs_legible _ hunique _ _ _ _ hargs

/-- The declaration is registered, and the arguments are legible. -/
structure Instantiation.Legible (t : Table) (i : Instantiation) : Prop where
  decl_lt : i.decl < t.size
  args : ∀ e ∈ i.args, e.Legible t

/-- What a walk ends at has legible arguments, by induction along the walk: a seed
    has those that were written, and a hop replaces parameters by what came
    before. -/
theorem Graph.Walk.legible (g : Graph)
    (hhops : ∀ hop ∈ g.hops, ∀ e ∈ hop.args, e.Legible g.table) (limit n : Nat)
    (i : Instantiation) (h : g.Walk limit n i) : ∀ e ∈ i.args, e.Legible g.table := by
  induction h with
  | seed i hseed _ =>
      rcases hseed with ⟨edge, hedge, _, _, hargs⟩
      rw [← hargs]
      exact hhops (.use edge) (List.mem_append_left _ (List.mem_map_of_mem hedge))
  | hop n i j _ hleads _ ih =>
      rcases hleads with ⟨hop, hmem, _, _, hargs⟩
      intro e he
      rw [← hargs, Subst.applyAll_eq_map] at he
      rcases List.mem_map.mp he with ⟨arg, harg, rfl⟩
      -- The binding has the arguments of what the hop starts from.
      refine (hhops hop hmem arg harg).apply _ _ ?_
      intro name value hget
      exact ih value (Subst.mem_of_get?_ofPairs _ _ name value hget)

theorem Program.legible_of_reached (p : Program) (settings : Settings) (i : Instantiation)
    (hi : i ∈ (p.analyze settings).resolution.reached.keys) :
    i.Legible (p.analyze settings).table := by
  rcases (Graph.mem_reached_iff _ settings i).mp hi with ⟨n, _, hwalk⟩
  have hwell := p.scan_wellFormed settings.maxTypeNesting
  have hhops := p.legible_of_mem_hops settings.maxTypeNesting
  exact ⟨(hwalk.fits _ _ _ n hwell i).1, hwalk.legible _ hhops _ n i⟩

/-- Publishing drops all arguments or none, so what is published is legible too. -/
theorem Instantiation.Legible.published (t : Table) (entry : Entry) (i : Instantiation)
    (h : i.Legible t) : (i.published entry).Legible t := by
  refine ⟨by rw [decl_published]; exact h.decl_lt, ?_⟩
  intro e he
  rw [args_published] at he
  by_cases hown : entry.ownParams = []
  · rw [if_pos hown] at he
    exact absurd he List.not_mem_nil
  · rw [if_neg hown] at he
    exact h.args e he

theorem Expr.bracketed_eq_nil_iff (pieces : List (List Char)) :
    bracketed pieces = [] ↔ pieces = [] := by
  cases pieces with
  | nil => exact iff_of_true rfl rfl
  | cons piece rest => exact iff_of_false (List.cons_ne_nil _ _) (List.cons_ne_nil _ _)

section Reading

variable (t : Table) (hunique : t.UniquelyNamed)

include hunique

/-- The parser reads rendered arguments back, up to the bracket that ends them. -/
theorem Scope.readArgs_commaJoin (levels fuel : Nat) (args : List Expr) (hpos : args ≠ [])
    (hall : ∀ e ∈ args, e.Spellable t []) (hnest : Expr.nestingAll args ≤ levels)
    (hfuel : args.length ≤ fuel) :
    ∃ rest, readArgs (readExpr ⟨[], t, levels⟩ levels) fuel
      (Expr.commaJoin (args.map (Expr.chars t.name)) ++ ['>']) = .ok (args, rest) := by
  rcases DerivesArgs.exists_of_written t [] args hpos
    (fun e he => (hall e he).exists_tokens t [] e) with ⟨tokens, hderives, hlex⟩
  -- A bracket ends the last argument.
  have hclosing : ∀ c ∈ ['>'].head?, Text.isNameChar c = false :=
    Text.isNameChar_of_head_cons '>' [] (by decide +kernel)
  have hlexed := hlex ['>'] [.closing] hclosing (.closing [] [] .nil)
  have hwithin := (Expr.nestingAll_le_iff args levels).mp hnest
  have hread : ∀ e ∈ args, ∀ tokens chars later, Derives t [] tokens e →
      Lexes chars (tokens ++ later) → later.head? ≠ some .opening →
      ∃ rest, readExpr ⟨[], t, levels⟩ levels chars = .ok (e, rest) ∧ Lexes rest later := by
    intro e he tokens chars later hd hl hb
    exact readExpr_complete ⟨[], t, levels⟩ hunique levels tokens later chars e hd (hwithin e he)
      hl hb
  rcases readArgs_complete t [] _ args hread fuel tokens [] _ hderives hlexed hfuel with
    ⟨rest, hok, _⟩
  exact ⟨rest, hok⟩

/-- Arguments with the same rendering are the same, since the parser returns
    both. -/
theorem Expr.eq_of_bracketed_eq (as bs : List Expr) (has : ∀ e ∈ as, e.Spellable t [])
    (hbs : ∀ e ∈ bs, e.Spellable t [])
    (h : bracketed (as.map (chars t.name)) = bracketed (bs.map (chars t.name))) : as = bs := by
  -- No arguments are written as nothing, and the parser is not asked then.
  have hnil : as = [] ↔ bs = [] := by
    have hpieces := congrArg (· = []) h
    simpa only [bracketed_eq_nil_iff, List.map_eq_nil_iff, eq_iff_iff] using hpieces
  by_cases hempty : as = []
  · rw [hempty, hnil.mp hempty]
  · have hempty' : bs ≠ [] := fun hb => hempty (hnil.mpr hb)
    -- Levels and fuel that are enough for both lists.
    rcases Scope.readArgs_commaJoin t hunique (nestingAll as + nestingAll bs)
      (as.length + bs.length) as hempty has (Nat.le_add_right _ _) (Nat.le_add_right _ _)
      with ⟨rest, hread⟩
    rcases Scope.readArgs_commaJoin t hunique (nestingAll as + nestingAll bs)
      (as.length + bs.length) bs hempty' hbs (Nat.le_add_left _ _) (Nat.le_add_left _ _)
      with ⟨rest', hread'⟩
    rw [bracketed_of_ne_nil _ (mt List.map_eq_nil_iff.mp hempty),
      bracketed_of_ne_nil _ (mt List.map_eq_nil_iff.mp hempty'), List.cons_append,
      List.cons_append, List.cons.injEq] at h
    rw [h.2, hread', Except.ok.injEq, Prod.mk.injEq] at hread
    exact hread.1.symm

end Reading

/-- The name in a key ends at the first bracket. -/
theorem Expr.takeWhile_append_bracketed (name : List Char) (pieces : List (List Char))
    (h : '<' ∉ name) : (name ++ bracketed pieces).takeWhile (· != '<') = name := by
  have hname : ∀ c ∈ name, (c != '<') = true := by
    intro c hc
    rw [bne_iff_ne]
    intro heq
    exact h (heq ▸ hc)
  rw [List.takeWhile_append_of_pos hname]
  cases pieces with
  | nil => exact List.append_nil name
  | cons piece rest =>
      rw [bracketed_of_ne_nil _ (List.cons_ne_nil _ _), List.cons_append,
        List.takeWhile_cons_of_neg (by decide), List.append_nil]

/-- Where neither name has a bracket in it, keys that agree are of the same
    instantiation. -/
theorem Instantiation.eq_of_key_eq (t : Table) (hunique : t.UniquelyNamed) (i j : Instantiation)
    (hi : i.Legible t) (hj : j.Legible t) (hiname : '<' ∉ (t.name i.decl).toList)
    (hjname : '<' ∉ (t.name j.decl).toList) (hkey : i.key t = j.key t) : i = j := by
  have hchars : (t.name i.decl).toList ++ Expr.bracketed (i.args.map (Expr.chars t.name)) =
      (t.name j.decl).toList ++ Expr.bracketed (j.args.map (Expr.chars t.name)) := by
    have htoList := congrArg String.toList hkey
    simpa [key, Expr.renderApplied, Expr.chars] using htoList
  have hname : (t.name i.decl).toList = (t.name j.decl).toList := by
    have htake := congrArg (List.takeWhile (· != '<')) hchars
    rwa [Expr.takeWhile_append_bracketed _ _ hiname,
      Expr.takeWhile_append_bracketed _ _ hjname] at htake
  -- No two declarations share a name, and both of these are found under it.
  have hdecl : i.decl = j.decl := by
    have hfound := (t.find?_eq_some_iff hunique _ i.decl).mpr ⟨hi.decl_lt, rfl⟩
    have hfound' := (t.find?_eq_some_iff hunique _ j.decl).mpr ⟨hj.decl_lt, rfl⟩
    rw [String.toList_inj.mp hname, hfound', Option.some.injEq] at hfound
    exact hfound.symm
  have hspellable : ∀ k : Instantiation, k.Legible t → ∀ e ∈ k.args, e.Spellable t [] := by
    intro k hk e he
    exact (hk.args e he).spellable t e ((Expr.allClosed_iff k.args).mp k.closed e he)
  rw [hname, List.append_cancel_left_eq] at hchars
  rw [ext_iff]
  exact ⟨hdecl, Expr.eq_of_bracketed_eq t hunique i.args j.args (hspellable i hi)
    (hspellable j hj) hchars⟩

/-- Two instantiations that were reached and share a key are of declarations one of
    which has an opening bracket in its name. Where there is no such declaration,
    the keys of the plan ascend strictly, so none of them occurs twice. -/
theorem Program.keys_identify (p : Program) (settings : Settings) :
    let a := p.analyze settings
    (∀ i ∈ a.resolution.reached.keys, ∀ j ∈ a.resolution.reached.keys, i ≠ j →
      i.key a.table = j.key a.table →
      '<' ∈ (a.table.name i.decl).toList ∨ '<' ∈ (a.table.name j.decl).toList) ∧
    ((∀ d ∈ p.declarations, '<' ∉ d.name.toList) →
      a.plan.keys.Pairwise (· < ·) ∧ a.plan.keys.Nodup) := by
  intro a
  have hunique : a.table.UniquelyNamed := Table.register_uniquelyNamed p.declarations
  refine ⟨?_, ?_⟩
  · intro i hi j hj hne hkey
    by_contra hnone
    rw [not_or] at hnone
    exact hne (i.eq_of_key_eq a.table hunique j (p.legible_of_reached settings i hi)
      (p.legible_of_reached settings j hj) hnone.1 hnone.2 hkey)
  · intro hnames
    -- What is listed is the published form of something reached, hence legible.
    have hlegible : ∀ e ∈ a.plan.entries, e.instantiation.Legible a.table := by
      intro e he
      rcases (p.mem_plan_iff settings e.instantiation).mp (List.mem_map_of_mem he) with
        ⟨j, hj, entry, _, _, hform⟩
      rw [hform]
      exact (p.legible_of_reached settings j hj).published _ entry
    -- Names in the table are those that were declared.
    have hplain : ∀ i : Instantiation, i.Legible a.table →
        '<' ∉ (a.table.name i.decl).toList := by
      intro i hi
      rcases Table.exists_name_register p.declarations i.decl hi.decl_lt with ⟨d, hd, hname⟩
      rw [show a.table.name i.decl = d.name from hname]
      exact hnames d hd
    have hascending : a.plan.keys.Pairwise (· < ·) := by
      rw [Plan.keys, List.pairwise_map]
      refine (Plan.entries_pairwise _ _).imp_of_mem ?_
      intro e f he hf horder
      rcases horder with hlt | ⟨heq, hlt⟩
      · exact hlt
      · -- Keys that agree would be of one instantiation, which does not precede itself.
        rw [Plan.eq_entry_of_mem _ _ e he, Plan.eq_entry_of_mem _ _ f hf] at heq
        have hsame : e.instantiation = f.instantiation :=
          e.instantiation.eq_of_key_eq a.table hunique f.instantiation (hlegible e he)
            (hlegible f hf) (hplain _ (hlegible e he)) (hplain _ (hlegible f hf)) heq
        have hself : f.instantiation.compare f.instantiation = .eq := Std.ReflCmp.compare_self
        rw [hsame, hself] at hlt
        exact absurd hlt (by simp only [reduceCtorEq, not_false_eq_true])
    refine ⟨hascending, hascending.imp ?_⟩
    intro x y hlt heq
    rw [heq] at hlt
    exact String.lt_irrefl y hlt

namespace Label

/-- A job with a parameter, and a second job under any name. -/
def program (name : String) : Program where
  declarations :=
    [{ name := "Job", kind := .type, typeParams := ["T"], requiresSpecialization := true },
     { name, kind := .type, requiresSpecialization := true },
     { name := "main", kind := .method,
       body := [⟨name, [], .schedule⟩, ⟨"Job", ["int"], .schedule⟩] }]

/-- If the second job is named like the first one applied to something, then both
    are reached and have one key. Under a plain name the keys ascend. -/
theorem keys_program :
    ((⟨0, [.literal "int"], rfl⟩ : Instantiation) ∈
        ((program "Job<int>").analyze {}).resolution.reached.keys ∧
      (⟨1, [], rfl⟩ : Instantiation) ∈
        ((program "Job<int>").analyze {}).resolution.reached.keys ∧
      (⟨0, [.literal "int"], rfl⟩ : Instantiation).key ((program "Job<int>").analyze {}).table =
        (⟨1, [], rfl⟩ : Instantiation).key ((program "Job<int>").analyze {}).table ∧
      ('<' ∈ (((program "Job<int>").analyze {}).table.name 0).toList ∨
        '<' ∈ (((program "Job<int>").analyze {}).table.name 1).toList)) ∧
    ((program "Errand").analyze {}).plan.keys = ["Errand", "Job<int>"] ∧
    ((program "Errand").analyze {}).plan.keys.Pairwise (· < ·) ∧
    ((program "Errand").analyze {}).plan.keys.Nodup := by
  have hjob : (⟨0, [.literal "int"], rfl⟩ : Instantiation) ∈
      ((program "Job<int>").analyze {}).resolution.reached.keys := by decide +kernel
  have hother : (⟨1, [], rfl⟩ : Instantiation) ∈
      ((program "Job<int>").analyze {}).resolution.reached.keys := by decide +kernel
  have hkey : (⟨0, [.literal "int"], rfl⟩ : Instantiation).key
        ((program "Job<int>").analyze {}).table =
      (⟨1, [], rfl⟩ : Instantiation).key ((program "Job<int>").analyze {}).table := by
    decide +kernel
  have hne : (⟨0, [.literal "int"], rfl⟩ : Instantiation) ≠ ⟨1, [], rfl⟩ := by
    intro heq
    exact absurd (congrArg Instantiation.decl heq) Nat.zero_ne_one
  refine ⟨⟨hjob, hother, hkey, ?_⟩, by decide +kernel, ?_⟩
  · exact ((program "Job<int>").keys_identify {}).1 _ hjob _ hother hne hkey
  · exact ((program "Errand").keys_identify {}).2 (by decide +kernel)

end Label

end Monomorph

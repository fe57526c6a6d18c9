import Mathlib.Logic.Equiv.Defs
import Monomorph.Graph.Scan
import Monomorph.Proofs.Enclosure
import Monomorph.Proofs.Grammar
import Monomorph.Proofs.Substitution
import Monomorph.Proofs.Walk

/-!
# Giving Declarations Other Numbers

What becomes of expressions, tables and edges when the declarations are numbered
in another way.

A declaration is named by text in a program and by a number everywhere else, and
the numbers are those of the order in which declarations were written. Nothing
that is done with a number looks at anything but the table, so a renumbering can
be carried through from the table to the edges: reading a text in the renumbered
table gives the renumbered expression, or the very same error, and scanning a
site or an inheritance relation gives the renumbered edge, or the very same
fault. The errors are the same because they name declarations by their text.

Renumbering is defined for any function on numbers, since that is all that most
laws need. That it can be undone matters only where something is looked up by
its number, and there it is asked for as a permutation.

## Main definitions

* `Expr.rename`, `Instantiation.rename`, `Edge.rename`, `HierarchyEdge.rename`:
  Renumbering, part by part.
* `Links.Renamed`: Two lists of links with a renumbering between them.
* `Table.Renamed`: Two tables with a renumbering between them.
* `Scope.Renamed`: Two scopes with a renumbering between them.

## Theorems

* `Expr.renameAll_eq_map`, `Expr.rename_literal`, `Expr.rename_param`, `Expr.rename_app`:
  Renumbering in each sort of expression.
* `Expr.rename_rename`, `Expr.rename_id`, `Expr.rename_symm_rename`,
  `Expr.rename_injective`: Renumbering twice, not at all, and back.
* `Expr.allClosed_congr`, `Expr.isClosed_rename`, `Expr.allClosed_map_rename`: What is
  closed stays closed.
* `Expr.nestingAll_congr`, `Expr.nesting_rename`: Nesting stays the same.
* `Expr.chars_rename`: An expression keeps its text.
* `Subst.apply_rename`, `Subst.applyAll_rename`: Renumbering goes through substitution.
* `Instantiation.ext_iff`: What an instantiation consists of.
* `Instantiation.rename_symm_rename`, `Instantiation.rename_rename_symm`,
  `Instantiation.rename_injective`, `Instantiation.nesting_rename`: The same laws for
  instantiations.
* `Links.Renamed.chain`, `Links.Renamed.leadsTo`: Following renumbered links.
* `Table.Renamed.name`, `Table.Renamed.formals`, `Table.Renamed.lt_size_iff`: What an
  entry says.
* `Table.Renamed.find?`: A name is found under its new number.
* `Table.Renamed.links`, `Table.Renamed.encloses`: What encloses what stays the same.
* `Scope.Renamed.leaf`, `Scope.Renamed.applied`: What is built from a name.
* `Scope.readArgs_rename`, `Scope.Renamed.readExpr`, `Scope.Renamed.parse`: Reading a text
  gives the renumbered expression.
* `Scope.Renamed.parseEach`, `Scope.Renamed.parseArgs`: So does reading several.
* `map_rename_formalRefs`, `Table.Renamed.capturedFormals`: Formals have no number.
* `Table.Renamed.scope`: The scope of a declaration.
* `Table.Renamed.scanSite`, `Table.Renamed.scanInheritance`, `Table.Renamed.memberEdge?`:
  Scanning gives the renumbered edge.
-/

namespace Monomorph

namespace Expr

mutual

/-- The expression with declarations numbered in another way. -/
def rename (σ : DeclId → DeclId) : Expr → Expr
  | literal name => literal name
  | param name => param name
  | app head args => app (σ head) (renameAll σ args)

/-- The expressions with declarations numbered in another way. -/
def renameAll (σ : DeclId → DeclId) : List Expr → List Expr
  | [] => []
  | a :: rest => rename σ a :: renameAll σ rest

end

/-- A list is renumbered by renumbering its members. -/
@[simp]
theorem renameAll_eq_map (σ : DeclId → DeclId) (args : List Expr) :
    renameAll σ args = args.map (rename σ) := by
  induction args with
  | nil => rfl
  | cons a rest ih => rw [renameAll, ih, List.map_cons]

@[simp]
theorem rename_literal (σ : DeclId → DeclId) (name : String) :
    (literal name).rename σ = literal name :=
  rfl

@[simp]
theorem rename_param (σ : DeclId → DeclId) (name : String) :
    (param name).rename σ = param name :=
  rfl

@[simp]
theorem rename_app (σ : DeclId → DeclId) (head : DeclId) (args : List Expr) :
    (app head args).rename σ = app (σ head) (args.map (rename σ)) := by
  rw [rename, renameAll_eq_map]

theorem rename_rename (σ τ : DeclId → DeclId) (e : Expr) :
    (e.rename σ).rename τ = e.rename (τ ∘ σ) := by
  induction e using Expr.induct with
  | literal name => rfl
  | param name => rfl
  | app head args ih => simpa using ih

@[simp]
theorem rename_id (e : Expr) : e.rename id = e := by
  induction e using Expr.induct with
  | literal name => rfl
  | param name => rfl
  | app head args ih => rw [rename_app, List.map_congr_left ih, List.map_id', id_eq]

/-- Where the numbering can be undone, so can the renumbering. -/
theorem rename_symm_rename (σ : Equiv.Perm DeclId) (e : Expr) :
    (e.rename σ).rename σ.symm = e := by
  rw [rename_rename, Equiv.symm_comp_self, rename_id]

theorem rename_injective (σ : Equiv.Perm DeclId) : Function.Injective (rename σ) :=
  Function.LeftInverse.injective (rename_symm_rename σ)

theorem allClosed_congr (f : Expr → Expr) (args : List Expr)
    (h : ∀ a ∈ args, (f a).isClosed = a.isClosed) :
    allClosed (args.map f) = allClosed args := by
  induction args with
  | nil => rfl
  | cons a rest ih =>
      rw [List.map_cons, allClosed, allClosed, h a List.mem_cons_self,
        ih fun x hx => h x (List.mem_cons_of_mem a hx)]

@[simp]
theorem isClosed_rename (σ : DeclId → DeclId) (e : Expr) :
    (e.rename σ).isClosed = e.isClosed := by
  induction e using Expr.induct with
  | literal name => rfl
  | param name => rfl
  | app head args ih => rw [rename_app, isClosed, isClosed, allClosed_congr _ args ih]

@[simp]
theorem allClosed_map_rename (σ : DeclId → DeclId) (args : List Expr) :
    allClosed (args.map (rename σ)) = allClosed args :=
  allClosed_congr _ args fun a _ => isClosed_rename σ a

theorem nestingAll_congr (f : Expr → Expr) (args : List Expr)
    (h : ∀ a ∈ args, (f a).nesting = a.nesting) :
    nestingAll (args.map f) = nestingAll args := by
  induction args with
  | nil => rfl
  | cons a rest ih =>
      rw [List.map_cons, nestingAll, nestingAll, h a List.mem_cons_self,
        ih fun x hx => h x (List.mem_cons_of_mem a hx)]

@[simp]
theorem nesting_rename (σ : DeclId → DeclId) (e : Expr) : (e.rename σ).nesting = e.nesting := by
  induction e using Expr.induct with
  | literal name => rfl
  | param name => rfl
  | app head args ih => rw [rename_app, nesting, nesting, nestingAll_congr _ args ih]

/-- An expression keeps its text if its declarations keep their names. -/
theorem chars_rename (σ : DeclId → DeclId) (name : DeclId → String) (e : Expr) :
    (e.rename σ).chars name = e.chars (name ∘ σ) := by
  induction e using Expr.induct with
  | literal text => rfl
  | param text => rfl
  | app head args ih =>
      -- The head has its new name, and the texts of the arguments are the same.
      have hargs : args.map (chars name ∘ rename σ) = args.map (chars (name ∘ σ)) :=
        List.map_congr_left ih
      rw [rename_app, chars, chars, charsAll_eq_map, charsAll_eq_map, List.map_map, hargs]
      rfl

end Expr

namespace Subst

/-- Renumbering goes through substitution. -/
theorem apply_rename (σ : DeclId → DeclId) (s s' : Subst) (e : Expr)
    (h : ∀ name, s'.get? name = (s.get? name).map (Expr.rename σ)) :
    s'.apply (e.rename σ) = (s.apply e).rename σ := by
  induction e using Expr.induct with
  | literal name => rfl
  | param name =>
      -- A parameter is replaced on both sides or on neither, and has no number itself.
      cases hname : s.get? name <;> simp [h, hname]
  | app head args ih => simpa using ih

theorem applyAll_rename (σ : DeclId → DeclId) (names : List String) (exprs args : List Expr) :
    (ofPairs names (exprs.map (Expr.rename σ))).applyAll (args.map (Expr.rename σ)) =
      ((ofPairs names exprs).applyAll args).map (Expr.rename σ) := by
  have hbinding : ∀ e, (ofPairs names (exprs.map (Expr.rename σ))).apply (e.rename σ) =
      ((ofPairs names exprs).apply e).rename σ := by
    intro e
    exact apply_rename σ _ _ e fun name => by simp
  simp [hbinding]

end Subst

namespace Instantiation

/-- The instantiation with declarations numbered in another way. -/
def rename (σ : DeclId → DeclId) (i : Instantiation) : Instantiation where
  decl := σ i.decl
  args := i.args.map (Expr.rename σ)
  closed := (Expr.allClosed_map_rename σ i.args).trans i.closed

theorem ext_iff (i j : Instantiation) : i = j ↔ i.decl = j.decl ∧ i.args = j.args := by
  cases i
  cases j
  rw [mk.injEq]

@[simp]
theorem rename_symm_rename (σ : Equiv.Perm DeclId) (i : Instantiation) :
    (i.rename σ).rename σ.symm = i := by
  rw [ext_iff]
  refine ⟨σ.symm_apply_apply i.decl, ?_⟩
  change (i.args.map (Expr.rename σ)).map (Expr.rename σ.symm) = i.args
  rw [List.map_map]
  exact (List.map_congr_left fun e _ => Expr.rename_symm_rename σ e).trans (List.map_id _)

@[simp]
theorem rename_rename_symm (σ : Equiv.Perm DeclId) (i : Instantiation) :
    (i.rename σ.symm).rename σ = i :=
  rename_symm_rename σ.symm i

theorem rename_injective (σ : Equiv.Perm DeclId) : Function.Injective (rename σ) :=
  Function.LeftInverse.injective (rename_symm_rename σ)

@[simp]
theorem nesting_rename (σ : DeclId → DeclId) (i : Instantiation) :
    (i.rename σ).nesting = i.nesting :=
  Expr.nestingAll_congr _ _ fun e _ => Expr.nesting_rename σ e

end Instantiation

/-- The edge with declarations numbered in another way. -/
def Edge.rename (σ : DeclId → DeclId) (edge : Edge) : Edge where
  caller := σ edge.caller
  callee := σ edge.callee
  args := edge.args.map (Expr.rename σ)
  kind := edge.kind

/-- The hierarchy edge with declarations numbered in another way. -/
def HierarchyEdge.rename (σ : DeclId → DeclId) (edge : HierarchyEdge) : HierarchyEdge where
  derived := σ edge.derived
  base := σ edge.base
  args := edge.args.map (Expr.rename σ)

/-- The entry with declarations numbered in another way. -/
def Entry.rename (σ : DeclId → DeclId) (entry : Entry) : Entry :=
  { entry with enclosing := entry.enclosing.map σ }

namespace Links

/-- The links of renumbered declarations are the renumbered links. -/
def Renamed (σ : DeclId → DeclId) (links links' : Links) : Prop :=
  ∀ id, links'.parent? (σ id) = (links.parent? id).map σ

variable {σ : Equiv.Perm DeclId} {links links' : Links}

theorem Renamed.chain (h : Renamed σ links links') (fuel : Nat) (id : DeclId) :
    links'.chain fuel (σ id) = (links.chain fuel id).map σ := by
  induction fuel generalizing id with
  | zero => rfl
  | succ fuel ih =>
      rw [Links.chain, Links.chain, h id, List.map_cons]
      cases links.parent? id with
      | none => rfl
      | some parent => simp only [Option.map_some, ih]

theorem Renamed.leadsTo (h : Renamed σ links links') (goal : DeclId) (fuel : Nat)
    (id : DeclId) : links'.leadsTo (σ goal) fuel (σ id) = links.leadsTo goal fuel id := by
  induction fuel generalizing id with
  | zero => rfl
  | succ fuel ih =>
      rw [Links.leadsTo, Links.leadsTo, h id]
      cases links.parent? id with
      | none => rfl
      | some parent =>
          -- No two declarations get the same number, so the goal is met when it was met before.
          have hgoal : (σ parent == σ goal) = (parent == goal) := by
            rw [Bool.eq_iff_iff, beq_iff_eq, beq_iff_eq, σ.injective.eq_iff]
          simp only [Option.map_some, ih, hgoal]

end Links

namespace Table

/-- The entries of renumbered declarations are the renumbered entries, and names
    tell declarations apart. -/
structure Renamed (σ : Equiv.Perm DeclId) (t t' : Table) : Prop where
  size : t'.size = t.size
  get? : ∀ id, t'.get? (σ id) = (t.get? id).map (Entry.rename σ)
  unique : t.UniquelyNamed
  unique' : t'.UniquelyNamed

namespace Renamed

variable {σ : Equiv.Perm DeclId} {t t' : Table}

theorem name (h : Renamed σ t t') (id : DeclId) : t'.name (σ id) = t.name id := by
  rw [Table.name, Table.name, h.get?]
  cases t.get? id <;> rfl

theorem formals (h : Renamed σ t t') (id : DeclId) : t'.formals (σ id) = t.formals id := by
  rw [Table.formals, Table.formals, h.get?]
  cases t.get? id <;> rfl

theorem lt_size_iff (h : Renamed σ t t') (id : DeclId) : σ id < t'.size ↔ id < t.size := by
  have hsome : ∀ (t : Table) id, id < t.size ↔ (t.get? id).isSome = true := by
    intro t id
    simp only [Table.get?, Table.size, isSome_getElem?]
  rw [hsome, hsome, h.get?, Option.isSome_map]

/-- A name is found under its new number. -/
theorem find? (h : Renamed σ t t') (name : String) : t'.find? name = (t.find? name).map σ := by
  -- Names tell declarations apart, so a name is found at a number exactly when it is the name
  -- there; that can be said of the new number and of the old one alike.
  ext id
  rcases σ.surjective id with ⟨old, rfl⟩
  have hmap : (t.find? name).map σ = some (σ old) ↔ t.find? name = some old :=
    (Option.map_injective σ.injective).eq_iff (b := some old)
  rw [hmap, find?_eq_some_iff t' h.unique', find?_eq_some_iff t h.unique, h.lt_size_iff, h.name]

theorem links (h : Renamed σ t t') : Links.Renamed σ t.links t'.links := by
  intro id
  have hparent : ∀ (t : Table) id, t.links.parent? id = (t.get? id).bind Entry.enclosing := by
    intro t id
    rw [Links.parent?, Table.links, List.getElem?_map, Table.get?]
    cases t.entries[id]? <;> rfl
  rw [hparent, hparent, h.get?]
  cases t.get? id <;> rfl

theorem encloses (h : Renamed σ t t') (outer inner : DeclId) :
    t'.encloses (σ outer) (σ inner) = t.encloses outer inner := by
  rw [Table.encloses, Table.encloses, Table.chain, Table.chain, h.size, h.links.chain,
    Bool.eq_iff_iff, List.contains_iff_mem, List.contains_iff_mem,
    List.mem_map_of_injective σ.injective]

end Renamed

end Table

/-- The same place of a program, with declarations numbered in another way. -/
structure Scope.Renamed (σ : Equiv.Perm DeclId) (scope scope' : Scope) : Prop where
  formals : scope'.formals = scope.formals
  maxNesting : scope'.maxNesting = scope.maxNesting
  table : Table.Renamed σ scope.table scope'.table

namespace Scope

variable {σ : Equiv.Perm DeclId} {scope scope' : Scope}

theorem Renamed.leaf (h : Renamed σ scope scope') (name : String) :
    scope'.leaf name = (scope.leaf name).rename σ := by
  rw [Scope.leaf, Scope.leaf, h.formals]
  by_cases hname : scope.formals.contains name = true
  · rw [if_pos hname]
    rfl
  · rw [if_neg hname]
    rfl

theorem Renamed.applied (h : Renamed σ scope scope') (name : String) (args : List Expr) :
    scope'.applied name (args.map (Expr.rename σ)) =
      (scope.applied name args).map (Expr.rename σ) := by
  unfold Scope.applied
  rw [h.table.find?]
  cases scope.table.find? name with
  | none => rfl
  | some head =>
      -- The declaration has another number but as many formals, so both apply it or neither does.
      simp only [Option.map_some, h.table.formals, List.length_map]
      by_cases hlen : (scope.table.formals head).length = args.length
      · rw [if_pos hlen, if_pos hlen, Except.map, Expr.rename_app]
      · rw [if_neg hlen, if_neg hlen, Except.map]

theorem readArgs_rename (item item' : List Char → Except Stop (Expr × List Char))
    (hitem : ∀ chars, item' chars = (item chars).map fun read => (read.1.rename σ, read.2))
    (fuel : Nat) (chars : List Char) :
    readArgs item' fuel chars =
      (readArgs item fuel chars).map fun read => (read.1.map (Expr.rename σ), read.2) := by
  induction fuel generalizing chars with
  | zero => rfl
  | succ fuel ih =>
      rw [readArgs, readArgs, hitem]
      cases item chars with
      | error stop => rfl
      | ok read =>
          simp only [Except.map, bind, Except.bind]
          -- What follows an argument is the same text, so both go on or both end.
          split
          · rw [ih]
            cases readArgs item fuel _ <;> rfl
          · rfl
          · rfl

/-- Reading gives the renumbered expression and leaves the same characters, or it
    stops at the same place for the same reason. -/
theorem Renamed.readExpr (h : Renamed σ scope scope') (levels : Nat) (chars : List Char) :
    scope'.readExpr levels chars =
      (scope.readExpr levels chars).map fun read => (read.1.rename σ, read.2) := by
  induction levels generalizing chars with
  | zero => rfl
  | succ levels ih =>
      rw [Scope.readExpr, Scope.readExpr]
      -- The name at the start does not depend on the table.
      cases readName chars with
      | error stop => rfl
      | ok read =>
          simp only [Except.map, bind, Except.bind]
          split
          · rw [readArgs_rename (scope.readExpr levels) (scope'.readExpr levels) ih]
            cases readArgs (scope.readExpr levels) _ _ with
            | error stop => rfl
            | ok args =>
                simp only [Except.map, h.applied]
                cases scope.applied read.1 args.1 <;> rfl
          · rw [h.leaf]

theorem Renamed.parse (h : Renamed σ scope scope') (text : String) :
    scope'.parse text = (scope.parse text).map (Expr.rename σ) := by
  unfold Scope.parse
  by_cases hblank : Text.isBlankText text = true
  · rw [if_pos hblank, if_pos hblank]
    rfl
  · rw [if_neg hblank, if_neg hblank, Scope.readWhole, Scope.readWhole, h.maxNesting, h.readExpr]
    cases scope.readExpr scope.maxNesting text.toList with
    | error stop => rfl
    | ok read =>
        simp only [Except.map, bind, Except.bind]
        cases Text.skipBlanks read.2 <;> rfl

theorem Renamed.parseEach (h : Renamed σ scope scope') (target : String)
    (texts : List String) :
    parseEach scope' target texts =
      (parseEach scope target texts).map (List.map (Expr.rename σ)) := by
  induction texts with
  | nil => rfl
  | cons text rest ih =>
      rw [Monomorph.parseEach, Monomorph.parseEach, h.parse, ih]
      cases scope.parse text with
      | error cause => rfl
      | ok arg => cases Monomorph.parseEach scope target rest <;> rfl

theorem Renamed.parseArgs (h : Renamed σ scope scope') (target : String) (texts : List String)
    (expected : Nat) :
    parseArgs scope' target texts expected =
      (parseArgs scope target texts expected).map (List.map (Expr.rename σ)) := by
  unfold Monomorph.parseArgs
  by_cases hlen : texts.length = expected
  · rw [if_pos hlen, if_pos hlen, h.parseEach]
  · rw [if_neg hlen, if_neg hlen]
    rfl

end Scope

/-- Formals are written by name, so they have no number to change. -/
@[simp]
theorem map_rename_formalRefs (σ : DeclId → DeclId) (formals : List String) :
    (formalRefs formals).map (Expr.rename σ) = formalRefs formals := by
  rw [formalRefs, List.map_map]
  rfl

namespace Table

namespace Renamed

variable {σ : Equiv.Perm DeclId} {t t' : Table}

theorem scope (h : Renamed σ t t') (maxNesting : Nat) (id : DeclId) :
    Scope.Renamed σ (({ formals := t.formals id, table := t } : Scope).withMaxNesting maxNesting)
      (({ formals := t'.formals (σ id), table := t' } : Scope).withMaxNesting maxNesting) :=
  ⟨h.formals id, rfl, h⟩

theorem capturedFormals (h : Renamed σ t t') (caller : DeclId) (target : Entry) (written : Nat) :
    capturedFormals t' (σ caller) (target.rename σ) written =
      capturedFormals t caller target written := by
  unfold Monomorph.capturedFormals Entry.rename
  cases target.enclosing with
  | none => rfl
  | some outer => simp only [Option.map_some, h.encloses]

theorem scanSite (h : Renamed σ t t') (maxNesting : Nat) (caller : DeclId) (site : Site) :
    scanSite t' maxNesting (σ caller) site =
      (scanSite t maxNesting caller site).map (Edge.rename σ) := by
  unfold Monomorph.scanSite
  rw [h.find?]
  cases t.find? site.target with
  | none => rfl
  | some callee =>
      -- What a site may leave out are formals, and these are names.
      have hcaptured : ((t'.get? (σ callee)).elim [] fun target =>
            Monomorph.capturedFormals t' (σ caller) target site.typeArgs.length) =
          (t.get? callee).elim [] fun target =>
            Monomorph.capturedFormals t caller target site.typeArgs.length := by
        rw [h.get?]
        cases t.get? callee with
        | none => rfl
        | some target => exact h.capturedFormals caller target site.typeArgs.length
      simp only [Option.map_some]
      rw [hcaptured, (h.scope maxNesting caller).parseArgs, h.formals callee]
      cases parseArgs _ site.target site.typeArgs _ with
      | error fault => rfl
      | ok args =>
          simp only [Except.map, Edge.rename, List.map_append, map_rename_formalRefs]

theorem scanInheritance (h : Renamed σ t t') (maxNesting : Nat) (i : Inheritance) :
    scanInheritance t' maxNesting i =
      (scanInheritance t maxNesting i).map (HierarchyEdge.rename σ) := by
  unfold Monomorph.scanInheritance
  rw [h.find?, h.find?]
  cases t.find? i.derived with
  | none => rfl
  | some derived =>
      cases t.find? i.base with
      | none => rfl
      | some base =>
          -- Arguments are read in the words of the derived type, for the formals of the base.
          simp only [Option.map_some]
          rw [(h.scope maxNesting derived).parseArgs, h.formals base]
          cases parseArgs _ i.base i.typeArgs _ <;> rfl

theorem memberEdge? (h : Renamed σ t t') (id : DeclId) (entry : Entry) :
    memberEdge? t' (σ id) (entry.rename σ) = (memberEdge? t id entry).map (Edge.rename σ) := by
  unfold Monomorph.memberEdge?
  simp only [Entry.rename]
  by_cases hmember : (entry.kind.isMember && entry.ownParams.isEmpty) = true
  · simp only [hmember, if_true]
    -- A member belongs to a type: that it has an owner and that this is a type are both kept.
    cases entry.enclosing with
    | none => rfl
    | some owner =>
        simp only [Option.map_some, h.get?]
        cases t.get? owner with
        | none => rfl
        | some ownerEntry =>
            simp only [Option.map_some, Entry.rename]
            by_cases htype : ownerEntry.kind = .type
            · simp only [htype, if_true, Option.map_some, Edge.rename, map_rename_formalRefs]
            · simp only [htype, if_false, Option.map_none]
  · simp only [hmember, if_false, Option.map_none, Bool.false_eq_true]

end Renamed

end Table

end Monomorph

import Monomorph.Proofs.Edges

/-!
# Propagation Along a Path

Following hops one at a time and substituting once come to the same.

At each hop the arguments of an instantiation are bound to the formals of its
declaration, and the arguments of the hop are taken under that binding. A hop
itself is a substitution too: it gives the formals of its target expressions in
the formals of its source. The substitutions of all hops but the last, composed
from the latest to the earliest and ended by the binding at the start, take the
arguments of the last hop straight to the result.

The step is that a binding made from substituted arguments is a composition
(`Subst.apply_ofPairs_map`). It holds for expressions in scope only. A name that
is no formal would be looked up by the substitution a second time, in the
vocabulary of another declaration, where it may well mean something. That scanned
graphs have nothing out of scope is therefore not a convenience here.

The induction is on the path from its end, because the statement is about the
arguments of its last hop and the hop before makes the binding for it.

## Main definitions

* `Graph.IsPath`: Each hop leaves the target of the one before.
* `Graph.follow`: Taking the hops one after the other.
* `Graph.passed`: A hop as a substitution.
* `Graph.composed`: The substitutions of a path in one.

## Theorems

* `Subst.apply_ofPairs_map`: Binding substituted arguments composes.
* `Graph.isPath_concat_iff`: A path with one more hop at its end.
* `Graph.apply_composed`, `Graph.apply_composed_concat`: The composition is done by doing
  its parts in turn.
* `Graph.follow_concat`: Following one more hop.
* `Graph.apply_binding_eq_composed`: A binding is one more part of it.
* `Graph.follow_path`: Following a path of a well-formed graph.
* `Program.follow_eq_composed`: All hops by the composition.
* `Lineage.follow_program`: A path with every sort of hop.
-/

namespace Monomorph

/-- Binding formals to arguments that a substitution was applied to is binding
    them to the arguments and then substituting. A name that occurs twice among
    the formals has the later argument on both sides. -/
theorem Subst.apply_ofPairs_map (t : Table) (formals : List String) (args : List Expr)
    (s : Subst) (e : Expr) (hlength : formals.length ≤ args.length)
    (h : e.InScope t formals) :
    (ofPairs formals (s.applyAll args)).apply e = s.apply ((ofPairs formals args).apply e) := by
  rw [← apply_andThen]
  refine h.apply_congr t formals _ _ e fun name hname => ?_
  -- Every formal has an argument, so the substitution never speaks for a formal itself.
  rcases exists_get?_ofPairs formals args name hlength hname with ⟨value, hvalue⟩
  simp [hvalue]

namespace Graph

/-- The first hop leaves the given declaration, and each other one the target of
    the hop before it. -/
def IsPath (g : Graph) : DeclId → List Hop → Prop
  | _, [] => True
  | id, hop :: rest => hop ∈ g.hops ∧ hop.source = id ∧ IsPath g hop.target rest

/-- Where a path ends that starts at the given declaration. -/
def pathEnd : DeclId → List Hop → DeclId :=
  List.foldl fun _ hop => hop.target

theorem isPath_concat_iff (g : Graph) (id : DeclId) (front : List Hop) (last : Hop) :
    g.IsPath id (front ++ [last]) ↔
      g.IsPath id front ∧ last ∈ g.hops ∧ last.source = pathEnd id front := by
  induction front generalizing id with
  | nil => simp only [List.nil_append, IsPath, pathEnd, List.foldl_nil, and_true, true_and]
  | cons hop rest ih =>
      simp only [List.cons_append, IsPath, ih, pathEnd, List.foldl_cons, and_assoc]

/-- Takes the hops one after the other, each under the binding of what the one
    before led to. -/
def follow (g : Graph) (i : Instantiation) (path : List Hop) : Option Instantiation :=
  path.foldlM g.along i

/-- A hop as a substitution: the formals of its target by its arguments. -/
def passed (g : Graph) (hop : Hop) : Subst :=
  Subst.ofPairs (g.table.formals hop.target) hop.args

/-- The substitutions of the hops composed from the latest to the earliest, and
    then the binding of the instantiation at the start. -/
def composed (g : Graph) (i : Instantiation) (path : List Hop) : Subst :=
  match (path.map g.passed).reverse with
  | [] => g.binding i
  | latest :: earlier => latest.andThenAll (earlier ++ [g.binding i])

/-- Composing is the same as substituting in turn, whichever way the composition
    is bracketed. -/
theorem apply_composed (g : Graph) (i : Instantiation) (path : List Hop) (e : Expr) :
    (g.composed i path).apply e =
      (g.binding i).apply ((path.map g.passed).reverse.foldl (fun e s => s.apply e) e) := by
  unfold composed
  cases (path.map g.passed).reverse with
  | nil => rfl
  | cons latest earlier =>
      simp only [Subst.apply_andThenAll, List.foldl_append, List.foldl_cons, List.foldl_nil]

theorem apply_composed_concat (g : Graph) (i : Instantiation) (front : List Hop) (hop : Hop)
    (e : Expr) :
    (g.composed i (front ++ [hop])).apply e =
      (g.composed i front).apply ((g.passed hop).apply e) := by
  rw [apply_composed, apply_composed, List.map_append, List.reverse_append, List.foldl_append]
  rfl

theorem follow_concat (g : Graph) (i : Instantiation) (front : List Hop) (last : Hop) :
    g.follow i (front ++ [last]) = (g.follow i front).bind fun k => g.along k last := by
  unfold follow
  rw [List.foldlM_append]
  cases List.foldlM g.along i front with
  | none => rfl
  | some k => simp only [Option.bind_eq_bind, Option.bind_some, List.foldlM_cons,
      List.foldlM_nil, Option.pure_def, Option.bind_fun_some]

/-- The binding of what a hop led to, applied to what is in scope of its target,
    is one more substitution in the composition. -/
theorem apply_binding_eq_composed (g : Graph) (limit : Nat) (hwell : g.WellFormed limit)
    (i k : Instantiation) (front : List Hop) (hop : Hop) (hmem : hop ∈ g.hops)
    (hdecl : k.decl = hop.target) (hargs : k.args = (g.composed i front).applyAll hop.args)
    (e : Expr) (hscope : e.InScope g.table (g.table.formals hop.target)) :
    (g.binding k).apply e = (g.composed i (front ++ [hop])).apply e := by
  have harity := (hwell hop hmem).arity
  unfold binding
  rw [hdecl, hargs, Subst.apply_ofPairs_map g.table _ hop.args (g.composed i front) e
    (Nat.le_of_eq harity.symm) hscope, apply_composed_concat]
  rfl

/-- Following a path gives the arguments of its last hop under the composition of
    the others. -/
theorem follow_path (g : Graph) (limit : Nat) (hwell : g.WellFormed limit) (i : Instantiation)
    (hfits : g.Fits i) (front : List Hop) (last : Hop)
    (hpath : g.IsPath i.decl (front ++ [last])) :
    ∃ j, g.follow i (front ++ [last]) = some j ∧ j.decl = last.target ∧
      j.args = (g.composed i front).applyAll last.args := by
  induction front using List.reverseRecOn generalizing last with
  | nil =>
      -- A single hop is taken under the binding at the start.
      rcases hpath with ⟨hmem, hsource, _⟩
      rcases exists_along g limit hwell i hfits last hmem hsource with ⟨j, hj⟩
      rcases (along_eq_some_iff g i j last).mp hj with ⟨htarget, hargs⟩
      refine ⟨j, ?_, htarget.symm, hargs.symm⟩
      rw [follow_concat]
      exact hj
  | append_singleton front hop ih =>
      -- The path without its last hop leads to the instantiation that makes the binding.
      rcases (isPath_concat_iff g i.decl (front ++ [hop]) last).mp hpath with
        ⟨hfront, hmem, hsource⟩
      rcases ih hop hfront with ⟨k, hk, hdecl, hkargs⟩
      have hhop : hop ∈ g.hops := ((isPath_concat_iff g i.decl front hop).mp hfront).2.1
      have hend : last.source = hop.target := by
        rw [hsource, pathEnd, List.foldl_append]
        rfl
      have hkfits : g.Fits k := by
        unfold Fits
        simpa [hkargs, hdecl] using (hwell hop hhop).arity
      -- As many arguments as formals, so the last hop can be taken too.
      rcases exists_along g limit hwell k hkfits last hmem (by rw [hend, hdecl]) with ⟨j, hj⟩
      rcases (along_eq_some_iff g k j last).mp hj with ⟨htarget, hargs⟩
      refine ⟨j, by rw [follow_concat, hk]; exact hj, htarget.symm, ?_⟩
      -- Each argument of the last hop is in the words of the target before it.
      rw [← hargs, Subst.applyAll_eq_map, Subst.applyAll_eq_map]
      refine List.map_congr_left fun e he => ?_
      have hscope := (hwell last hmem).inScope e he
      rw [hend] at hscope
      exact apply_binding_eq_composed g limit hwell i k front hop hhop hdecl hkargs e hscope

end Graph

/-- Hop by hop or all at once: following a path of a scanned graph never gets
    stuck, and leads to the last target with the arguments of the last hop under
    one composed substitution, which leaves none of them open. -/
theorem Program.follow_eq_composed (p : Program) (maxNesting : Nat) (i : Instantiation)
    (front : List Hop) (last : Hop) (hfits : (p.scan maxNesting).graph.Fits i)
    (hpath : (p.scan maxNesting).graph.IsPath i.decl (front ++ [last])) :
    ∃ j, (p.scan maxNesting).graph.follow i (front ++ [last]) = some j ∧
      j.decl = last.target ∧
      j.args = ((p.scan maxNesting).graph.composed i front).applyAll last.args ∧
      Expr.allClosed (((p.scan maxNesting).graph.composed i front).applyAll last.args) = true := by
  rcases Graph.follow_path _ maxNesting (p.scan_wellFormed maxNesting) i hfits front last hpath
    with ⟨j, hfollow, hdecl, hargs⟩
  refine ⟨j, hfollow, hdecl, hargs, ?_⟩
  rw [← hargs]
  exact j.closed

namespace Lineage

/-- An entry is a pair, the parameters changing places and one of them boxed. A
    pair has a method, and the method makes a box of an entry. -/
def program : Program where
  declarations :=
    [{ name := "Entry", kind := .type, typeParams := ["K", "V"] },
     { name := "Pair", kind := .type, typeParams := ["V", "K"] },
     { name := "Pair.wrap", kind := .method, enclosing := some "Pair",
       body := [⟨"Box", ["Entry<V,Box<K>>"], .construct⟩] },
     { name := "Box", kind := .type, typeParams := ["T"] }]
  hierarchy := [⟨"Entry", "Pair", ["Box<V>", "K"]⟩]

def start : Instantiation :=
  ⟨0, [.literal "int", .literal "str"], rfl⟩

/-- What an entry inherits from, and the member of that. -/
def front : List Hop :=
  [.inherit ⟨0, 1, [.app 3 [.param "V"], .param "K"]⟩,
   .use ⟨1, 2, [.param "V", .param "K"], .member⟩]

def last : Hop :=
  .use ⟨2, 3, [.app 0 [.param "V", .app 3 [.param "K"]]], .site .construct⟩

/-- All three sorts of hops on one path. Both names stand for something else at
    each declaration, and the result is a box of an entry of two boxes. -/
theorem follow_program :
    (program.scan 8).graph.Fits start ∧
    (program.scan 8).graph.IsPath start.decl (front ++ [last]) ∧
    ∃ j, (program.scan 8).graph.follow start (front ++ [last]) = some j ∧ j.decl = 3 ∧
      j.args = [.app 0 [.app 3 [.literal "str"], .app 3 [.literal "int"]]] := by
  have hfits : (program.scan 8).graph.Fits start := by
    unfold Graph.Fits
    decide +kernel
  have hpath : (program.scan 8).graph.IsPath start.decl (front ++ [last]) :=
    ⟨by decide +kernel, rfl, by decide +kernel, rfl, by decide +kernel, rfl, trivial⟩
  refine ⟨hfits, hpath, ?_⟩
  rcases program.follow_eq_composed 8 start front last hfits hpath with
    ⟨j, hfollow, hdecl, hargs, _⟩
  refine ⟨j, hfollow, hdecl, ?_⟩
  rw [hargs]
  decide +kernel

end Lineage

end Monomorph

import Monomorph.Graph.Basic

/-!
# Listing a Graph

A graph as text, one declaration after the other with its edges below it. A
declaration whose instances are to be specialised is marked with a star, and a
listing may be restricted to those.

## Main definitions

* `Graph.lines`: The lines of the listing.
* `unlines`: Lines as a text.
-/

namespace Monomorph

/-- Lines as a text in which each of them is ended. -/
def unlines (lines : List String) : String :=
  String.join (lines.map (· ++ "\n"))

/-- A name with parameters or arguments between angle brackets, if there are
    any. -/
def withBrackets (name : String) (items : List String) : String :=
  name ++ String.ofList (Expr.bracketed (items.map String.toList))

namespace Graph

/-- The lines of one declaration. -/
def entryLines (g : Graph) (id : DeclId) (entry : Entry) : List String :=
  let star := if entry.requiresSpecialization then " *" else ""
  let use (target : DeclId) (args : List Expr) : String :=
    withBrackets (g.table.name target) (args.map (Expr.render g.table.name))
  (withBrackets entry.name entry.formals ++ star) ::
    ((g.edgesFrom id).map fun edge =>
      "  -> " ++ use edge.callee edge.args ++ " [" ++ edge.kind.word ++ "]") ++
    ((g.basesOf id).map fun edge => "  : " ++ use edge.base edge.args)

/-- The lines of the listing, of all declarations or only of those whose
    instances are to be specialised. -/
def lines (g : Graph) (jobsOnly : Bool) : List String :=
  (g.table.numbered.filter fun pair => !jobsOnly || pair.2.requiresSpecialization).flatMap
    fun pair => g.entryLines pair.1 pair.2

end Graph

end Monomorph

import Monomorph.Diagnostic
import Monomorph.Table.Basic

/-!
# Registering Declarations

From the declarations as they were written to the table. Of declarations with
the same name the first is registered and the others are ignored. A link to an
enclosing declaration is dropped when it names the declaration itself or
nothing that is registered, and a cycle of links is cut at the first of its
members. Each of these is reported, and afterwards the links form a forest, so
the formals of every declaration can be collected along its chain.

## Main definitions

* `registered`, `repeated`: The declarations that get a number and those that
  do not.
* `EnclosureFault`: Why a link is dropped.
* `link`: The link of one declaration as it was written.
* `Links.walkBack`: The walk that looks whether links from a declaration lead back
  to it.
* `Links.repair`: The links with every cycle cut.
* `Table.register`: The table and what was reported.

## Theorems

* `Table.size_register`: Each registered declaration has an entry.
-/

namespace Monomorph

/-- The declarations whose name does not occur earlier, nor among `seen`. -/
def registeredFrom (seen : List String) : List Declaration → List Declaration
  | [] => []
  | d :: rest =>
    if seen.contains d.name then registeredFrom seen rest
    else d :: registeredFrom (d.name :: seen) rest

/-- The declarations whose name occurs earlier, or among `seen`. -/
def repeatedFrom (seen : List String) : List Declaration → List Declaration
  | [] => []
  | d :: rest =>
    if seen.contains d.name then d :: repeatedFrom seen rest
    else repeatedFrom (d.name :: seen) rest

/-- The declarations that are registered: the first of each name. -/
def registered (ds : List Declaration) : List Declaration :=
  registeredFrom [] ds

/-- The declarations that are ignored: all but the first of each name. -/
def repeated (ds : List Declaration) : List Declaration :=
  repeatedFrom [] ds

/-- Why the link of a declaration to an enclosing one is dropped. -/
inductive EnclosureFault where
  | itself
  | unknown (enclosing : String)
  | cycle
deriving DecidableEq, Repr

/-- The wording of a dropped link. -/
def EnclosureFault.reason : EnclosureFault → String
  | itself => "encloses itself"
  | unknown enclosing => s!"names unknown enclosing declaration `{enclosing}`"
  | cycle => "is part of an enclosure cycle"

/-- The diagnostic for a dropped link. -/
def EnclosureFault.diagnostic (name : String) (fault : EnclosureFault) : Diagnostic :=
  .about .invalidEnclosure name s!"`{name}` {fault.reason}; treating it as top-level"

/-- The diagnostic for an ignored declaration. -/
def repeatedDiagnostic (d : Declaration) : Diagnostic :=
  .about .duplicateDeclaration d.name
    s!"`{d.name}` is declared more than once; later declarations are ignored"

/-- The link of the declaration with number `id` as it was written, or why it
    is dropped. -/
def link (names : List String) (id : DeclId) (d : Declaration) :
    Except EnclosureFault (Option DeclId) :=
  match d.enclosing with
  | none => .ok none
  | some enclosing =>
    match names.findIdx? (· == enclosing) with
    | none => .error (.unknown enclosing)
    | some parent => if parent = id then .error .itself else .ok (some parent)

namespace Links

/-- Whether the walk outwards from `id` comes back to it. The walk has met `seen` and
    `next` is up to be met. It ends where there is nothing further out, where it comes
    back, and where it meets something else for the second time: then it has run into
    a cycle of others. It is `none` if the walk has not ended after so many turns. -/
def walkBack (links : Links) (id : DeclId) :
    (turns : Nat) → (seen : List DeclId) → (next : Option DeclId) → Option Bool
  | _, _, none => some false
  | 0, _, some _ => none
  | turns + 1, seen, some parent =>
    if parent = id then some true
    else if seen.contains parent then some false
    else walkBack links id turns (seen ++ [parent]) (links.parent? parent)

/-- The links after looking at one declaration, which loses its link if the walk from
    it comes back, and the declarations that lost theirs so far. There are as many
    turns as declarations. -/
def cut (state : Links × List DeclId) (id : DeclId) : Links × List DeclId :=
  if state.1.walkBack id state.1.length [id] (state.1.parent? id) = some true then
    (state.1.set id none, state.2 ++ [id])
  else state

/-- The links with every cycle cut, and the declarations that lost their link,
    in ascending order. -/
def repair (links : Links) : Links × List DeclId :=
  (List.range links.length).foldl cut (links, [])

end Links

namespace Table

/-- The entry of a declaration, with the links of all declarations known. -/
def entryOf (ds : List Declaration) (links : Links) (id : DeclId) (d : Declaration) : Entry where
  name := d.name
  kind := d.kind
  ownParams := d.typeParams
  formals := (links.chain ds.length id).reverse.flatMap fun outer =>
    (ds[outer]?).elim [] Declaration.typeParams
  enclosing := links.parent? id
  requiresSpecialization := d.requiresSpecialization

/-- The table of the declarations, and what there is to report about them: the
    ignored ones, the links that were dropped as written, and the cycles that
    were cut. -/
def register (declarations : List Declaration) : Table × List Diagnostic :=
  let ds := registered declarations
  let names := ds.map Declaration.name
  let written := ds.zipIdx.map fun pair => (pair.1, link names pair.2 pair.1)
  let dropped := written.filterMap fun pair =>
    match pair.2 with
    | .ok _ => none
    | .error fault => some (fault.diagnostic pair.1.name)
  let (links, cuts) := Links.repair (written.map fun pair => (pair.2.toOption).join)
  let cycles := cuts.map fun id =>
    EnclosureFault.cycle.diagnostic ((names[id]?).getD "")
  ({ entries := ds.zipIdx.map fun pair => entryOf ds links pair.2 pair.1 },
    (repeated declarations).map repeatedDiagnostic ++ dropped ++ cycles)

@[simp]
theorem size_register (declarations : List Declaration) :
    (register declarations).1.size = (registered declarations).length := by
  simp only [size, register, List.length_map, List.length_zipIdx]

end Table

end Monomorph

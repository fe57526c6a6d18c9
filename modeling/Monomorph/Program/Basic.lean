import Monomorph.Text.Blank
import Monomorph.Text.Quoted

/-!
# Programs as Facts

What a front end knows about a program before any analysis: its declarations,
each with its own type parameters and the places in its body where a generic
declaration is used, and its inheritance relations. Type arguments are still
text here, and names have not been looked up, so nothing says yet that a name
is declared, is declared once, or is nested in something that exists.

The one thing that is checked at this level is that names are not blank, for a
blank name could not be pointed at in any message.

## Main definitions

* `Kind`, `SiteKind`: What is declared, and how a place uses it.
* `Site`, `Declaration`, `Inheritance`, `Program`: The facts.
* `Declaration.named`, `Declaration.withSite` and their siblings: Building facts step by step.
* `Program.checkShape`: Every name has a character that is not blank.
-/

namespace Monomorph

/-- What a declaration declares. -/
inductive Kind where
  | type
  | method
  | constructor
  | accessor
deriving DecidableEq, Repr

namespace Kind

/-- Whether declarations of the kind belong to a type. -/
def isMember : Kind → Bool
  | type => false
  | method => true
  | constructor => true
  | accessor => true

/-- The word for the kind. -/
def word : Kind → String
  | type => "type"
  | method => "method"
  | constructor => "constructor"
  | accessor => "accessor"

/-- The kinds with their words. -/
def choices : List (String × Kind) :=
  [type, method, constructor, accessor].map fun kind => (kind.word, kind)

end Kind

/-- How a place in a body uses the declaration it names. -/
inductive SiteKind where
  | call
  | construct
  | schedule
deriving DecidableEq, Repr

namespace SiteKind

/-- The word for the use. -/
def word : SiteKind → String
  | call => "call"
  | construct => "construct"
  | schedule => "schedule"

/-- The uses with their words. -/
def choices : List (String × SiteKind) :=
  [call, construct, schedule].map fun kind => (kind.word, kind)

end SiteKind

/-- A place in a body that names a declaration and writes type arguments for
    it. -/
structure Site where
  target : String
  typeArgs : List String := []
  kind : SiteKind := .call
deriving DecidableEq, Repr

/-- A declaration with the type parameters it introduces itself, the name of
    the declaration it is nested in, whether its instances have to be
    specialised, and the sites of its body. -/
structure Declaration where
  name : String
  kind : Kind
  typeParams : List String := []
  enclosing : Option String := none
  requiresSpecialization : Bool := false
  body : List Site := []
deriving DecidableEq, Repr

/-- A type inherits from another one, with type arguments for it. -/
structure Inheritance where
  derived : String
  base : String
  typeArgs : List String := []
deriving DecidableEq, Repr

/-- The facts about a whole program, in the order they were written. -/
structure Program where
  declarations : List Declaration := []
  hierarchy : List Inheritance := []
deriving DecidableEq, Repr

namespace Declaration

/-- A declaration of the given kind with nothing else said about it. -/
def named (kind : Kind) (name : String) : Declaration :=
  { name, kind }

/-- The declaration with these type parameters in place of what it had. -/
def withParams (d : Declaration) (typeParams : List String) : Declaration :=
  { d with typeParams }

/-- The declaration nested in the named one. -/
def nestedIn (d : Declaration) (enclosing : String) : Declaration :=
  { d with enclosing := some enclosing }

/-- The declaration with its instances to be specialised. -/
def specialized (d : Declaration) : Declaration :=
  { d with requiresSpecialization := true }

/-- The declaration with one more site at the end of its body. -/
def withSite (d : Declaration) (kind : SiteKind) (target : String) (typeArgs : List String) :
    Declaration :=
  { d with body := d.body ++ [{ target, typeArgs, kind }] }

/-- A type whose instances are to be specialised. -/
def job (name : String) : Declaration :=
  (named .type name).specialized

end Declaration

namespace Program

/-- The program with one more declaration at the end. -/
def declare (p : Program) (d : Declaration) : Program :=
  { p with declarations := p.declarations ++ [d] }

/-- The program with one more inheritance relation at the end. -/
def inherit (p : Program) (derived base : String) (typeArgs : List String) : Program :=
  { p with hierarchy := p.hierarchy ++ [{ derived, base, typeArgs }] }

/-- A name that is missing: a declaration's own, at a position in the program,
    or that of one of its type parameters. -/
inductive ShapeFault where
  | blankName (index : Nat)
  | blankParam (declaration : String) (param : String)
deriving DecidableEq, Repr

/-- The wording of a missing name. -/
def ShapeFault.message : ShapeFault → String
  | blankName index => s!"declaration #{index} has an empty name"
  | blankParam declaration param =>
    s!"declaration `{declaration}` has an empty type parameter name " ++ Text.quote param

/-- The missing name of one declaration, if there is one: its own before those
    of its parameters. -/
def declarationFault? (index : Nat) (d : Declaration) : Option ShapeFault :=
  if Text.isBlankText d.name then some (.blankName index)
  else (d.typeParams.find? Text.isBlankText).map (.blankParam d.name)

/-- The first missing name from a position on. -/
def firstFault? (index : Nat) : List Declaration → Option ShapeFault
  | [] => none
  | d :: rest => (declarationFault? index d).or (firstFault? (index + 1) rest)

/-- The first missing name of the program, if there is one. -/
def shapeFault? (p : Program) : Option ShapeFault :=
  firstFault? 0 p.declarations

/-- Passes a program in which no name is missing. -/
def checkShape (p : Program) : Except ShapeFault Program :=
  match p.shapeFault? with
  | none => .ok p
  | some fault => .error fault

end Program

end Monomorph

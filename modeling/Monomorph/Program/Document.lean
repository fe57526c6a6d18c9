import Monomorph.Json.Read
import Monomorph.Json.Write
import Monomorph.Program.Basic

/-!
# Programs as Documents

Reading the facts about a program from a document and writing them back. Only
what a declaration is called, what it is, whom a site names and who inherits
from whom must be written; everything else has a default. A program is written
with every field in order, the enclosing declaration apart, which is left out
where there is none.

## Main definitions

* `Program.read`, `Program.write`: The two directions.
* `Program.load`: Reads a document and checks the names in it.
* `Program.LoadFault`: Why a document gives no program.
-/

namespace Monomorph

namespace Site

/-- The fields of a site that have been read. -/
structure Draft where
  target : Option String := none
  typeArgs : Option (List String) := none
  kind : Option SiteKind := none

/-- Reads the member of a site under a key. -/
def Draft.member (d : Draft) (key : String) : Json.Reader Draft := fun s =>
  match key with
  | "target" => do
    let (value, rest) ← Json.once key d.target Json.text s
    .ok ({ d with target := some value }, rest)
  | "type_args" => do
    let (value, rest) ← Json.once key d.typeArgs (Json.sequence Json.text) s
    .ok ({ d with typeArgs := some value }, rest)
  | "kind" => do
    let (value, rest) ← Json.once key d.kind (Json.variant SiteKind.choices) s
    .ok ({ d with kind := some value }, rest)
  | _ => Json.ignored d s

/-- The site whose fields have been read. -/
def Draft.finish (d : Draft) : Except Json.Fault Site := do
  .ok {
    target := ← Json.required "target" d.target
    typeArgs := d.typeArgs.getD []
    kind := d.kind.getD .call }

/-- Reads a site from the elements of an array. -/
def readArray : Json.Reader Site := fun s => do
  let wanted := "struct CallSiteInfo with 3 elements"
  let (target, s) ← Json.requiredElement 0 wanted Json.text s
  let (typeArgs, s) ← Json.element false (Json.sequence Json.text) s
  let (kind, s) ← Json.element false (Json.variant SiteKind.choices) s
  .ok ({ target, typeArgs := typeArgs.getD [], kind := kind.getD .call }, s)

/-- Reads a site. -/
def read : Json.Reader Site :=
  Json.record "CallSiteInfo" {} Draft.member Draft.finish readArray

/-- Writes a site. -/
def write (site : Site) : Json.Writer :=
  Json.Writer.object
    [("target", Json.Writer.text site.target),
     ("type_args", Json.Writer.texts site.typeArgs),
     ("kind", Json.Writer.text site.kind.word)]

end Site

namespace Declaration

/-- The fields of a declaration that have been read. -/
structure Draft where
  name : Option String := none
  kind : Option Kind := none
  typeParams : Option (List String) := none
  enclosing : Option (Option String) := none
  requiresSpecialization : Option Bool := none
  body : Option (List Site) := none

/-- Reads the member of a declaration under a key. -/
def Draft.member (d : Draft) (key : String) : Json.Reader Draft := fun s =>
  match key with
  | "name" => do
    let (value, rest) ← Json.once key d.name Json.text s
    .ok ({ d with name := some value }, rest)
  | "kind" => do
    let (value, rest) ← Json.once key d.kind (Json.variant Kind.choices) s
    .ok ({ d with kind := some value }, rest)
  | "type_params" => do
    let (value, rest) ← Json.once key d.typeParams (Json.sequence Json.text) s
    .ok ({ d with typeParams := some value }, rest)
  | "enclosing" => do
    let (value, rest) ← Json.once key d.enclosing (Json.optional Json.text) s
    .ok ({ d with enclosing := some value }, rest)
  | "requires_specialization" => do
    let (value, rest) ← Json.once key d.requiresSpecialization Json.boolean s
    .ok ({ d with requiresSpecialization := some value }, rest)
  | "body" => do
    let (value, rest) ← Json.once key d.body (Json.sequence Site.read) s
    .ok ({ d with body := some value }, rest)
  | _ => Json.ignored d s

/-- The declaration whose fields have been read. -/
def Draft.finish (d : Draft) : Except Json.Fault Declaration := do
  .ok {
    name := ← Json.required "name" d.name
    kind := ← Json.required "kind" d.kind
    typeParams := d.typeParams.getD []
    enclosing := d.enclosing.getD none
    requiresSpecialization := d.requiresSpecialization.getD false
    body := d.body.getD [] }

/-- Reads a declaration from the elements of an array. -/
def readArray : Json.Reader Declaration := fun s => do
  let wanted := "struct DeclarationInfo with 6 elements"
  let (name, s) ← Json.requiredElement 0 wanted Json.text s
  let (kind, s) ← Json.requiredElement 1 wanted (Json.variant Kind.choices) s
  let (typeParams, s) ← Json.element false (Json.sequence Json.text) s
  let (enclosing, s) ← Json.element false (Json.optional Json.text) s
  let (requiresSpecialization, s) ← Json.element false Json.boolean s
  let (body, s) ← Json.element false (Json.sequence Site.read) s
  .ok ({
    name, kind
    typeParams := typeParams.getD []
    enclosing := enclosing.getD none
    requiresSpecialization := requiresSpecialization.getD false
    body := body.getD [] }, s)

/-- Reads a declaration. -/
def read : Json.Reader Declaration :=
  Json.record "DeclarationInfo" {} Draft.member Draft.finish readArray

/-- Writes a declaration, leaving out that it is nested in nothing. -/
def write (d : Declaration) : Json.Writer :=
  Json.Writer.object
    ([("name", Json.Writer.text d.name),
      ("kind", Json.Writer.text d.kind.word),
      ("type_params", Json.Writer.texts d.typeParams)] ++
     d.enclosing.toList.map (fun enclosing => ("enclosing", Json.Writer.text enclosing)) ++
     [("requires_specialization", Json.Writer.boolean d.requiresSpecialization),
      ("body", Json.Writer.array (d.body.map Site.write))])

end Declaration

namespace Inheritance

/-- The fields of an inheritance relation that have been read. -/
structure Draft where
  derived : Option String := none
  base : Option String := none
  typeArgs : Option (List String) := none

/-- Reads the member of an inheritance relation under a key. -/
def Draft.member (d : Draft) (key : String) : Json.Reader Draft := fun s =>
  match key with
  | "derived" => do
    let (value, rest) ← Json.once key d.derived Json.text s
    .ok ({ d with derived := some value }, rest)
  | "base" => do
    let (value, rest) ← Json.once key d.base Json.text s
    .ok ({ d with base := some value }, rest)
  | "type_args" => do
    let (value, rest) ← Json.once key d.typeArgs (Json.sequence Json.text) s
    .ok ({ d with typeArgs := some value }, rest)
  | _ => Json.ignored d s

/-- The inheritance relation whose fields have been read. -/
def Draft.finish (d : Draft) : Except Json.Fault Inheritance := do
  .ok {
    derived := ← Json.required "derived" d.derived
    base := ← Json.required "base" d.base
    typeArgs := d.typeArgs.getD [] }

/-- Reads an inheritance relation from the elements of an array. -/
def readArray : Json.Reader Inheritance := fun s => do
  let wanted := "struct InheritanceInfo with 3 elements"
  let (derived, s) ← Json.requiredElement 0 wanted Json.text s
  let (base, s) ← Json.requiredElement 1 wanted Json.text s
  let (typeArgs, s) ← Json.element false (Json.sequence Json.text) s
  .ok ({ derived, base, typeArgs := typeArgs.getD [] }, s)

/-- Reads an inheritance relation. -/
def read : Json.Reader Inheritance :=
  Json.record "InheritanceInfo" {} Draft.member Draft.finish readArray

/-- Writes an inheritance relation. -/
def write (i : Inheritance) : Json.Writer :=
  Json.Writer.object
    [("derived", Json.Writer.text i.derived),
     ("base", Json.Writer.text i.base),
     ("type_args", Json.Writer.texts i.typeArgs)]

end Inheritance

namespace Program

/-- The fields of a program that have been read. -/
structure Draft where
  declarations : Option (List Declaration) := none
  hierarchy : Option (List Inheritance) := none

/-- Reads the member of a program under a key. -/
def Draft.member (d : Draft) (key : String) : Json.Reader Draft := fun s =>
  match key with
  | "declarations" => do
    let (value, rest) ← Json.once key d.declarations (Json.sequence Declaration.read) s
    .ok ({ d with declarations := some value }, rest)
  | "hierarchy" => do
    let (value, rest) ← Json.once key d.hierarchy (Json.sequence Inheritance.read) s
    .ok ({ d with hierarchy := some value }, rest)
  | _ => Json.ignored d s

/-- The program whose fields have been read. -/
def Draft.finish (d : Draft) : Except Json.Fault Program :=
  .ok { declarations := d.declarations.getD [], hierarchy := d.hierarchy.getD [] }

/-- Reads a program from the elements of an array. -/
def readArray : Json.Reader Program := fun s => do
  let (declarations, s) ← Json.element true (Json.sequence Declaration.read) s
  let (hierarchy, s) ← Json.element false (Json.sequence Inheritance.read) s
  .ok ({ declarations := declarations.getD [], hierarchy := hierarchy.getD [] }, s)

/-- Reads a program. -/
def read : Json.Reader Program :=
  Json.record "ProgramModel" {} Draft.member Draft.finish readArray

/-- Writes a program. -/
def write (p : Program) : Json.Writer :=
  Json.Writer.object
    [("declarations", Json.Writer.array (p.declarations.map Declaration.write)),
     ("hierarchy", Json.Writer.array (p.hierarchy.map Inheritance.write))]

/-- The program as a document spread over lines. -/
def render (p : Program) : String :=
  p.write.pretty

/-- Why a document gives no program: it cannot be read, or a name in it is
    missing. -/
inductive LoadFault where
  | document (fault : Json.Fault)
  | shape (fault : ShapeFault)
deriving DecidableEq

/-- Reads a program from a document and checks the names in it. -/
def load (source : String) : Except LoadFault Program :=
  match Json.document read source with
  | .error fault => .error (.document fault)
  | .ok p => p.checkShape.mapError .shape

end Program

end Monomorph

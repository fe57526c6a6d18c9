import Monomorph.Settings.Basic
import Monomorph.Table.Basic
import Monomorph.Text.Blank
import Monomorph.Text.Bytes
import Monomorph.Text.NameChar

/-!
# Parsing Type Arguments

A type argument is a name, or a name followed by arguments between angle
brackets with commas between them; blanks between tokens do not count. A bare
name is a parameter if the declaration it is written in has a formal of that
name, and a literal otherwise. An applied name has to be declared and to be
given one argument for each of its formals, which is checked once the arguments
have been read.

The parser works on the characters that are left. It stops at the characters
it cannot go on with, and since it never skips ahead, what is left then says
where in the text that was.

## Main definitions

* `Scope`: What names mean where a type argument is written.
* `Stop`: Why and where the parser stopped.
* `ParseError`: Why a text is no type argument.
* `Scope.parse`: The expression that a text writes.
-/

namespace Monomorph

/-- What names mean where a type argument is written: the formals of the
    declaration around it, the table, and how deep expressions may be nested. -/
structure Scope where
  formals : List String
  table : Table
  maxNesting : Nat := Settings.nestingCeiling

/-- The scope with a limit on nesting, which cannot exceed the ceiling. -/
def Scope.withMaxNesting (scope : Scope) (limit : Nat) : Scope :=
  { scope with maxNesting := min limit Settings.nestingCeiling }

/-- Why a text is no type argument. Offsets count bytes of UTF-8. -/
inductive ParseError where
  | empty
  | unexpectedEnd
  | unexpectedChar (found : Char) (offset : Nat)
  | unknownGeneric (name : String)
  | arityMismatch (name : String) (expected found : Nat)
  | tooDeep (limit : Nat)
deriving DecidableEq, Repr

/-- The wording of a parse error of the given text. -/
def ParseError.message (text : String) : ParseError → String
  | empty => "empty type argument"
  | unexpectedEnd => s!"unexpected end of input in `{text}`"
  | unexpectedChar found offset =>
    "unexpected `" ++ String.singleton found ++ s!"` at offset {offset} in `{text}`"
  | unknownGeneric name => s!"`{name}` is applied to type arguments but is not a declared generic"
  | arityMismatch name expected found =>
    s!"`{name}` expects {expected} type argument(s), found {found}"
  | tooDeep limit => s!"type argument nests deeper than {limit} levels"

/-- Why the parser stopped. Where a character or the end of the text is in the
    way, it says what is left of the text. -/
inductive Stop where
  | unexpected (rest : List Char)
  | unknownGeneric (name : String)
  | arityMismatch (name : String) (expected found : Nat)
  | tooDeep
deriving DecidableEq, Repr

/-- The parse error of a stop in the given characters. What is left starts with
    the character in the way, and its offset is the length of what came
    before. -/
def Stop.error (chars : List Char) (limit : Nat) : Stop → ParseError
  | unexpected [] => .unexpectedEnd
  | unexpected (c :: rest) =>
    .unexpectedChar c (Text.utf8Length chars - Text.utf8Length (c :: rest))
  | unknownGeneric name => .unknownGeneric name
  | arityMismatch name expected found => .arityMismatch name expected found
  | tooDeep => .tooDeep limit

namespace Scope

/-- What a bare name means. -/
def leaf (scope : Scope) (name : String) : Expr :=
  if scope.formals.contains name then .param name else .literal name

/-- What a name applied to arguments means. -/
def applied (scope : Scope) (name : String) (args : List Expr) : Except Stop Expr :=
  match scope.table.find? name with
  | none => .error (.unknownGeneric name)
  | some head =>
    let expected := (scope.table.formals head).length
    if expected = args.length then .ok (.app head args)
    else .error (.arityMismatch name expected args.length)

/-- Reads a name, after any blanks. -/
def readName (chars : List Char) : Except Stop (String × List Char) :=
  let start := Text.skipBlanks chars
  match start.takeWhile Text.isNameChar with
  | [] => .error (.unexpected start)
  | name => .ok (String.ofList name, start.dropWhile Text.isNameChar)

/-- Reads arguments, each with `item`, up to the closing bracket. Every argument
    takes a character, so the number of characters is fuel enough. -/
def readArgs (item : List Char → Except Stop (Expr × List Char)) :
    Nat → List Char → Except Stop (List Expr × List Char)
  | 0, chars => .error (.unexpected chars)
  | fuel + 1, chars => do
    let (arg, rest) ← item chars
    match Text.skipBlanks rest with
    | ',' :: rest => do
      let (args, rest) ← readArgs item fuel rest
      .ok (arg :: args, rest)
    | '>' :: rest => .ok ([arg], rest)
    | rest => .error (.unexpected rest)

/-- Reads an expression that may be nested at most `levels` deep. -/
def readExpr (scope : Scope) : Nat → List Char → Except Stop (Expr × List Char)
  | 0, _ => .error .tooDeep
  | levels + 1, chars => do
    let (name, rest) ← readName chars
    match Text.skipBlanks rest with
    | '<' :: rest => do
      let (args, rest) ← readArgs (readExpr scope levels) (rest.length + 1) rest
      .ok (← scope.applied name args, rest)
    | rest => .ok (scope.leaf name, rest)

/-- Reads an expression after which only blanks may stand. -/
def readWhole (scope : Scope) (chars : List Char) : Except Stop Expr := do
  let (e, rest) ← scope.readExpr scope.maxNesting chars
  match Text.skipBlanks rest with
  | [] => .ok e
  | rest => .error (.unexpected rest)

/-- The expression that a text writes. -/
def parse (scope : Scope) (text : String) : Except ParseError Expr :=
  if Text.isBlankText text then .error .empty
  else (scope.readWhole text.toList).mapError (Stop.error text.toList scope.maxNesting)

end Scope

end Monomorph

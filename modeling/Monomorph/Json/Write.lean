import Monomorph.Json.Text

/-!
# Writing Documents

Documents are written either on one line without any white space, or spread
over lines with two spaces for each level of nesting. Both come from the same
description: a writer is told the layout and gives the text, and an array or
object passes a deeper layout on to its entries. An empty array or object is
closed at once in both layouts.

## Main definitions

* `Layout`: On one line, or spread out at some depth.
* `Writer`: A layout to the text under it.
* `Writer.text`, `Writer.natural`, `Writer.boolean`, `Writer.array`,
  `Writer.object`: Writers of values.
-/

namespace Monomorph

namespace Json

/-- How a document is laid out: on one line, or spread over lines, the brackets
    of the value at hand standing at some depth. -/
inductive Layout where
  | compact
  | pretty (depth : Nat)
deriving DecidableEq

namespace Layout

/-- The layout of the entries of an array or object. -/
def inner : Layout → Layout
  | compact => compact
  | pretty depth => pretty (depth + 1)

/-- What stands before an entry or a closing bracket: a new line, indented by
    two spaces for each level. -/
def lineBreak : Layout → List Char
  | compact => []
  | pretty depth => '\n' :: List.replicate (2 * depth) ' '

/-- What stands between a key and its value. -/
def colon : Layout → List Char
  | compact => [':']
  | pretty _ => [':', ' ']

end Layout

/-- A writer gives the text of a value under a layout. -/
abbrev Writer := Layout → List Char

namespace Writer

/-- Writes a string. -/
def text (value : String) : Writer := fun _ =>
  writeText value

/-- Writes a natural number. -/
def natural (value : Nat) : Writer := fun _ =>
  Nat.toDigits 10 value

/-- Writes a truth value. -/
def boolean (value : Bool) : Writer := fun _ =>
  if value then ['t', 'r', 'u', 'e'] else ['f', 'a', 'l', 's', 'e']

/-- Writes the entries between brackets, each on a line of its own where the
    layout has lines. -/
def entries (layout : Layout) : List Writer → List Char
  | [] => []
  | [entry] => layout.lineBreak ++ entry layout
  | entry :: rest => layout.lineBreak ++ entry layout ++ ',' :: entries layout rest

/-- Writes entries between an opening and a closing bracket. -/
def bracketed (opening closing : Char) (items : List Writer) : Writer := fun layout =>
  if items.isEmpty then [opening, closing]
  else opening :: entries layout.inner items ++ layout.lineBreak ++ [closing]

/-- Writes an array. -/
def array (items : List Writer) : Writer :=
  bracketed '[' ']' items

/-- Writes a member of an object. -/
def member (key : String) (value : Writer) : Writer := fun layout =>
  writeText key ++ layout.colon ++ value layout

/-- Writes an object, its members in the order given. -/
def object (fields : List (String × Writer)) : Writer :=
  bracketed '\x7b' '\x7d' (fields.map fun field => member field.1 field.2)

/-- Writes an array of strings. -/
def texts (values : List String) : Writer :=
  array (values.map text)

/-- The document on one line. -/
def compact (value : Writer) : String :=
  String.ofList (value .compact)

/-- The document spread over lines. -/
def pretty (value : Writer) : String :=
  String.ofList (value (.pretty 0))

end Writer

end Json

end Monomorph

import Monomorph.Decimal.Shortest
import Monomorph.Text.Quoted

/-!
# Faults of a Document

Why a data document is refused. A document is read strictly from left to right
and the first fault wins, so a fault is one of three things: the text breaks
the grammar, the text ends too early, or a well-formed value is not the one
that was wanted. Only the last kind has more to say, and it keeps what was
found and what was wanted as values; the wording is in one place.

## Main definitions

* `Found`: What stood where something else was wanted.
* `Mismatch`: How a value misses what was wanted.
* `Fault`: Why a document is refused.
* `Mismatch.message`: The wording of a mismatch.
-/

namespace Monomorph

namespace Json

/-- What stood where something else was wanted. Arrays and objects are named
    without being read. -/
inductive Found where
  | null
  | boolean (value : Bool)
  | integer (value : Int)
  | decimal (negative : Bool) (magnitude : Decimal.Binary)
  | text (value : String)
  | array
  | object
deriving DecidableEq

/-- How a value misses what was wanted. -/
inductive Mismatch where
  | kind (found : Found) (wanted : String)
  | value (found : Found) (wanted : String)
  | length (count : Nat) (wanted : String)
  | unknownField (key : String) (known : List String)
  | unknownVariant (name : String) (known : List String)
  | missingField (key : String)
  | repeatedField (key : String)
deriving DecidableEq

/-- Why a document is refused: it breaks the grammar, it ends too early, or it
    holds something else than was wanted. -/
inductive Fault where
  | malformed
  | truncated
  | mismatch (cause : Mismatch)
deriving DecidableEq

/-- What was found, in words. -/
def Found.describe : Found → String
  | null => "null"
  | boolean value => s!"boolean `{value}`"
  | integer value => s!"integer `{value}`"
  | decimal negative magnitude =>
    let sign := if negative then "-" else ""
    let digits := magnitude.shortest.render .standard
    s!"floating point `{sign}{digits}`"
  | text value => "string " ++ Text.quote value
  | array => "sequence"
  | object => "map"

/-- Names between backticks, with commas between them. -/
def listNames (names : List String) : String :=
  ", ".intercalate (names.map fun name => s!"`{name}`")

/-- The wording of a mismatch. -/
def Mismatch.message : Mismatch → String
  | kind found wanted => "invalid type: " ++ found.describe ++ ", expected " ++ wanted
  | value found wanted => "invalid value: " ++ found.describe ++ ", expected " ++ wanted
  | length count wanted => s!"invalid length {count}, expected {wanted}"
  | unknownField key known => s!"unknown field `{key}`, expected one of " ++ listNames known
  | unknownVariant name known =>
    s!"unknown variant `{name}`, expected one of " ++ listNames known
  | missingField key => s!"missing field `{key}`"
  | repeatedField key => s!"duplicate field `{key}`"

end Json

end Monomorph

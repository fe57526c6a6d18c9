import Monomorph.Json.Number
import Monomorph.Json.Text

/-!
# Skipping a Value

A value under a key that nobody asked for is only checked against the grammar.
Skipping keeps the brackets that are open in a list of its own, so no depth of
nesting is too deep for it.

## Main definitions

* `skipValue`: Skips one value.
-/

namespace Monomorph

namespace Json

/-- Whether the character is white space of the format. -/
def isSpace (c : Char) : Bool :=
  c == ' ' || c == '\n' || c == '\t' || c == '\r'

/-- The text without the white space at its start. -/
def skipSpace (text : List Char) : List Char :=
  text.dropWhile isSpace

/-- Reads the rest of a literal whose first letter has been read. -/
def readWord : List Char → List Char → Except Fault (List Char)
  | [], text => .ok text
  | _ :: _, [] => .error .truncated
  | c :: word, d :: text => if c = d then readWord word text else .error .malformed

/-- Reads the colon after a key. -/
def readColon (text : List Char) : Except Fault (List Char) :=
  match skipSpace text with
  | [] => .error .truncated
  | ':' :: rest => .ok rest
  | _ => .error .malformed

/-- A bracket that is open. -/
inductive Bracket where
  | array
  | object
deriving DecidableEq

/-- What comes next while a value is skipped: a value, the first entry of a
    bracket or its end, or what follows an entry. -/
inductive Awaiting where
  | value
  | entry
  | separator
deriving DecidableEq

/-- Skips a key and its colon. -/
def skipKey (text : List Char) : Except Fault (List Char) :=
  match skipSpace text with
  | [] => .error .truncated
  | '"' :: rest => do readColon (← skipText rest)
  | _ => .error .malformed

/-- One step of skipping: from the open brackets, innermost first, and what is
    awaited to the same after one token. -/
def skipStep (brackets : List Bracket) (awaiting : Awaiting) (text : List Char) :
    Except Fault (List Bracket × Awaiting × List Char) :=
  match awaiting, brackets, skipSpace text with
  | _, _, [] => .error .truncated
  | .value, _, '[' :: rest => .ok (.array :: brackets, .entry, rest)
  | .value, _, '\x7b' :: rest => .ok (.object :: brackets, .entry, rest)
  | .value, _, '"' :: rest => do .ok (brackets, .separator, ← skipText rest)
  | .value, _, 'n' :: rest => do .ok (brackets, .separator, ← readWord ['u', 'l', 'l'] rest)
  | .value, _, 't' :: rest => do .ok (brackets, .separator, ← readWord ['r', 'u', 'e'] rest)
  | .value, _, 'f' :: rest => do
    .ok (brackets, .separator, ← readWord ['a', 'l', 's', 'e'] rest)
  | .value, _, '-' :: rest => do .ok (brackets, .separator, ← skipNumber rest)
  | .value, _, c :: rest =>
    if isDigit c then do .ok (brackets, .separator, ← skipNumber (c :: rest))
    else .error .malformed
  | _, .array :: outer, ']' :: rest => .ok (outer, .separator, rest)
  | _, .object :: outer, '\x7d' :: rest => .ok (outer, .separator, rest)
  | .entry, .array :: _, rest => .ok (brackets, .value, rest)
  | .entry, .object :: _, rest => do .ok (brackets, .value, ← skipKey rest)
  | .separator, .array :: _, ',' :: rest => .ok (brackets, .value, rest)
  | .separator, .object :: _, ',' :: rest => do .ok (brackets, .value, ← skipKey rest)
  | _, _, _ => .error .malformed

/-- Steps until no bracket is open and a value has been skipped. -/
def skipSteps : Nat → List Bracket → Awaiting → List Char → Except Fault (List Char)
  | _, [], .separator, text => .ok text
  | 0, _, _, _ => .error .truncated
  | fuel + 1, brackets, awaiting, text => do
    let (brackets, awaiting, rest) ← skipStep brackets awaiting text
    skipSteps fuel brackets awaiting rest

/-- Skips one value. Every step takes a character of the text, the one into the
    first entry of an array apart, so twice the length is fuel enough. -/
def skipValue (text : List Char) : Except Fault (List Char) :=
  skipSteps (2 * text.length + 1) [] .value text

end Json

end Monomorph

import Monomorph.Settings.Basic
import Monomorph.Text.Blank

/-!
# Settings from the Environment

Variables of the environment that lie over settings from elsewhere. Blanks
around a value do not count, a number may have a plus sign, and a truth value
is false when it is empty, a zero or a word for false.

## Main definitions

* `parseNatural?`: A natural number of 64 bits written in decimal.
* `Settings.overlay`: The settings under an environment.
-/

namespace Monomorph

/-- The number that the digits write. -/
def ofDigits (digits : List Char) : Nat :=
  digits.foldl (fun n c => n * 10 + (c.toNat - '0'.toNat)) 0

/-- The greatest natural number of 64 bits. -/
def maxNatural : Nat := 0xFFFFFFFFFFFFFFFF

/-- The natural number of 64 bits that a text writes: an optional plus sign and
    at least one of the ten digits. -/
def parseNatural? (text : String) : Option Nat :=
  let digits := match text.toList with
    | '+' :: rest => rest
    | chars => chars
  if digits.isEmpty || !digits.all (fun c => '0' ≤ c && c ≤ '9') then none
  else if ofDigits digits ≤ maxNatural then some (ofDigits digits)
  else none

namespace Settings

/-- The variables of an environment, by name. -/
abbrev Environment := List (String × String)

/-- The number that a variable holds, if it is set. -/
def Environment.natural? (env : Environment) (key : String) : Except Fault (Option Nat) :=
  match env.lookup key with
  | none => .ok none
  | some value =>
    match parseNatural? (Text.trim value) with
    | some n => .ok (some n)
    | none => .error (.notNatural key value)

/-- The words that are false. -/
def falsehoods : List String :=
  ["", "0", "false", "FALSE", "False"]

/-- The truth value that a variable holds, if it is set. -/
def Environment.boolean? (env : Environment) (key : String) : Option Bool :=
  (env.lookup key).map fun value => !falsehoods.contains (Text.trim value)

/-- The settings with the variables of the environment laid over them, checked.
    The first variable that holds no number is reported before any limit. -/
def overlay (s : Settings) (env : Environment) : Except Fault Settings := do
  let maxDepth := (← env.natural? "GCLOSE_MAX_DEPTH").getD s.maxDepth
  let maxTypeNesting := (← env.natural? "GCLOSE_MAX_TYPE_NESTING").getD s.maxTypeNesting
  let maxPasses := (← env.natural? "GCLOSE_MAX_PASSES").getD s.maxPasses
  let parallel := (env.boolean? "GCLOSE_PARALLEL").getD s.parallel
  validate { s with maxDepth, maxTypeNesting, maxPasses, parallel }

end Settings

end Monomorph

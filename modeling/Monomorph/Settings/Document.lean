import Monomorph.Json.Read
import Monomorph.Settings.Basic

/-!
# Settings as Documents

Reading settings from a document. Every field has a default, and a key that is
none of the fields is refused, for a misspelt limit must not go unnoticed.

## Main definitions

* `Settings.read`: Reads settings.
* `Settings.load`: Reads a document and checks the limits in it.
* `Settings.LoadFault`: Why a document gives no settings.
-/

namespace Monomorph

namespace Settings

/-- The fields of the settings that have been read. -/
structure Draft where
  maxDepth : Option Nat := none
  maxTypeNesting : Option Nat := none
  maxPasses : Option Nat := none
  parallel : Option Bool := none
  parallelThreshold : Option Nat := none

/-- The keys of the settings, in order. -/
def keys : List String :=
  ["max_depth", "max_type_nesting", "max_passes", "parallel", "parallel_threshold"]

/-- Reads the member of the settings under a key. -/
def Draft.member (d : Draft) (key : String) : Json.Reader Draft := fun s =>
  match key with
  | "max_depth" => do
    let (value, rest) ← Json.once key d.maxDepth Json.natural s
    .ok ({ d with maxDepth := some value }, rest)
  | "max_type_nesting" => do
    let (value, rest) ← Json.once key d.maxTypeNesting Json.natural s
    .ok ({ d with maxTypeNesting := some value }, rest)
  | "max_passes" => do
    let (value, rest) ← Json.once key d.maxPasses Json.natural s
    .ok ({ d with maxPasses := some value }, rest)
  | "parallel" => do
    let (value, rest) ← Json.once key d.parallel Json.boolean s
    .ok ({ d with parallel := some value }, rest)
  | "parallel_threshold" => do
    let (value, rest) ← Json.once key d.parallelThreshold Json.natural s
    .ok ({ d with parallelThreshold := some value }, rest)
  | _ => .error (.mismatch (.unknownField key keys))

/-- The settings whose fields have been read, the others at their defaults. -/
def Draft.finish (d : Draft) : Except Json.Fault Settings :=
  let default : Settings := {}
  .ok {
    maxDepth := d.maxDepth.getD default.maxDepth
    maxTypeNesting := d.maxTypeNesting.getD default.maxTypeNesting
    maxPasses := d.maxPasses.getD default.maxPasses
    parallel := d.parallel.getD default.parallel
    parallelThreshold := d.parallelThreshold.getD default.parallelThreshold }

/-- Reads settings from the elements of an array. -/
def readArray : Json.Reader Settings := fun s => do
  let (maxDepth, s) ← Json.element true Json.natural s
  let (maxTypeNesting, s) ← Json.element false Json.natural s
  let (maxPasses, s) ← Json.element false Json.natural s
  let (parallel, s) ← Json.element false Json.boolean s
  let (parallelThreshold, s) ← Json.element false Json.natural s
  let settings ← Draft.finish { maxDepth, maxTypeNesting, maxPasses, parallel, parallelThreshold }
  .ok (settings, s)

/-- Reads settings. -/
def read : Json.Reader Settings :=
  Json.record "ResolverConfig" {} Draft.member Draft.finish readArray

/-- Why a document gives no settings: it cannot be read, or a limit in it is out
    of bounds. -/
inductive LoadFault where
  | document (fault : Json.Fault)
  | invalid (fault : Fault)
deriving DecidableEq

/-- Reads settings from a document without looking at the limits. -/
def parse (source : String) : Except Json.Fault Settings :=
  Json.document read source

/-- Reads settings from a document and checks the limits. -/
def load (source : String) : Except LoadFault Settings :=
  match parse source with
  | .error fault => .error (.document fault)
  | .ok settings => settings.validate.mapError .invalid

end Settings

end Monomorph

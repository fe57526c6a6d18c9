import Monomorph.Command.Log
import Monomorph.Command.Words
import Monomorph.Report
import Monomorph.Settings.Environment

/-!
# Options

What the words of a command line ask for. Some options concern every command
and may stand before or after its name; given on both sides, the later side
counts. An option is given at most once on a side, except that asking for more
words in the log may be repeated.

## Main definitions

* `Common`: The options of every command.
* `ResolveOptions`, `ScanOptions`: The options of each command.
* `Invocation`: What a line asks for.
* `Invocation.parse?`: The invocation of a line, if it makes sense.
-/

namespace Monomorph

namespace Command

/-- How log lines are written. -/
inductive LogFormat where
  | pretty
  | json
deriving DecidableEq, Repr

/-- A line as it goes out in a form. Lines for a reader go to a terminal; the
    other form has a quoting of its own. -/
def LogFormat.outgoing : LogFormat → Log.Line → Log.Line
  | pretty, line => line.tamed
  | json, line => line

/-- The forms of log lines with their words. -/
def LogFormat.choices : List (String × LogFormat) :=
  [("pretty", .pretty), ("json", .json)]

/-- The options of every command, as far as they are given. -/
structure Common where
  verbose : Nat := 0
  quiet : Bool := false
  log : Option Log.Level := none
  logFormat : Option LogFormat := none
  config : Option String := none
deriving DecidableEq, Repr

namespace Common

/-- How these options are given. -/
def specs : List Spec :=
  [{ long := "verbose", short := some 'v' },
   { long := "quiet", short := some 'q' },
   { long := "log", takesValue := true },
   { long := "log-format", takesValue := true },
   { long := "config", short := some 'c', takesValue := true }]

/-- The options on both sides of a command's name, those after it counting. -/
def merge (before after : Common) : Common where
  verbose := if after.verbose = 0 then before.verbose else after.verbose
  quiet := before.quiet || after.quiet
  log := after.log.or before.log
  logFormat := after.logFormat.or before.logFormat
  config := after.config.or before.config

/-- The form of log lines, the one for a reader unless another is asked for. -/
def format (c : Common) : LogFormat :=
  c.logFormat.getD .pretty

/-- The least important level that is shown: the one asked for, else errors only
    if silence is asked for, else more with each request for more words. -/
def threshold (c : Common) : Log.Level :=
  match c.log with
  | some level => level
  | none =>
    if c.quiet then .error
    else match c.verbose with
      | 0 => .info
      | 1 => .debug
      | _ => .trace

end Common

/-- The options of the command that resolves a program. -/
structure ResolveOptions where
  input : String
  output : Option String := none
  format : Report.Format := .text
  maxDepth : Option Nat := none
  maxTypeNesting : Option Nat := none
  maxPasses : Option Nat := none
  sequential : Bool := false
  stats : Bool := false
  denyErrors : Bool := false
deriving DecidableEq, Repr

/-- The options of the command that lists a program's graph. -/
structure ScanOptions where
  input : String
  jobsOnly : Bool := false
deriving DecidableEq, Repr

/-- A command with its options. -/
inductive Task where
  | resolve (options : ResolveOptions)
  | scan (options : ScanOptions)
deriving DecidableEq, Repr

/-- What a line asks for: the version, help, or a command. -/
inductive Invocation where
  | version
  | help
  | run (common : Common) (task : Task)
deriving DecidableEq, Repr

/-- Everything that may be given on one side of a command's name, as far as it
    has been. -/
structure Given where
  common : Common := {}
  input : Option String := none
  output : Option String := none
  format : Option Report.Format := none
  maxDepth : Option Nat := none
  maxTypeNesting : Option Nat := none
  maxPasses : Option Nat := none
  sequential : Bool := false
  stats : Bool := false
  denyErrors : Bool := false
  jobsOnly : Bool := false

namespace Given

/-- A switch that may be turned on once. -/
def switchOn (current : Bool) : Option Bool :=
  if current then none else some true

/-- A slot that may be filled once, with a value that can be understood. -/
def fill {α : Type} (slot : Option α) (value : Option α) : Option (Option α) :=
  match slot, value with
  | none, some value => some (some value)
  | _, _ => none

/-- A path, which may not be empty. -/
def path? (text : String) : Option String :=
  if text == "" then none else some text

/-- What is given with an option that takes no value. -/
def addFlag (g : Given) (name : String) : Option Given :=
  match name with
  | "verbose" => some { g with common := { g.common with verbose := g.common.verbose + 1 } }
  | "quiet" => do
    some { g with common := { g.common with quiet := ← switchOn g.common.quiet } }
  | "sequential" => do some { g with sequential := ← switchOn g.sequential }
  | "stats" => do some { g with stats := ← switchOn g.stats }
  | "deny-errors" => do some { g with denyErrors := ← switchOn g.denyErrors }
  | "jobs-only" => do some { g with jobsOnly := ← switchOn g.jobsOnly }
  | _ => none

/-- What is given with an option and its value. -/
def addValue (g : Given) (name value : String) : Option Given :=
  match name with
  | "log" => do
    let log ← fill g.common.log (Log.Level.choices.lookup value)
    some { g with common := { g.common with log } }
  | "log-format" => do
    let logFormat ← fill g.common.logFormat (LogFormat.choices.lookup value)
    some { g with common := { g.common with logFormat } }
  | "config" => do
    let config ← fill g.common.config (path? value)
    some { g with common := { g.common with config } }
  | "output" => do some { g with output := ← fill g.output (path? value) }
  | "format" => do
    some { g with format := ← fill g.format (Report.Format.choices.lookup value) }
  | "max-depth" => do some { g with maxDepth := ← fill g.maxDepth (parseNatural? value) }
  | "max-type-nesting" => do
    some { g with maxTypeNesting := ← fill g.maxTypeNesting (parseNatural? value) }
  | "max-passes" => do some { g with maxPasses := ← fill g.maxPasses (parseNatural? value) }
  | _ => none

/-- What is given with a token, of a line that takes an operand or not. -/
def add (takesInput : Bool) (g : Given) : Token → Option Given
  | .flag name => g.addFlag name
  | .valued name value => g.addValue name value
  | .operand text =>
    if takesInput then do some { g with input := ← fill g.input (path? text) } else none

/-- What is given with all tokens of a line. -/
def ofTokens (takesInput : Bool) (tokens : List Token) : Option Given :=
  tokens.foldlM (add takesInput) {}

/-- The options of the command that resolves a program. -/
def resolve? (g : Given) : Option Task := do
  some (.resolve
    { input := ← g.input
      output := g.output
      format := g.format.getD .text
      maxDepth := g.maxDepth
      maxTypeNesting := g.maxTypeNesting
      maxPasses := g.maxPasses
      sequential := g.sequential
      stats := g.stats
      denyErrors := g.denyErrors })

/-- The options of the command that lists a program's graph. -/
def scan? (g : Given) : Option Task := do
  some (.scan { input := ← g.input, jobsOnly := g.jobsOnly })

end Given

/-- What may stand before the name of a command. -/
def frontGrammar : Grammar where
  specs := Common.specs
  commands := ["resolve", "scan", "help"]
  versioned := true

/-- What may stand after the name of the command that resolves a program. -/
def resolveGrammar : Grammar where
  specs := Common.specs ++
    [{ long := "output", short := some 'o', takesValue := true },
     { long := "format", takesValue := true },
     { long := "max-depth", takesValue := true },
     { long := "max-type-nesting", takesValue := true },
     { long := "max-passes", takesValue := true },
     { long := "sequential" },
     { long := "stats" },
     { long := "deny-errors" }]

/-- What may stand after the name of the command that lists a graph. -/
def scanGrammar : Grammar where
  specs := Common.specs ++ [{ long := "jobs-only" }]

namespace Invocation

/-- What the words after the name of a command ask for. -/
def parseTask? (before : Common) (g : Grammar) (task? : Given → Option Task)
    (words : List String) : Option Invocation := do
  let (tokens, ending) := g.split words
  let given ← Given.ofTokens true tokens
  match ending with
  | .finished => some (.run (before.merge given.common) (← task? given))
  | .help => some .help
  | _ => none

/-- What the words after the request for help ask for: help with a command that
    exists. -/
def parseHelp? : List String → Option Invocation
  | [] => some .help
  | [name] => if frontGrammar.commands.contains name then some .help else none
  | _ => none

/-- What a line asks for, if it makes sense. The words are taken in order, so a
    request for help or the version counts unless something before it makes no
    sense. -/
def parse? (words : List String) : Option Invocation := do
  let (tokens, ending) := frontGrammar.split words
  let given ← Given.ofTokens false tokens
  match ending with
  | .version => some .version
  | .help => some .help
  | .command "resolve" rest => parseTask? given.common resolveGrammar Given.resolve? rest
  | .command "scan" rest => parseTask? given.common scanGrammar Given.scan? rest
  | .command _ rest => parseHelp? rest
  | _ => none

end Invocation

end Command

end Monomorph

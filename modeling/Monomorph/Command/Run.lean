import Monomorph.Command.Options
import Monomorph.Command.Storage
import Monomorph.Error

/-!
# Running a Command

A command as a function from the words of its line, the files it may look at
and the environment to everything it does: what it prints, what it writes, what
it logs, and how it exits. Settings are loaded before the program, from a file
and then the environment, and options of the line come last.

## Main definitions

* `Failure`, `Blame`: Why a command fails, and in what context.
* `Outcome`: Everything a command does.
* `Command.run`: The outcome of a line.
-/

namespace Monomorph

namespace Command

/-- Why a command fails. -/
inductive Failure where
  | missingSettings (path : String)
  | missingProgram (path : String)
  | unreadable (path : String) (fault : FileFault)
  | uncreatable (fault : FileFault)
  | unwritable (fault : FileFault)
  | unfinished (fault : FileFault)
  | refusedOptions (fault : Settings.Fault)
  | errorsReported (count : Nat)
  | core (error : Error)
deriving DecidableEq

/-- The wording of a failure, with what lies behind it where that has a wording
    of its own. A report that is left unfinished fails as a document. -/
def Failure.message : Failure → String
  | missingSettings path =>
    s!"Configuration error: Configuration file does not exist: {path}"
  | missingProgram path => s!"Invalid input: Program model does not exist: {path}"
  | unreadable path fault =>
    (Error.unreadable path fault.message).message ++ ": " ++ fault.message
  | uncreatable fault => (Error.io fault.message).message ++ ": " ++ fault.message
  | unwritable fault => (Error.io fault.message).message
  | unfinished fault => Error.malformedLabel ++ fault.message
  | refusedOptions fault => "Configuration error: " ++ (Error.invalidSettings fault).message
  | errorsReported count => s!"Analysis reported {count} error diagnostic(s)"
  | core error => error.message

/-- A failure with the context in which it came about. -/
structure Blame where
  context : String
  failure : Failure

/-- The wording of a failure after its context. -/
def Blame.message (blame : Blame) : String :=
  blame.context ++ ": " ++ blame.failure.message

/-- What a command has done so far: what it printed and wrote, and its log. -/
structure Trail where
  stdout : String := ""
  written : List (String × String) := []
  log : List Log.Line := []

namespace Trail

/-- The trail with more lines in the log. -/
def logged (t : Trail) (lines : List Log.Line) : Trail :=
  { t with log := t.log ++ lines }

/-- The trail with more text printed. -/
def printed (t : Trail) (text : String) : Trail :=
  { t with stdout := t.stdout ++ text }

/-- The trail with a file written. -/
def wrote (t : Trail) (path text : String) : Trail :=
  { t with written := t.written ++ [(path, text)] }

end Trail

/-- What a stage of a command leaves: its trail, and its result or why the
    command ends there. -/
abbrev Stage (α : Type) := Trail × Except Failure α

/-- Everything a command does: how it exits, what it prints and writes, and the
    lines of its log that are shown, as they go out. -/
structure Outcome where
  exit : Nat
  stdout : String := ""
  log : List Log.Line := []
  written : List (String × String) := []
deriving DecidableEq

/-- A line of the log for those who look for trouble. -/
def debugLine (message : String) : Log.Line :=
  { level := .debug, message }

/-- The settings of a command: those of a file, if one is named, under the
    environment. -/
def loadSettings (storage : Storage) (env : Settings.Environment) (path? : Option String) :
    Stage Settings :=
  let overlaid (trail : Trail) (settings : Settings) : Stage Settings :=
    (trail, (settings.overlay env).mapError fun fault => .core (.invalidSettings fault))
  match path? with
  | none => overlaid {} {}
  | some path =>
    let trail : Trail := Trail.logged {} [debugLine s!"loading resolver configuration from {path}"]
    match storage.node path with
    | .missing => ({}, .error (.missingSettings path))
    | .unreadable fault => (trail, .error (.unreadable path fault))
    | .file text =>
      match Settings.load text with
      | .error fault => (trail, .error (.core (.ofSettings fault)))
      | .ok settings => overlaid trail settings

/-- The program at a path. -/
def loadProgram (storage : Storage) (trail : Trail) (path : String) : Stage Program :=
  match storage.node path with
  | .missing => (trail, .error (.missingProgram path))
  | .unreadable fault => (trail, .error (.unreadable path fault))
  | .file text =>
    match Program.load text with
    | .error fault => (trail, .error (.core (.ofProgram fault)))
    | .ok program =>
      (trail.logged [debugLine (s!"loaded {program.declarations.length} declarations and " ++
        s!"{program.hierarchy.length} hierarchy entries from {path}")], .ok program)

/-- The settings with the options of the line laid over them, checked. -/
def ResolveOptions.settings (o : ResolveOptions) (s : Settings) : Except Settings.Fault Settings :=
  Settings.validate
    { s with
      maxDepth := o.maxDepth.getD s.maxDepth
      maxTypeNesting := o.maxTypeNesting.getD s.maxTypeNesting
      maxPasses := o.maxPasses.getD s.maxPasses
      parallel := s.parallel && !o.sequential }

/-- How many bytes of a report are held back before they are written. -/
def bufferBytes : Nat := 8192

/-- Why a report does not get into a file, if it does not. What fits the buffer
    is written at the end. A document that does not fit meets the fault midway,
    and an empty report never. -/
def reportFailure? (report : Report) (format : Report.Format) (fault? : Option FileFault) :
    Option Failure :=
  match fault? with
  | none => none
  | some fault =>
    if format = .json ∧ bufferBytes < report.write.pretty.utf8ByteSize then
      some (.unfinished fault)
    else if report.render format = "" then none
    else some (.unwritable fault)

/-- The report on an analysis, with its figures if they are asked for. -/
def ResolveOptions.report (o : ResolveOptions) (a : Analysis) : Report where
  plan := a.plan
  diagnostics := a.diagnostics
  stats := if o.stats then some a.resolution.stats else none

/-- Hands a report on: into a file if one is named, and else on the screen. -/
def deliver (storage : Storage) (trail : Trail) (o : ResolveOptions) (a : Analysis) :
    Stage Unit :=
  let text := (o.report a).render o.format
  match o.output with
  | none => (trail.printed text, .ok ())
  | some path =>
    match storage.creationFault? path with
    | some fault => (trail, .error (.uncreatable fault))
    | none =>
      match reportFailure? (o.report a) o.format (storage.writingFault? path) with
      | some failure => (trail, .error failure)
      | none =>
        ((trail.wrote path text).logged
          [{ level := .info, message := s!"wrote {a.plan.size} plan entries to {path}" }], .ok ())

/-- Resolves a program and reports its plan. With errors to be denied, an error
    among the diagnostics fails the command after the report is out. -/
def resolve (storage : Storage) (trail : Trail) (settings : Settings) (o : ResolveOptions) :
    Stage Unit :=
  match o.settings settings with
  | .error fault => (trail, .error (.refusedOptions fault))
  | .ok settings =>
    match loadProgram storage trail o.input with
    | (trail, .error failure) => (trail, .error failure)
    | (trail, .ok program) =>
      let a := program.analyze settings
      match deliver storage (trail.logged a.log) o a with
      | (trail, .error failure) => (trail, .error failure)
      | (trail, .ok ()) =>
        if o.denyErrors ∧ 0 < a.errorCount then (trail, .error (.errorsReported a.errorCount))
        else (trail, .ok ())

/-- Lists the graph of a program, with what was reported while it was made. -/
def scan (storage : Storage) (trail : Trail) (settings : Settings) (o : ScanOptions) :
    Stage Unit :=
  match loadProgram storage trail o.input with
  | (trail, .error failure) => (trail, .error failure)
  | (trail, .ok program) =>
    let s := program.scan settings.maxTypeNesting
    let lines := s.graph.lines o.jobsOnly ++ s.diagnostics.flatMap Diagnostic.lines
    ((trail.logged s.log).printed (unlines lines), .ok ())

/-- Runs a command, and says in what it failed. -/
def perform (storage : Storage) (env : Settings.Environment) (common : Common) (task : Task) :
    Trail × Except Blame Unit :=
  let within (context : String) (stage : Stage Unit) : Trail × Except Blame Unit :=
    (stage.1, stage.2.mapError fun failure => { context, failure })
  match loadSettings storage env common.config with
  | (trail, .error failure) =>
    within "failed to load resolver configuration" (trail, .error failure)
  | (trail, .ok settings) =>
    match task with
    | .resolve o => within s!"resolve failed for {o.input}" (resolve storage trail settings o)
    | .scan o => within s!"scan failed for {o.input}" (scan storage trail settings o)

/-- The outcome of a command whose options are known. -/
def execute (storage : Storage) (env : Settings.Environment) (common : Common) (task : Task) :
    Outcome :=
  let (trail, result) := perform storage env common task
  let wordy := 0 < common.verbose
  let (exit, closing) : Nat × List Log.Line :=
    match result with
    | .ok () =>
      (0, if wordy then [{ level := .info, message := "Command completed successfully" }] else [])
    | .error blame =>
      (1, { level := .error, message := blame.message } ::
        if wordy then
          [{ level := .error
             message := "detailed error context"
             context := some blame.context }]
        else [])
  { exit
    stdout := trail.stdout
    log := (Log.upTo common.threshold (trail.log ++ closing)).map common.format.outgoing
    written := trail.written }

/-- The text that answers a request for the version. -/
def versionText : String := "gclose 0.1.0\n"

/-- The text that answers a request for help. -/
def helpText : String :=
  unlines
    ["Whole-program closure resolution for generic job declarations",
     "",
     "Usage: gclose [OPTIONS] <COMMAND>",
     "",
     "Commands:",
     "  resolve  Resolve a program model into an injection plan",
     "  scan     Print the call graph and class hierarchy extracted from a program model"]

/-- The outcome of a line. One that makes no sense exits with 2. -/
def run (storage : Storage) (env : Settings.Environment) (words : List String) : Outcome :=
  match Invocation.parse? words with
  | none => { exit := 2 }
  | some .version => { exit := 0, stdout := versionText }
  | some .help => { exit := 0, stdout := helpText }
  | some (.run common task) => execute storage env common task

end Command

end Monomorph

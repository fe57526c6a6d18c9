import Monomorph.Command.Run

/-!
# The Program

The command line on a real system. What a command does is decided by
`Command.run`; here the files it asks about are read, the environment is
looked up, and what it wants printed, logged and written is carried out.

## Main definitions

* `main`: The entry point.
-/

namespace Monomorph

namespace Command

/-- Whether a code stands for an error number of the system. Some operations
    give the number itself and others its negation. -/
def standsFor (code number : UInt32) : Bool :=
  code == number || code == 0 - number

/-- The fault that a failed operation on a file comes down to. -/
def faultOf (error : IO.Error) : FileFault :=
  match error with
  | .noFileOrDirectory _ _ _ => .notFound
  | .inappropriateType _ code _ => if standsFor code 20 then .notDirectory else .isDirectory
  | .invalidArgument _ code _ =>
    if standsFor code 36 then .nameTooLong else .other (toString error)
  | .noSuchThing _ code _ =>
    if standsFor code 6 then .noDevice else .other (toString error)
  | .resourceExhausted _ code _ =>
    if standsFor code 28 then .noSpace else .other (toString error)
  | error => .other (toString error)

/-- What stands at a path on the disk. A path that leads nowhere has nothing,
    whatever the reason. -/
def nodeAt (path : String) : IO Node := do
  try
    return .file (← IO.FS.readFile path)
  catch error =>
    match faultOf error with
    | .notFound | .notDirectory | .nameTooLong => return .missing
    | fault => return .unreadable fault

/-- The paths that an invocation reads. -/
def pathsRead : Invocation → List String
  | .run common task =>
    common.config.toList ++
      match task with
      | .resolve o => [o.input]
      | .scan o => [o.input]
  | _ => []

/-- The variables of the environment that settings look at. -/
def environment : IO Settings.Environment := do
  let names := ["GCLOSE_MAX_DEPTH", "GCLOSE_MAX_TYPE_NESTING", "GCLOSE_MAX_PASSES",
    "GCLOSE_PARALLEL"]
  names.filterMapM fun name => do
    return (← IO.getEnv name).map fun value => (name, value)

/-- What came of writing a file. -/
inductive Attempt where
  | done
  | notCreated (fault : FileFault)
  | notWritten (fault : FileFault)

/-- Writes a text to an open file. -/
def fill (handle : IO.FS.Handle) (text : String) : IO Attempt := do
  try
    handle.putStr text
    handle.flush
    return .done
  catch error => return .notWritten (faultOf error)

/-- Writes a text to a file. -/
def writeFile (path text : String) : IO Attempt := do
  try
    fill (← IO.FS.Handle.mk path .write) text
  catch error => return .notCreated (faultOf error)

/-- What is known about files once an attempt to write one has failed. -/
def Storage.learn? (storage : Storage) (path : String) : Attempt → Option Storage
  | .done => none
  | .notCreated fault =>
    some { storage with
      creationFault? := fun other =>
        if other == path then some fault else storage.creationFault? other }
  | .notWritten fault =>
    some { storage with
      writingFault? := fun other =>
        if other == path then some fault else storage.writingFault? other }

/-- Writes files up to the first that cannot be written, and gives what is then
    known about files, if there is one. -/
def writeFiles (storage : Storage) : List (String × String) → IO (Option Storage)
  | [] => return none
  | (path, text) :: rest => do
    match storage.learn? path (← writeFile path text) with
    | some storage => return some storage
    | none => writeFiles storage rest

/-- The text of a log line in the form that was asked for. -/
def logText (format : LogFormat) (line : Log.Line) : String :=
  match format with
  | .pretty => line.render
  | .json =>
    Json.Writer.compact (Json.Writer.object
      ([("level", Json.Writer.text line.level.label),
        ("message", Json.Writer.text line.message)] ++
       line.code.toList.map (fun code => ("code", Json.Writer.text code.word)) ++
       line.context.toList.map fun context => ("e", Json.Writer.text context)))

/-- The form of log lines that an invocation asks for. -/
def logFormatOf : Option Invocation → LogFormat
  | some (.run common _) => common.format
  | _ => .pretty

end Command

end Monomorph

open Monomorph.Command in
/-- Runs the command that the words ask for. A file that turns out not to be
    writable is a fault of the storage, under which the outcome is another
    one. -/
def main (words : List String) : IO UInt32 := do
  let invocation := Invocation.parse? words
  let nodes ← (invocation.elim [] pathsRead).mapM fun path => do
    return (path, ← nodeAt path)
  let env ← environment
  let storage : Storage :=
    { node := fun path => (nodes.lookup path).getD .missing
      creationFault? := fun _ => none
      writingFault? := fun _ => none }
  let outcome := run storage env words
  let outcome ← match ← writeFiles storage outcome.written with
    | none => pure outcome
    | some storage => pure (run storage env words)
  for line in outcome.log do
    IO.eprintln (logText (logFormatOf invocation) line)
  IO.print outcome.stdout
  if outcome.exit = 2 then
    IO.eprint helpText
  return outcome.exit.toUInt32

import Monomorph.Command.Storage

/-!
# Directories in Memory

A directory is a list of files, each under the parts of its path. A directory
exists where a file lies below it, and the working directory always does. Of
what surrounds it only that is known which every system has: the directories
above it up to the root, the usual directories below the root, and some devices
in `/dev`.

A path is followed part by part, and the first part that leads nowhere decides
why the path does not. Each part but the last has to lead to a directory, so a
part after a file is a fault of its own kind, even if it is a point or two.

## Main definitions

* `Place`: Where a path can lead.
* `Device`, `Content`: What can stand there.
* `Directory`: Files held in memory.
* `Directory.namesOf`: The names that a path goes through.
* `Directory.locate`: The place that a path leads to.
* `Directory.target`: The place at which a path creates a file.
* `Directory.storage`: The directory as a command knows it.
* `Directory.added`, `Directory.shown`: What becomes of the texts a command
  writes.
-/

namespace Monomorph

namespace Command

/-- A place among the files: the names that lead to it from the root. -/
structure Place where
  names : List String
deriving DecidableEq, Repr

namespace Place

/-- The place with a name in it. -/
def child (place : Place) (name : String) : Place :=
  { names := place.names ++ [name] }

/-- The place above. The root is its own. -/
def parent (place : Place) : Place :=
  { names := place.names.dropLast }

end Place

/-- A device: one that is empty and forgets what it is given, one that never has
    room, what the command prints to, and a terminal where there is none. -/
inductive Device where
  | null
  | full
  | output
  | terminal
deriving DecidableEq, Repr

/-- What stands at a place. -/
inductive Content where
  | directory
  | file (text : String)
  | device (device : Device)
deriving DecidableEq, Repr

/-- How many bytes a name may have. -/
def maxNameBytes : Nat := 255

/-- How many bytes a path may have. -/
def maxPathBytes : Nat := 4095

/-- Files held in memory, each under the parts of its path, and the names that
    lead from the root to the directory they are in. -/
structure Directory where
  files : List (List String × String)
  home : List String := ["tmp", "monomorph"]

namespace Directory

/-- What stands between the slashes of a path. -/
def splitPath (path : String) : List String :=
  (path.toList.splitOn '/').map String.ofList

/-- The parts that lead somewhere. -/
def leading (parts : List String) : List String :=
  parts.filter fun part => part != "" && part != "."

/-- The names that a path goes through. -/
def namesOf (path : String) : List String :=
  leading (splitPath path)

/-- The directory with the given files. -/
def ofFiles (files : List (String × String)) : Directory where
  files := files.map fun file => (namesOf file.1, file.2)

/-- What stands below the working directory. -/
def contentBelow (d : Directory) (names : List String) : Option Content :=
  match d.files.lookup names with
  | some text => some (.file text)
  | none =>
    if d.files.any fun file => names.isPrefixOf file.1 then some .directory else none

/-- The usual directories below the root. -/
def usualDirectories : List String :=
  ["bin", "boot", "dev", "etc", "home", "lib", "media", "mnt", "opt", "root", "run", "sbin",
    "srv", "tmp", "usr", "var"]

/-- The devices that are known. Nothing waits at the standard input. -/
def devices : List (List String × Device) :=
  [(["dev", "null"], .null), (["dev", "full"], .full), (["dev", "tty"], .terminal),
    (["dev", "stdin"], .null), (["dev", "stdout"], .output)]

/-- What every system has. -/
def systemContent (names : List String) : Option Content :=
  match names with
  | [] => some .directory
  | [name] => if usualDirectories.contains name then some .directory else none
  | names => (devices.lookup names).map .device

/-- What stands at a place, as far as it is known. -/
def content? (d : Directory) (place : Place) : Option Content :=
  if place.names.isPrefixOf d.home then some .directory
  else
    match d.home.isPrefixOf? place.names with
    | some names => d.contentBelow names
    | none => systemContent place.names

/-- The place where a path starts. -/
def start (d : Directory) (path : String) : Place :=
  { names := if path.startsWith "/" then [] else d.home }

/-- Follows one part of a path. An empty part and a point stay where they are,
    and two points lead up. -/
def enter (d : Directory) (place : Place) (part : String) : Except FileFault Place :=
  if d.content? place ≠ some .directory then .error .notDirectory
  else if part == "" || part == "." then .ok place
  else if part == ".." then .ok place.parent
  else if maxNameBytes < part.utf8ByteSize then .error .nameTooLong
  else if (d.content? (place.child part)).isSome then .ok (place.child part)
  else .error .notFound

/-- Follows the parts of a path. -/
def follow (d : Directory) (place : Place) (parts : List String) : Except FileFault Place :=
  parts.foldlM d.enter place

/-- The parts of a path, if it is one at all. -/
def partsOf (path : String) : Except FileFault (List String) :=
  if path == "" then .error .notFound
  else if maxPathBytes < path.utf8ByteSize then .error .nameTooLong
  else .ok (splitPath path)

/-- The place that a path leads to. -/
def locate (d : Directory) (path : String) : Except FileFault Place := do
  d.follow (d.start path) (← partsOf path)

/-- The place at which a path creates a file or writes one anew. The way to it
    comes first; then a path that asks for a directory, by points or by a slash
    at its end, is refused before its name is looked at. -/
def target (d : Directory) (path : String) : Except FileFault Place := do
  let parts ← partsOf path
  let named := (parts.reverse.dropWhile (· == "")).reverse
  match named.getLast? with
  | none => .error .isDirectory
  | some last =>
    let place ← d.follow (d.start path) named.dropLast
    if d.content? place ≠ some .directory then .error .notDirectory
    else if last == "." || last == ".." || named.length < parts.length then .error .isDirectory
    else if maxNameBytes < last.utf8ByteSize then .error .nameTooLong
    else if d.content? (place.child last) = some .directory then .error .isDirectory
    else .ok (place.child last)

/-- What stands at a path. A path that leads nowhere has nothing, whatever the
    reason. -/
def node (d : Directory) (path : String) : Node :=
  match d.locate path with
  | .error _ => .missing
  | .ok place =>
    match d.content? place with
    | none => .missing
    | some .directory => .unreadable .isDirectory
    | some (.file text) => .file text
    | some (.device .terminal) => .unreadable .noDevice
    | some (.device _) => .file ""

/-- The device that writing at a path writes to, if there is one. -/
def deviceAt? (d : Directory) (path : String) : Option Device :=
  match d.target path with
  | .error _ => none
  | .ok place =>
    match d.content? place with
    | some (.device device) => some device
    | _ => none

/-- Why a file cannot be created at a path, if it cannot. -/
def creationFault? (d : Directory) (path : String) : Option FileFault :=
  match d.target path with
  | .error fault => some fault
  | .ok _ => if d.deviceAt? path = some .terminal then some .noDevice else none

/-- Why a file created at a path takes no text, if it takes none. -/
def writingFault? (d : Directory) (path : String) : Option FileFault :=
  if d.deviceAt? path = some .full then some .noSpace else none

/-- The directory as a command knows it. -/
def storage (d : Directory) : Storage where
  node := d.node
  creationFault? := d.creationFault?
  writingFault? := d.writingFault?

/-- The name, from the working directory, of the file that writing at a path
    adds to the directory. A file that was there before, or that lies outside,
    is not added. -/
def added? (d : Directory) (path : String) : Option String :=
  match d.target path with
  | .error _ => none
  | .ok place =>
    match d.home.isPrefixOf? place.names with
    | none => none
    | some names =>
      if (d.contentBelow names).isSome then none else some ("/".intercalate names)

/-- The files that texts written at their paths add to the directory. -/
def added (d : Directory) (written : List (String × String)) : List (String × String) :=
  written.filterMap fun file => (d.added? file.1).map fun name => (name, file.2)

/-- What is printed of texts written at their paths. -/
def shown (d : Directory) (written : List (String × String)) : String :=
  String.join ((written.filter fun file => d.deviceAt? file.1 = some .output).map (·.2))

end Directory

end Command

end Monomorph

/-!
# Files

What a command needs to know about files: what stands at a path, whether a file
can be created there, and whether it then takes a text. A command is a function
of that, so it runs alike on a disk and on a directory held in memory.

## Main definitions

* `FileFault`: Why a file cannot be read, created or written.
* `Node`: What stands at a path.
* `Storage`: What a command knows about files.
-/

namespace Monomorph

namespace Command

/-- Why a file cannot be read, created or written. -/
inductive FileFault where
  | notFound
  | noDevice
  | notDirectory
  | isDirectory
  | noSpace
  | nameTooLong
  | other (text : String)
deriving DecidableEq, Repr

/-- The wording of a fault, with its number on the system. -/
def FileFault.message : FileFault → String
  | notFound => "No such file or directory (os error 2)"
  | noDevice => "No such device or address (os error 6)"
  | notDirectory => "Not a directory (os error 20)"
  | isDirectory => "Is a directory (os error 21)"
  | noSpace => "No space left on device (os error 28)"
  | nameTooLong => "File name too long (os error 36)"
  | other text => text

/-- What stands at a path: nothing, something that cannot be read, or a text. -/
inductive Node where
  | missing
  | unreadable (fault : FileFault)
  | file (text : String)
deriving DecidableEq, Repr

/-- What a command knows about files: what stands at each path, why a file
    cannot be created there, if it cannot, and why a file created there takes no
    text, if it takes none. -/
structure Storage where
  node : String → Node
  creationFault? : String → Option FileFault
  writingFault? : String → Option FileFault

end Command

end Monomorph

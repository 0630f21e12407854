/-!
# Faults of the file system

Why a file cannot be opened, read or written.
-/

namespace DrillPost

inductive FileFault
  | notFound
  | alreadyExists
  | notDirectory
  | isDirectory
  /-- The octets of the file are not a text. -/
  | notText
  /-- A device reports a fault of its own. -/
  | device (text : String)
  deriving DecidableEq, Repr

/-- The fault in the words of the operating system. -/
def FileFault.message : FileFault → String
  | notFound => "No such file or directory (os error 2)"
  | alreadyExists => "File exists (os error 17)"
  | notDirectory => "Not a directory (os error 20)"
  | isDirectory => "Is a directory (os error 21)"
  | notText => "stream did not contain valid UTF-8"
  | device text => text

end DrillPost

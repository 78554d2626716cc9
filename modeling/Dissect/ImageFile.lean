/-
Image files: what is read of a file, and when it is refused.

A file is taken whole or not at all: one that is not there is an error
of the file system, one that is larger than the options allow is refused
by its size.
-/
import Dissect.Bytes
import Dissect.Error
import Dissect.Options

namespace Dissect

/-- What is known of a file: that it is not there, or what it holds. -/
inductive FileState where
  | missing
  | present (content : Bytes)
  deriving DecidableEq, Repr

/-- The system's words for a file that is not there. -/
def missingFile : String := "No such file or directory (os error 2)"

/-- The bytes of a file, if it is there and not too large. -/
def FileState.read (options : LoadOptions) : FileState → Except LoadError Bytes
  | .missing => .error (.file missingFile)
  | .present content =>
    if options.maxFileSize.toNat < content.size then
      .error (.fileTooLarge options.maxFileSize.toNat content.size)
    else .ok content

end Dissect

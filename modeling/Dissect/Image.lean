/-
What loading produces, whatever the format: segments, symbols and the
few facts that decoding and analysis need.

Addresses are resolved through the segments alone, so an image
is plain data. An image that was never loaded is one with no segments
and no symbol table.
-/
import Dissect.Error
import Dissect.Symbol.Table

namespace Dissect

/-- The analysis suited to an image. -/
inductive Analyzer where
  | generic
  | visualBasic
  deriving DecidableEq, Repr, Inhabited

/-- The name of an analysis. -/
def Analyzer.name : Analyzer → String
  | .generic => "generic"
  | .visualBasic => "visualbasic"

/-- What kind of program an image holds, as far as loading can tell. -/
inductive Variant where
  | generic
  /-- It imports the Visual Basic runtime. -/
  | visualBasic
  deriving DecidableEq, Repr, Inhabited

namespace Variant

/-- How a variant is shown. -/
def describe : Variant → String
  | .generic => "Generic"
  | .visualBasic => "VisualBasic"

/-- The analysis suited to a variant. -/
def analyzer : Variant → Analyzer
  | .generic => .generic
  | .visualBasic => .visualBasic

end Variant

/-- A loaded image. -/
structure Image where
  /-- The format it was read by. -/
  format : String
  /-- The width of its addresses, zero before a load. -/
  bits : Nat := 0
  /-- The processor its code is for. -/
  processor : Option String := none
  /-- The address it starts at. -/
  entryPoint : Option Address := none
  analyzer : Analyzer := .generic
  segments : List Segment := []
  symbols : Option SymbolTable := none
  deriving DecidableEq

namespace Image

/-- The file offset behind an address. -/
def offset (image : Image) (a : Address) : Except LoadError UInt64 :=
  match fileOffset? image.segments a with
  | some offset => .ok offset
  | none => .error (.unresolved a)

/-- The position of the segment that contains an address. -/
def segmentIndex? (image : Image) (a : Address) : Option Nat :=
  Dissect.segmentIndex? image.segments a

end Image

end Dissect

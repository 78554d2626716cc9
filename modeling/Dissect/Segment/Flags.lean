/-
Segment flags: what a segment holds and how it may be accessed.

# Text form

The names of the set flags in the order of their bits, then the bits
that have no name as one hexadecimal numeral, joined by ` | `; no flags
at all is the empty text. Reading takes the parts in any order and any
number of times, blanks around them; a numeral is read as bits whatever
its bits are called. A missing part and an unknown name are refused.
-/
import Dissect.Text.Blank
import Dissect.Text.Numeral

namespace Dissect

/-- A set of segment flags; bits without a name are kept. -/
structure SegmentFlags where
  bits : UInt32
  deriving DecidableEq, Repr, Inhabited

namespace SegmentFlags

-- ============================================================ the flags

/-- No flags. -/
def empty : SegmentFlags := ⟨0⟩

/-- The segment holds code. -/
def code : SegmentFlags := ⟨0x01⟩

/-- The segment holds initialised data. -/
def data : SegmentFlags := ⟨0x02⟩

/-- The segment can be read. -/
def read : SegmentFlags := ⟨0x10⟩

/-- The segment can be written. -/
def write : SegmentFlags := ⟨0x20⟩

/-- The segment holds uninitialised data. -/
def bss : SegmentFlags := ⟨0x40⟩

/-- The flags of either set. -/
def union (a b : SegmentFlags) : SegmentFlags := ⟨a.bits ||| b.bits⟩

/-- Every flag of `b` is set in `a`. -/
def contains (a b : SegmentFlags) : Bool := a.bits &&& b.bits == b.bits

/-- Some flag of `b` is set in `a`. -/
def intersects (a b : SegmentFlags) : Bool := a.bits &&& b.bits != 0

/-- The flags that have a name, by bit. -/
def named : List (String × SegmentFlags) :=
  [("CODE", code), ("DATA", data), ("READ", read), ("WRITE", write), ("BSS", bss)]

/-- The access letters: read, write, execute, a dash for each one that
is not set. -/
def access (f : SegmentFlags) : String :=
  String.ofList
    [ if f.contains read then 'r' else '-',
      if f.contains write then 'w' else '-',
      if f.contains code then 'x' else '-' ]

-- ============================================================ text form

/-- The bits that have no name. -/
def unnamed (f : SegmentFlags) : UInt32 :=
  named.foldl (fun bits n => bits &&& ~~~ n.2.bits) f.bits

/-- The parts of the text form. -/
def parts (f : SegmentFlags) : List String :=
  (named.filter fun n => f.contains n.2).map (·.1)
    ++ if f.unnamed = 0 then [] else [Numeral.hex f.unnamed.toNat]

/-- The text form. -/
def text (f : SegmentFlags) : String := " | ".intercalate f.parts

/-- The word of a hexadecimal numeral behind its `0x`; a plus sign may
stand before the digits. -/
def numeral? : List Char → Option Nat
  | '+' :: digits => Numeral.ofHex? UInt32.size digits
  | digits => Numeral.ofHex? UInt32.size digits

/-- The flags one part stands for. -/
def ofPart? (part : List Char) : Option SegmentFlags :=
  match part with
  | '0' :: 'x' :: rest => (numeral? rest).map fun n => ⟨UInt32.ofNat n⟩
  | _ => (named.find? fun n => n.1.toList == part).map (·.2)

/-- The flags of a list of parts. -/
def ofParts? (parts : List (List Char)) : Option SegmentFlags :=
  parts.foldlM (fun f part => (ofPart? (Text.trim part)).map f.union) empty

/-- The flags a text stands for. -/
def ofText? (s : String) : Option SegmentFlags :=
  let cs := Text.trim s.toList
  if cs.isEmpty then some empty else ofParts? (Text.splitAt '|' cs)

end SegmentFlags

end Dissect

/-
The section table of a PE image and the segments its sections become.

A section occupies the larger of its size in memory and its size in the
file. Sections that occupy nothing, or whose range leaves the address
space, become no segment.
-/
import Dissect.Pe.Header
import Dissect.Segment.Basic

namespace Dissect.Pe

/-- A section header. -/
structure Section where
  /-- The eight bytes of the name field. -/
  rawName : List UInt8
  virtualSize : UInt32
  rva : UInt32
  fileSize : UInt32
  fileOffset : UInt32
  characteristics : UInt32
  deriving DecidableEq, Repr

namespace Section

/-- The name: the bytes of the name field up to the first NUL. -/
def name (s : Section) : String := Utf8.decodeLossy (s.rawName.takeWhile (· ≠ 0))

/-- The size of the range a section occupies. -/
def mappedSize (s : Section) : UInt32 := max s.virtualSize s.fileSize

/-- Some bit of `mask` is set in the characteristics. -/
def has (s : Section) (mask : UInt32) : Bool := s.characteristics &&& mask != 0

/-- The segment flags that the characteristics ask for. Code is what is
marked as code or as executable. -/
def flags (s : Section) : SegmentFlags :=
  let flag (mask : UInt32) (f : SegmentFlags) : SegmentFlags :=
    if s.has mask then f else .empty
  [ flag (0x00000020 ||| 0x20000000) .code, flag 0x00000040 .data, flag 0x00000080 .bss,
    flag 0x40000000 .read, flag 0x80000000 .write ].foldl .union .empty

/-- The segment a section becomes at an image base. -/
def toSegment? (s : Section) (base : Address) : Option Segment := do
  let start ← sum? base s.rva.toNat
  Segment.ofSize? s.name s.fileOffset.toUInt64 start s.mappedSize.toNat s.flags

/-- The section starts at an address but becomes no segment. -/
def isEmptyAt (s : Section) (base : Address) : Bool :=
  (sum? base s.rva.toNat).isSome && (s.toSegment? base).isNone

end Section

/-- The size of a section header. -/
def sectionHeaderSize : Nat := 40

/-- The word at a place of a header's bytes, all of which are there. -/
def fieldOf (raw : Bytes) (place : Nat) : UInt32 := (raw.word32? place).getD 0

/-- The section header at an offset. -/
def readSection (data : Bytes) (offset : Nat) : Except ImageError Section := do
  let raw ← orTruncated (offset + sectionHeaderSize) data.size
    (data.slice? offset sectionHeaderSize)
  pure
    { rawName := (raw.extract 0 8).toList
      virtualSize := fieldOf raw 8
      rva := fieldOf raw 12
      fileSize := fieldOf raw 16
      fileOffset := fieldOf raw 20
      characteristics := fieldOf raw 36 }

/-- A table of `count` section headers at an offset; a table longer than
the limit is not looked at. -/
def readSections (data : Bytes) (offset count limit : Nat) :
    Except ImageError (List Section) :=
  if limit < count then .error (.sectionCount count limit)
  else (List.range count).mapM fun i => readSection data (offset + i * sectionHeaderSize)

/-- The segments of sections at an image base, in file order. -/
def segmentsOf (sections : List Section) (base : Address) : List Segment :=
  sections.filterMap fun s => s.toSegment? base

end Dissect.Pe

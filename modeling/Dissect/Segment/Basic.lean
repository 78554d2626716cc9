/-
Segments: contiguous ranges of virtual addresses backed by a region of
the image file, the unit in which addresses are resolved.

A segment's range is never empty, and its end is itself an address: both
are part of the type, so no range wraps around the address space. The
first segment of a list that contains an address resolves it.
-/
import Dissect.Segment.Flags

namespace Dissect

/-- Addresses and file offsets are 64-bit words. -/
abbrev Address := UInt64

/-- The sum of two words, when it is a word. -/
def sum? (a : UInt64) (n : Nat) : Option UInt64 :=
  if a.toNat + n < UInt64.size then some (UInt64.ofNat (a.toNat + n)) else none

/-- A sum that is a word is the sum of the numbers. -/
theorem sum?_eq_some_iff {a b : UInt64} {n : Nat} :
    sum? a n = some b ↔ b.toNat = a.toNat + n := by
  unfold sum?
  split
  · next h =>
    rw [Option.some.injEq, ← UInt64.toNat_inj, UInt64.toNat_ofNat_of_lt' h]
    exact eq_comm
  · next h =>
    have hb := b.toNat_lt_size
    simp only [reduceCtorEq, false_iff]
    omega

/-- A range of addresses `[start, stop)` backed by the file from
`offset` on. -/
structure Segment where
  name : String
  offset : UInt64
  start : Address
  stop : Address
  flags : SegmentFlags
  nonempty : start < stop
  deriving DecidableEq

namespace Segment

/-- The segment of `size` addresses from `start` on; none if there are
none of them, or if their end is no address. -/
def ofSize? (name : String) (offset : UInt64) (start : Address) (size : Nat)
    (flags : SegmentFlags) : Option Segment :=
  match sum? start size with
  | some stop =>
    if h : start < stop then some ⟨name, offset, start, stop, flags, h⟩ else none
  | none => none

/-- The number of addresses. -/
def size (s : Segment) : UInt64 := s.stop - s.start

/-- The segment's range holds the address. -/
@[inline] def contains (s : Segment) (a : Address) : Bool := s.start ≤ a && a < s.stop

/-- Some flag of `flags` is set. -/
def hasAny (s : Segment) (flags : SegmentFlags) : Bool := s.flags.intersects flags

/-- The file offset behind an address of the segment, when it is a
word. -/
@[inline] def fileOffset? (s : Segment) (a : Address) : Option UInt64 :=
  if s.contains a then sum? s.offset (a.toNat - s.start.toNat) else none

/-- How a segment is shown: its name, its range and its access. -/
def describe (s : Segment) : String :=
  "Segment '" ++ s.name ++ "' [" ++ Numeral.hex s.start.toNat ++ ", "
    ++ Numeral.hex s.stop.toNat ++ ") " ++ s.flags.access

end Segment

/-- The file offset behind an address, from the first segment that gives
one. -/
def fileOffset? (segments : List Segment) (a : Address) : Option UInt64 :=
  segments.findSome? fun s => s.fileOffset? a

/-- The position of the first segment that contains an address. -/
def segmentIndex? (segments : List Segment) (a : Address) : Option Nat :=
  segments.findIdx? fun s => s.contains a

end Dissect

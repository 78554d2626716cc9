/-
Image bytes and the reads everything else is made of: little-endian
words and NUL-terminated strings at a position.

# Reads are exact

Positions are natural numbers, so a position past any file is simply
past the end and no sum of positions can wrap. A read is answered only
when all of its bytes are there.

A string needs its terminator: it must stand among the bytes at most
`limit` places after the start. A run without one is refused rather
than cut.
-/
import Dissect.Text.Utf8

namespace Dissect

/-- The bytes of an image or of a part of one. -/
abbrev Bytes := Array UInt8

namespace Bytes

/-- The `count` bytes at `start`, if all are there. -/
def slice? (data : Bytes) (start count : Nat) : Option Bytes :=
  if start + count ≤ data.size then some (data.extract start (start + count))
  else none

/-- The number that the `width` bytes at `start` spell, least
significant first; there are zeros past the end. -/
def numberAt (data : Bytes) (start : Nat) : Nat → Nat
  | 0 => 0
  | width + 1 => (data.getD start 0).toNat + 256 * numberAt data (start + 1) width

/-- The number in the `width` bytes at `start`, if all are there. -/
def word? (data : Bytes) (width start : Nat) : Option Nat :=
  if start + width ≤ data.size then some (numberAt data start width) else none

/-- The 16-bit word at `start`. -/
def word16? (data : Bytes) (start : Nat) : Option UInt16 :=
  (word? data 2 start).map UInt16.ofNat

/-- The 32-bit word at `start`. -/
def word32? (data : Bytes) (start : Nat) : Option UInt32 :=
  (word? data 4 start).map UInt32.ofNat

/-- The 64-bit word at `start`. -/
def word64? (data : Bytes) (start : Nat) : Option UInt64 :=
  (word? data 8 start).map UInt64.ofNat

/-- The position of the first NUL among the `count` bytes from `start`
on. -/
def nulFrom? (data : Bytes) : (count start : Nat) → Option Nat
  | 0, _ => none
  | count + 1, start =>
    if h : start < data.size then
      if data[start] = 0 then some start else nulFrom? data count (start + 1)
    else none

/-- The NUL-terminated string at `start`, of at most `limit` bytes. -/
def string? (data : Bytes) (start limit : Nat) : Option String :=
  (nulFrom? data (min (limit + 1) (data.size - start)) start).map fun stop =>
    Utf8.decodeLossy (data.extract start stop).toList

end Bytes

end Dissect

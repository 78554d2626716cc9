/-
The view of an image that directory walks read through.

# Resolution

A relative address is first added to the image base, then resolved by
the segments into a file offset, then the bytes are looked for in the
file. A sum that is no address, an address that no segment contains and
bytes that the file does not have are refused, each in its own way.

Only the start of a read is resolved; its bytes are consecutive in
the file, wherever the segment ends.
-/
import Dissect.Pe.Section

namespace Dissect.Pe

/-- An image as its directories see it. -/
structure View where
  data : Bytes
  segments : List Segment
  base : Address

namespace View

/-- The address of a relative address. -/
def address (v : View) (rva : Nat) : Except ImageError Address :=
  match sum? v.base rva with
  | some a => .ok a
  | none => .error (.unmapped rva)

/-- The file offset behind an address. -/
def offset? (v : View) (a : Address) : Option UInt64 := fileOffset? v.segments a

/-- The address of a relative address that some segment maps. -/
def mappedAddress (v : View) (rva : Nat) : Except ImageError Address := do
  let a ← v.address rva
  match v.offset? a with
  | some _ => pure a
  | none => throw (.unmapped rva)

/-- The file offset behind a relative address. -/
def offset (v : View) (rva : Nat) : Except ImageError Nat := do
  let a ← v.address rva
  match v.offset? a with
  | some offset => pure offset.toNat
  | none => throw (.unmapped rva)

/-- Something read at the file offset behind a relative address. -/
@[specialize] def readAt {α : Type} (v : View) (read? : Nat → Option α) (rva : Nat) :
    Except ImageError α := do
  let offset ← v.offset rva
  match read? offset with
  | some a => pure a
  | none => throw (.outOfFile offset)

/-- The 16-bit word at a relative address. -/
def word16 (v : View) (rva : Nat) : Except ImageError UInt16 := v.readAt v.data.word16? rva

/-- The 32-bit word at a relative address. -/
def word32 (v : View) (rva : Nat) : Except ImageError UInt32 := v.readAt v.data.word32? rva

/-- The 64-bit word at a relative address. -/
def word64 (v : View) (rva : Nat) : Except ImageError UInt64 := v.readAt v.data.word64? rva

/-- The `count` bytes at a relative address. -/
def bytes (v : View) (rva count : Nat) : Except ImageError Bytes :=
  v.readAt (fun offset => v.data.slice? offset count) rva

/-- The NUL-terminated string at a relative address, of at most `limit`
bytes. -/
def string (v : View) (rva limit : Nat) : Except ImageError String := do
  let offset ← v.offset rva
  match v.data.string? offset limit with
  | some s => pure s
  | none => throw (.unterminated rva)

end View

end Dissect.Pe

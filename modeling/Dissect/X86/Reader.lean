/-
Taking bytes off the front of an instruction.

A reader takes bytes from the front of a list and leaves the rest; it
fails only when the bytes end before it is done. So what a reader
answers depends on the bytes it took and on nothing after them.
-/
import Dissect.Bytes

namespace Dissect.X86

/-- Takes bytes off the front of a list, or runs out of them. -/
abbrev Reader (α : Type) := StateT (List UInt8) Option α

namespace Reader

/-- One byte. -/
def byte : Reader UInt8 := fun bytes =>
  match bytes with
  | [] => none
  | b :: rest => some (b, rest)

/-- The next `count` bytes. -/
def take : Nat → Reader (List UInt8)
  | 0 => pure []
  | count + 1 => do
    let b ← byte
    let rest ← take count
    pure (b :: rest)

/-- A little-endian number of `width` bytes. -/
def unsigned : Nat → Reader Nat
  | 0 => pure 0
  | width + 1 => do
    let b ← byte
    let rest ← unsigned width
    pure (b.toNat + 256 * rest)

/-- A little-endian number of `width` bytes in two's complement. -/
def signed (width : Nat) : Reader Int := do
  let n ← unsigned width
  pure (Int.bmod n (1 <<< (8 * width)))

end Reader

end Dissect.X86

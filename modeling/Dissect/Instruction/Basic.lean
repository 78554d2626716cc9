/-
Decoded instructions and the operations that build them.

# Building

A decoder starts from an address, a size and a mnemonic and appends
operands, each stamped with its position; for every kind of operand there
is a builder that makes it of its parts. Comments are only ever added.
`reset` clears what decoding produced and keeps the comments.

# Payloads

An instruction may hold data of the decoder that made it. Whoever
replaces or clears a payload gets back the one that was there, so that
every payload is let go of exactly once: `attach` and `reset` return the
payload they displace.
-/
import Dissect.Instruction.Flags
import Dissect.Instruction.Operand

namespace Dissect

/-- Data of a decoder that an instruction holds. -/
inductive Payload where
  /-- The decode result of the x86 decoder: the encoded length. -/
  | decoded (length : Nat)
  /-- Data of another backend, of a type known by its name. -/
  | foreign (backend : String) (type : String)
  deriving DecidableEq, Repr

namespace Payload

/-- The name of the backend that made the payload. -/
def backend : Payload → String
  | .decoded _ => "iced-x86"
  | .foreign backend _ => backend

/-- The encoded length, of an x86 decode result. -/
def decodedLength? : Payload → Option Nat
  | .decoded length => some length
  | .foreign _ _ => none

/-- Foreign data of the named type. -/
def holds (type : String) : Payload → Bool
  | .decoded _ => false
  | .foreign _ t => t == type

/-- How a payload is shown. -/
def describe (p : Payload) : String :=
  "Payload \x7b backend: \"" ++ p.backend ++ "\", .. \x7d"

end Payload

/-- A decoded instruction. -/
structure Instruction where
  /-- The address of its first byte. -/
  address : Address
  /-- Its length in bytes. -/
  size : UInt32
  mnemonic : String
  operands : Array Operand := #[]
  comments : Array String := #[]
  flags : InstructionFlags := .empty
  /-- The position of the segment it lies in. -/
  segment : Option Nat := none
  payload : Option Payload := none
  deriving DecidableEq, Repr

namespace Instruction

/-- The address after the last byte; it wraps at the top of the address
space. -/
def stop (i : Instruction) : Address := i.address + i.size.toUInt64

/-- Some flag of `flags` is set. -/
def hasAny (i : Instruction) (flags : InstructionFlags) : Bool := i.flags.intersects flags

/-- Invalid, and nothing else. -/
def isInvalid (i : Instruction) : Bool := i.flags == .invalid

/-- Append an operand at the next position. -/
def append (i : Instruction) (kind : OperandKind) : Instruction :=
  { i with operands := i.operands.push ⟨kind, i.operands.size⟩ }

/-- Append a register. -/
def register (i : Instruction) (id : RegisterId) : Instruction :=
  i.append (.register { id := id })

/-- Append a register with a tag. -/
def taggedRegister (i : Instruction) (id : RegisterId) (tag : UInt32) : Instruction :=
  i.append (.register ⟨id, tag⟩)

/-- Append an immediate. -/
def immediate (i : Instruction) (value : Int64) : Instruction := i.append (.immediate value)

/-- Append an immediate that is given as an unsigned word. -/
def unsignedImmediate (i : Instruction) (value : UInt64) : Instruction :=
  i.append (.immediate value.toInt64)

/-- Append memory at a known address. -/
def memory (i : Instruction) (a : Address) : Instruction := i.append (.memory a)

/-- Append a reference relative to one register. -/
def displacement (i : Instruction) (base : RegisterId) (d : Int64) : Instruction :=
  i.append (.displacement (.ofParts (some { id := base }) none 1 d))

/-- Append a reference with optional base and index, its scale at least
one. -/
def indexed (i : Instruction) (base index : Option RegisterId) (scale : UInt32) (d : Int64) :
    Instruction :=
  i.append (.displacement
    (.ofParts (base.map ({ id := · })) (index.map ({ id := · })) scale d))

/-- Add a comment. -/
def comment (i : Instruction) (text : String) : Instruction :=
  { i with comments := i.comments.push text }

/-- Hold a payload; also the payload it displaces. -/
def attach (i : Instruction) (p : Payload) : Instruction × Option Payload :=
  ({ i with payload := some p }, i.payload)

/-- Clear flags, operands and payload; also the payload let go of. -/
def reset (i : Instruction) : Instruction × Option Payload :=
  ({ i with flags := .empty, operands := #[], payload := none }, i.payload)

end Instruction

end Dissect

/-
What an x86 engine answers.

# The engine

An engine takes the bytes at an address apart. It is no part of this
library: here is only what an answer of it can be asked for. Of an
instruction that is its name, its length, how control goes on, the kind
of each operand, and the numbers behind the kinds. The numbers belong to
the instruction and not to one of the operands: it has at most one branch
target, one memory reference, one immediate, and one more of a byte.

Everything that is made of such an answer is in `X86.Decode`, and holds
for any engine. The library runs with the one of `X86.Subset`.
-/
import Dissect.X86.Mode

namespace Dissect.X86

/-- How control goes on after an instruction. -/
inductive Flow where
  | next
  | unconditionalBranch
  | indirectBranch
  | conditionalBranch
  | ret
  | call
  | indirectCall
  | interrupt
  /-- The start, the end or the abort of a transaction. -/
  | transaction
  | exception
  deriving DecidableEq, Repr

/-- The kind of an operand. The number of an immediate is as wide as the
first size, and the operand as wide as the second one if there is one. -/
inductive Part where
  | register (id : RegisterId)
  | nearBranch16
  | nearBranch32
  | nearBranch64
  | immediate8
  /-- The second immediate of an instruction that has two. -/
  | immediate8Second
  | immediate16
  | immediate32
  | immediate64
  | immediate8to16
  | immediate8to32
  | immediate8to64
  | immediate32to64
  /-- The memory reference of the instruction. -/
  | memory
  /-- Any other kind: a far pointer, or memory of a string instruction. -/
  | other
  deriving DecidableEq, Repr

/-- An instruction as an engine answers it. A number that no operand asks
for can be anything. -/
structure Raw where
  /-- Its name, in the engine's spelling. -/
  mnemonic : String
  length : Nat
  flow : Flow := .next
  parts : List Part := []
  nearBranchTarget : UInt64 := 0
  immediate8 : UInt8 := 0
  immediate8Second : UInt8 := 0
  immediate16 : UInt16 := 0
  immediate32 : UInt32 := 0
  immediate64 : UInt64 := 0
  immediate8to16 : Int16 := 0
  immediate8to32 : Int32 := 0
  immediate8to64 : Int64 := 0
  immediate32to64 : Int64 := 0
  /-- The base of the memory reference, zero if there is none. -/
  memoryBase : RegisterId := 0
  /-- The index of the memory reference, zero if there is none. -/
  memoryIndex : RegisterId := 0
  memoryIndexScale : UInt32 := 1
  /-- The memory is at a distance from the next instruction. -/
  ipRelative : Bool := false
  /-- The address it is at then. -/
  ipRelativeAddress : UInt64 := 0
  /-- The displacement of the memory reference, 32 bits of it. -/
  memoryDisplacement32 : UInt32 := 0
  /-- The displacement of the memory reference, as wide as addresses can
  be. -/
  memoryDisplacement64 : UInt64 := 0
  deriving DecidableEq, Repr

/-- What an engine makes of the bytes at the front of a list. -/
inductive Outcome where
  | instruction (r : Raw)
  /-- They are no instruction. -/
  | refused
  /-- They end before they are one. -/
  | short
  deriving DecidableEq, Repr

namespace Outcome

/-- The instruction, if there is one. -/
def raw? : Outcome → Option Raw
  | .instruction r => some r
  | _ => none

end Outcome

/-- Takes the bytes at an address apart, in a mode. -/
structure Engine where
  read : Mode → Address → List UInt8 → Outcome

end Dissect.X86

/-
Operands of decoded instructions.

Register identifiers are numbers owned by whoever decoded the
instruction; only the matching table of register names can say what
they are called.
-/
import Dissect.Segment.Basic

namespace Dissect

/-- A register's number in its decoder's numbering. -/
abbrev RegisterId := UInt32

/-- A register with a decoder-defined tag. -/
structure Register where
  id : RegisterId
  tag : UInt32 := 0
  deriving DecidableEq, Repr, Inhabited

/-- A memory reference `[base + index * scale + displacement]`. -/
structure MemoryOperand where
  base : Option Register
  index : Option Register
  scale : UInt32
  displacement : Int64
  deriving DecidableEq, Repr

namespace MemoryOperand

/-- A memory reference whose scale is at least one. -/
def ofParts (base index : Option Register) (scale : UInt32) (displacement : Int64) :
    MemoryOperand :=
  ⟨base, index, max scale 1, displacement⟩

/-- A scale of zero is taken for one. -/
theorem one_le_scale_ofParts (base index : Option Register) (scale : UInt32)
    (d : Int64) : 1 ≤ (ofParts base index scale d).scale := by
  show 1 ≤ if scale ≤ 1 then 1 else scale
  split
  · exact UInt32.le_refl 1
  · next hmore => exact UInt32.le_of_lt (UInt32.not_le.mp hmore)

/-- Neither base nor index: the displacement is an address by itself. -/
def displacementOnly (m : MemoryOperand) : Bool := m.base.isNone && m.index.isNone

end MemoryOperand

/-- What an operand is. -/
inductive OperandKind where
  | register (r : Register)
  /-- A value, signed. -/
  | immediate (value : Int64)
  /-- Memory at a known address. -/
  | memory (address : Address)
  /-- Memory at an address that registers determine. -/
  | displacement (m : MemoryOperand)
  /-- An operand that is not modelled; it is never shown. -/
  | unknown
  deriving DecidableEq, Repr

/-- An operand and its place in the instruction. -/
structure Operand where
  kind : OperandKind
  position : Nat
  deriving DecidableEq, Repr

namespace Operand

/-- The operand is a register. -/
def isRegister (o : Operand) : Bool := o.kind matches .register _

/-- The operand is an immediate value. -/
def isImmediate (o : Operand) : Bool := o.kind matches .immediate _

/-- The operand is memory at an address. -/
def isMemory (o : Operand) : Bool := o.kind matches .memory _

/-- The operand is memory at registers and a displacement. -/
def isDisplacement (o : Operand) : Bool := o.kind matches .displacement _

/-- The signed value of an immediate or a known address. -/
def signed? (o : Operand) : Option Int64 :=
  match o.kind with
  | .immediate v => some v
  | .memory a => some a.toInt64
  | _ => none

/-- The unsigned value of an immediate or a known address. -/
def unsigned? (o : Operand) : Option UInt64 :=
  match o.kind with
  | .immediate v => some v.toUInt64
  | .memory a => some a
  | _ => none

end Operand

end Dissect

/-
Instruction flags: a coarse classification of what an instruction does.
Flags combine: a conditional jump is a jump and conditional.
-/
import Dissect.Text.Numeral

namespace Dissect

/-- A set of instruction flags; bits without a name are kept. -/
structure InstructionFlags where
  bits : UInt32
  deriving DecidableEq, Repr, Inhabited

namespace InstructionFlags

/-- No flags. -/
def empty : InstructionFlags := ⟨0⟩

/-- Control does not reach what follows. -/
def stop : InstructionFlags := ⟨0x00000001⟩
/-- Nothing is done. -/
def nop : InstructionFlags := ⟨0x00000002⟩
/-- Control goes elsewhere. -/
def jump : InstructionFlags := ⟨0x00000004⟩
/-- Control goes elsewhere and is expected back. -/
def call : InstructionFlags := ⟨0x00000008⟩
/-- A sum is computed. -/
def add : InstructionFlags := ⟨0x00000010⟩
/-- A difference is computed. -/
def sub : InstructionFlags := ⟨0x00000020⟩
/-- A product is computed. -/
def mul : InstructionFlags := ⟨0x00000040⟩
/-- A quotient is computed. -/
def div : InstructionFlags := ⟨0x00000080⟩
/-- A remainder is computed. -/
def mod : InstructionFlags := ⟨0x00000100⟩
/-- The bits of both operands are kept. -/
def bitAnd : InstructionFlags := ⟨0x00000200⟩
/-- The bits of either operand are kept. -/
def bitOr : InstructionFlags := ⟨0x00000400⟩
/-- The bits of one of two operands are kept. -/
def bitXor : InstructionFlags := ⟨0x00000800⟩
/-- Bits are turned over. -/
def bitNot : InstructionFlags := ⟨0x00001000⟩
/-- Something goes onto the stack. -/
def push : InstructionFlags := ⟨0x00002000⟩
/-- Something comes off the stack. -/
def pop : InstructionFlags := ⟨0x00004000⟩
/-- Two values are compared. -/
def compare : InstructionFlags := ⟨0x00008000⟩

/-- The jump depends on a condition. -/
def conditional : InstructionFlags := ⟨0x01000000⟩

/-- The instruction needs privilege. -/
def privileged : InstructionFlags := ⟨0x02000000⟩

/-- The jump goes through a table. -/
def jumpTable : InstructionFlags := ⟨0x04000000⟩

/-- The bytes are no instruction. -/
def invalid : InstructionFlags := ⟨0x10000000⟩

/-- The flags of either set. -/
def union (a b : InstructionFlags) : InstructionFlags := ⟨a.bits ||| b.bits⟩

/-- Every flag of `b` is set in `a`. -/
def contains (a b : InstructionFlags) : Bool := a.bits &&& b.bits == b.bits

/-- Some flag of `b` is set in `a`. -/
def intersects (a b : InstructionFlags) : Bool := a.bits &&& b.bits != 0

/-- The single flags and their names, by bit. -/
def named : List (String × InstructionFlags) :=
  [ ("STOP", stop), ("NOP", nop), ("JUMP", jump), ("CALL", call), ("ADD", add),
    ("SUB", sub), ("MUL", mul), ("DIV", div), ("MOD", mod), ("AND", bitAnd),
    ("OR", bitOr), ("XOR", bitXor), ("NOT", bitNot), ("PUSH", push), ("POP", pop),
    ("COMPARE", compare), ("CONDITIONAL", conditional), ("PRIVILEGED", privileged),
    ("JUMP_TABLE", jumpTable), ("INVALID", invalid) ]

/-- The bits that have no name. -/
def unnamed (f : InstructionFlags) : UInt32 :=
  named.foldl (fun bits n => bits &&& ~~~ n.2.bits) f.bits

/-- The names of the set flags by bit, then the bits that have none as
one hexadecimal numeral. -/
def names (f : InstructionFlags) : List String :=
  (named.filter fun n => f.contains n.2).map (·.1)
    ++ if f.unnamed = 0 then [] else [Numeral.hex f.unnamed.toNat]

end InstructionFlags

end Dissect

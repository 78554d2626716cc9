/-
Processor modes and instruction prefixes, and the sizes they settle.

# Prefixes

Prefixes come before the opcode in any number and order: operand size
(`0x66`), address size (`0x67`), the segment overrides, `LOCK` (`0xF0`) and
the repeat prefixes (`0xF2`, `0xF3`, of which the last counts). In 64-bit
mode a REX byte (`0x40`–`0x4F`) holds only directly before the opcode: any
legacy prefix after it cancels it, and a later one replaces it.

# Sizes

The operand size is 32 bits in 32- and 64-bit mode and 16 bits in
16-bit mode, the operand size prefix turns 16 and 32 into each other,
and REX.W makes it 64 and beats the prefix. Stack operations have no
32-bit form in 64-bit mode, and near branches are always 64 bits wide
there. The address size prefix turns 64 into 32, 32 into 16 and 16 into
32.
-/
import Dissect.Instruction.Operand

namespace Dissect.X86

/-- A processor mode, by the width of its addresses. -/
inductive Mode where
  | bits16
  | bits32
  | bits64
  deriving DecidableEq, Repr, Inhabited

namespace Mode

/-- The address width in bits. -/
def bits : Mode → Nat
  | .bits16 => 16
  | .bits32 => 32
  | .bits64 => 64

/-- The mode with an address width. -/
def ofBits? : Nat → Option Mode
  | 16 => some .bits16
  | 32 => some .bits32
  | 64 => some .bits64
  | _ => none

end Mode

/-- The size of an operand or an address. -/
inductive Size where
  | byte
  | word
  | dword
  | qword
  deriving DecidableEq, Repr, Inhabited

/-- The size in bits. -/
def Size.bits : Size → Nat
  | .byte => 8
  | .word => 16
  | .dword => 32
  | .qword => 64

/-- How many numbers there are of a size. -/
def Size.modulus (s : Size) : Nat := 1 <<< s.bits

-- ============================================================= prefixes

/-- The prefixes in force. -/
structure Prefixes where
  /-- Operand size prefix seen. -/
  operandSize : Bool := false
  /-- Address size prefix seen. -/
  addressSize : Bool := false
  /-- LOCK seen. -/
  lock : Bool := false
  /-- The last repeat prefix was `0xF3`. -/
  repeatEqual : Bool := false
  /-- The REX byte directly before the opcode. -/
  rex : Option Nat := none
  deriving DecidableEq, Repr, Inhabited

namespace Prefixes

/-- Take in a byte if it is a prefix in the mode. -/
def absorb? (mode : Mode) (p : Prefixes) (b : UInt8) : Option Prefixes :=
  match b.toNat with
  | 0x26 | 0x2E | 0x36 | 0x3E | 0x64 | 0x65 => some { p with rex := none }
  | 0x66 => some { p with operandSize := true, rex := none }
  | 0x67 => some { p with addressSize := true, rex := none }
  | 0xF0 => some { p with lock := true, rex := none }
  | 0xF2 => some { p with repeatEqual := false, rex := none }
  | 0xF3 => some { p with repeatEqual := true, rex := none }
  | n =>
    if mode = .bits64 ∧ 0x40 ≤ n ∧ n ≤ 0x4F then some { p with rex := some (n - 0x40) }
    else none

/-- The prefixes before an opcode, the opcode and the bytes after it;
none if the bytes end first. -/
def scan? (mode : Mode) (p : Prefixes) :
    List UInt8 → Option ((Prefixes × UInt8) × List UInt8)
  | [] => none
  | b :: rest =>
    match p.absorb? mode b with
    | some p => scan? mode p rest
    | none => some ((p, b), rest)

/-- REX.W: the operand size is 64 bits. -/
def rexW (p : Prefixes) : Bool := (p.rex.getD 0) / 8 % 2 == 1

/-- What REX.R adds to the register field. -/
def rexR (p : Prefixes) : Nat := (p.rex.getD 0) / 4 % 2 * 8

/-- What REX.X adds to the index field. -/
def rexX (p : Prefixes) : Nat := (p.rex.getD 0) / 2 % 2 * 8

/-- What REX.B adds to the base, register or opcode field. -/
def rexB (p : Prefixes) : Nat := (p.rex.getD 0) % 2 * 8

end Prefixes

-- ================================================================ sizes

/-- The mode and the prefixes an instruction is decoded under. -/
structure Context where
  mode : Mode
  prefixes : Prefixes
  deriving DecidableEq, Repr

namespace Context

/-- The operand size. -/
def operandSize (c : Context) : Size :=
  match c.mode with
  | .bits64 =>
    if c.prefixes.rexW then .qword
    else if c.prefixes.operandSize then .word else .dword
  | .bits32 => if c.prefixes.operandSize then .word else .dword
  | .bits16 => if c.prefixes.operandSize then .dword else .word

/-- The size of what a stack operation moves. -/
def stackSize (c : Context) : Size :=
  match c.mode with
  | .bits64 => if c.operandSize = .word then .word else .qword
  | _ => c.operandSize

/-- The size of a near branch target. -/
def branchSize (c : Context) : Size :=
  match c.mode with
  | .bits64 => .qword
  | _ => c.operandSize

/-- The address size. -/
def addressSize (c : Context) : Size :=
  match c.mode with
  | .bits64 => if c.prefixes.addressSize then .dword else .qword
  | .bits32 => if c.prefixes.addressSize then .word else .dword
  | .bits16 => if c.prefixes.addressSize then .dword else .word

end Context

-- ============================================================ registers

/-- The number of a general register. Of the byte registers, 4 to 7 are
`ah` to `bh` without a REX byte, and `spl` to `dil` with one. -/
def generalRegister (size : Size) (hasRex : Bool) (index : Nat) : RegisterId :=
  UInt32.ofNat <|
    match size with
    | .byte => if index < 4 ∨ (index < 8 ∧ !hasRex) then 1 + index else 5 + index
    | .word => 21 + index
    | .dword => 37 + index
    | .qword => 53 + index

/-- The number of a segment register. -/
def segmentRegister (index : Nat) : RegisterId := UInt32.ofNat (71 + index)

end Dissect.X86

/-
Memory references: what the ModRM byte, the SIB byte and the
displacement say.

# The three shapes

Relative to the next instruction, at a known address, or at an address
that registers determine.

# Displacements

With 32- and 64-bit addresses a displacement is signed, and it is kept
signed beside a base or an index. A known address is the displacement
as an address: sign-extended in 64-bit addressing, zero-extended
otherwise. With 16-bit addresses a displacement is always an unsigned
16-bit number, a byte being sign-extended to 16 bits first.
-/
import Dissect.X86.Mode
import Dissect.X86.Reader

namespace Dissect.X86

/-- A ModRM byte, its fields apart. -/
structure ModRM where
  mod : Nat
  reg : Nat
  rm : Nat
  deriving DecidableEq, Repr

namespace ModRM

/-- The fields of a byte. -/
def ofByte (b : UInt8) : ModRM := ⟨b.toNat / 64, b.toNat / 8 % 8, b.toNat % 8⟩

/-- The operand is a register. -/
def isRegister (m : ModRM) : Bool := m.mod == 3

end ModRM

/-- A memory reference. -/
inductive Reference where
  /-- At a distance from the next instruction. -/
  | relative (distance : Int)
  /-- At a known address. -/
  | absolute (address : Nat)
  /-- At an address that registers determine. -/
  | based (base index : Option RegisterId) (scale : UInt32) (displacement : Int)
  deriving DecidableEq, Repr

namespace Reference

/-- A reference through optional registers; without any it is at a known
address of `size`. -/
def through (size : Size) (base index : Option RegisterId) (scale : UInt32)
    (displacement : Int) : Reference :=
  match base, index with
  | none, none => .absolute (displacement % size.modulus).toNat
  | _, _ => .based base index scale displacement

end Reference

-- ==================================================== 16-bit addressing

/-- The base and index of 16-bit addressing. -/
def wordRegisters (rm : Nat) : Option Nat × Option Nat :=
  match rm with
  | 0 => (some 3, some 6)
  | 1 => (some 3, some 7)
  | 2 => (some 5, some 6)
  | 3 => (some 5, some 7)
  | 4 => (some 6, none)
  | 5 => (some 7, none)
  | 6 => (some 5, none)
  | _ => (some 3, none)

/-- The unsigned 16-bit displacement of 16-bit addressing. -/
def wordDisplacement (mod : Nat) : Reader Int :=
  match mod with
  | 1 => do
    let d ← Reader.signed 1
    pure (d % UInt16.size)
  | 2 => do
    let d ← Reader.unsigned 2
    pure d
  | _ => pure 0

/-- A memory reference of 16-bit addressing. -/
def wordReference (m : ModRM) : Reader Reference :=
  if m.mod = 0 ∧ m.rm = 6 then do
    let d ← Reader.unsigned 2
    pure (.absolute d)
  else do
    let d ← wordDisplacement m.mod
    let (base, index) := wordRegisters m.rm
    let id := generalRegister .word false
    pure (.based (base.map id) (index.map id) 1 d)

-- =========================================== 32- and 64-bit addressing

/-- The displacement that a mode field asks for, beside a base. -/
def displacement (mod : Nat) : Reader Int :=
  match mod with
  | 1 => Reader.signed 1
  | 2 => Reader.signed 4
  | _ => pure 0

/-- A memory reference through a SIB byte. The index field four means no
index, whose scale is kept all the same, and the base field five without
a mode means a displacement in place of the base. -/
def scaledReference (c : Context) (mod : Nat) : Reader Reference := do
  let size := c.addressSize
  let sib ← Reader.byte
  let indexField := sib.toNat / 8 % 8 + c.prefixes.rexX
  let index := if indexField = 4 then none else some (generalRegister size false indexField)
  let scale := UInt32.ofNat (1 <<< (sib.toNat / 64))
  if mod = 0 ∧ sib.toNat % 8 = 5 then
    let d ← Reader.signed 4
    pure (.through size none index scale d)
  else
    let d ← displacement mod
    let base := generalRegister size false (sib.toNat % 8 + c.prefixes.rexB)
    pure (.through size (some base) index scale d)

/-- A memory reference of 32- or 64-bit addressing. Mode zero with
register field five is an address by itself, relative to the next
instruction in 64-bit mode. -/
def wideReference (c : Context) (m : ModRM) : Reader Reference :=
  if m.rm = 4 then scaledReference c m.mod
  else if m.mod = 0 ∧ m.rm = 5 then do
    let d ← Reader.signed 4
    match c.mode with
    | .bits64 => pure (.relative d)
    | _ => pure (.through c.addressSize none none 1 d)
  else do
    let d ← displacement m.mod
    let base := generalRegister c.addressSize false (m.rm + c.prefixes.rexB)
    pure (.through c.addressSize (some base) none 1 d)

/-- The memory reference of a ModRM byte. -/
def reference (c : Context) (m : ModRM) : Reader Reference :=
  match c.addressSize with
  | .word => wordReference m
  | _ => wideReference c m

end Dissect.X86

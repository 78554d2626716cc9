/-
Decoding one x86 instruction, out of what an engine answers.

# Operands

A register keeps its number. A branch target and an immediate become a
signed word: an immediate as wide as its operand by its bits, one that is
narrower by its value. A far pointer and the memory of a string
instruction are not modelled.

# Memory

Memory at a distance from the next instruction, and memory without a
register, is at a known address. In 64-bit code the displacement is 64
bits wide, unless it stands beside a 32-bit register; anywhere else it
has 32 bits. As an address these are taken as they are, and beside a
register they are a signed number.

# No instruction

Bytes that are no instruction are stood in for by `db` and the first of
them, one byte long.
-/
import Dissect.Decoder
import Dissect.Text.Blank
import Dissect.X86.Engine

namespace Dissect.X86

/-- The longest instruction. -/
def maxLength : Nat := 15

-- ============================================================= operands

/-- One of the 32-bit general registers. -/
def isDwordRegister (id : RegisterId) : Bool :=
  generalRegister .dword false 0 ≤ id && id ≤ generalRegister .dword false 15

/-- A register of a memory reference, if it has it. -/
def register? (id : RegisterId) : Option RegisterId := if id ≠ 0 then some id else none

namespace Raw

/-- The displacement beside a register. -/
def displacement (r : Raw) (mode : Mode) : Int64 :=
  if mode = .bits64 && !isDwordRegister r.memoryBase && !isDwordRegister r.memoryIndex then
    r.memoryDisplacement64.toInt64
  else r.memoryDisplacement32.toInt32.toInt64

/-- The displacement as an address by itself. -/
def directAddress (r : Raw) (mode : Mode) : Address :=
  if mode = .bits64 then r.memoryDisplacement64 else r.memoryDisplacement32.toUInt64

/-- Append the memory reference. -/
def memory (r : Raw) (mode : Mode) (out : Instruction) : Instruction :=
  if r.ipRelative then out.memory r.ipRelativeAddress
  else if r.memoryBase = 0 ∧ r.memoryIndex = 0 then out.memory (r.directAddress mode)
  else
    out.indexed (register? r.memoryBase) (register? r.memoryIndex) r.memoryIndexScale
      (r.displacement mode)

/-- Append the operand of a kind. -/
def operand (r : Raw) (mode : Mode) (out : Instruction) : Part → Instruction
  | .register id => out.register id
  | .nearBranch16 | .nearBranch32 | .nearBranch64 => out.immediate r.nearBranchTarget.toInt64
  -- immediates as wide as their operand keep their bits
  | .immediate8 => out.unsignedImmediate r.immediate8.toUInt64
  | .immediate8Second => out.unsignedImmediate r.immediate8Second.toUInt64
  | .immediate16 => out.unsignedImmediate r.immediate16.toUInt64
  | .immediate32 => out.unsignedImmediate r.immediate32.toUInt64
  | .immediate64 => out.unsignedImmediate r.immediate64
  | .immediate8to16 => out.immediate r.immediate8to16.toInt64
  | .immediate8to32 => out.immediate r.immediate8to32.toInt64
  | .immediate8to64 => out.immediate r.immediate8to64
  | .immediate32to64 => out.immediate r.immediate32to64
  | .memory => r.memory mode out
  | .other => out.append .unknown

/-- Append the operands, in order. -/
def operands (r : Raw) (mode : Mode) (out : Instruction) : Instruction :=
  r.parts.foldl (r.operand mode) out

-- ================================================================ flags

/-- What the flow of control says of an instruction. -/
def flowFlags : Flow → InstructionFlags
  | .unconditionalBranch | .indirectBranch => .jump
  | .conditionalBranch => .union .jump .conditional
  | .call | .indirectCall => .call
  | .ret => .stop
  | _ => .empty

/-- What the name says of an instruction. -/
def nameFlags : String → InstructionFlags
  | "Nop" => .nop
  | "Push" => .push
  | "Pop" => .pop
  | "Cmp" | "Test" => .compare
  | "Add" => .add
  | "Sub" => .sub
  | "Mul" | "Imul" => .mul
  | "Div" | "Idiv" => .div
  | "And" => .bitAnd
  | "Or" => .bitOr
  | "Xor" => .bitXor
  | "Not" => .bitNot
  | "Hlt" => .union .stop .privileged
  | _ => .empty

/-- The flags of an instruction. -/
def flags (r : Raw) : InstructionFlags := .union (flowFlags r.flow) (nameFlags r.mnemonic)

-- ========================================================= instructions

/-- The instruction at an address. -/
def assemble (r : Raw) (mode : Mode) (a : Address) : Instruction :=
  let out : Instruction :=
    { address := a, size := UInt32.ofNat r.length, mnemonic := Text.lowerAscii r.mnemonic }
  let out := { r.operands mode out with flags := r.flags }
  (out.attach (.decoded r.length)).1

end Raw

/-- Stands in for bytes that are no instruction. -/
def placeholder (a : Address) (first : UInt8) : Instruction :=
  let out : Instruction := { address := a, size := 1, mnemonic := "db" }
  { out.immediate first.toUInt64.toInt64 with flags := .invalid }

namespace Engine

/-- Decode the instruction at the start of the bytes, which lie at the
address. -/
def decode (e : Engine) (mode : Mode) (a : Address) (bytes : List UInt8) :
    Except DecodeError Instruction :=
  match bytes with
  | [] => .error .insufficientBytes
  | first :: _ =>
    match e.read mode a bytes with
    | .instruction r => .ok (r.assemble mode a)
    | .refused => .ok (placeholder a first)
    | .short => .error .insufficientBytes

/-- The decoder of a mode. -/
def decoder (e : Engine) (mode : Mode) : Decoder where
  name := "iced-x86"
  maxLength := maxLength
  decode := e.decode mode
  registerName := Register.nameByWidth

/-- The decoder for addresses of `bits` bits. -/
def decoderOfBits (e : Engine) (bits : Nat) : Except DecodeError Decoder :=
  match Mode.ofBits? bits with
  | some mode => .ok (e.decoder mode)
  | none =>
    .error (.unsupportedArchitecture ("x86 with " ++ Numeral.decimal bits ++ " bits"))

end Engine

end Dissect.X86

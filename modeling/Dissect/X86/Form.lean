/-
Instruction forms: the opcode tables.

# Forms

A form says what an opcode means under a context: the operation, and for
each operand where it is found. An opcode whose meaning depends on the
register field of its ModRM byte is a group.

# Coverage

The tables cover a subset of the instructions: the integer instructions
of the one-byte opcodes, and those of the two-byte ones that `twoByte`
lists. They leave out floating point (`0xD8` to `0xDF`), everything
behind a vector prefix (`0x62`, `0xC4`, `0xC5`, with the older
instructions of these opcodes), `0xD6`, `0xF1`, some members of groups,
and most opcodes behind `0x0F`. What is left out has no form here, like
what a processor does not have; that it is refused says nothing about
processors.

# Widths

An operand's width is fixed or follows a size of the context. Input and
output, and the source of a sign-extending move to a wider register, go
by the operand size but never beyond 32 bits.
-/
import Dissect.X86.Engine

namespace Dissect.X86

/-- How wide an operand is. -/
inductive Width where
  | fixed (size : Size)
  /-- The operand size. -/
  | operand
  /-- The operand size, 32 bits at most. -/
  | capped
  /-- The size of stack operations. -/
  | stack
  /-- The size of near branch targets. -/
  | branch
  deriving DecidableEq, Repr

/-- The size a width comes to. -/
def Context.size (c : Context) : Width → Size
  | .fixed size => size
  | .operand => c.operandSize
  | .capped => if c.operandSize = .word then .word else .dword
  | .stack => c.stackSize
  | .branch => c.branchSize

/-- Where an operand is found. -/
inductive Slot where
  /-- The register of the ModRM byte's register field. -/
  | register (w : Width)
  /-- The register or memory of the ModRM byte's other fields. -/
  | registerOrMemory (w : Width)
  /-- The memory of the ModRM byte; a register there is refused. -/
  | memoryOnly
  /-- The segment register of the register field. -/
  | segmentSource
  /-- The same, but `cs` is refused: it cannot be written. -/
  | segmentTarget
  /-- The register of the opcode's low three bits. -/
  | opcodeRegister (w : Width)
  /-- A given general register. -/
  | general (w : Width) (index : Nat)
  /-- A given segment register. -/
  | segment (index : Nat)
  /-- An immediate as wide as the operand; 32 bits, sign-extended, for a
  64-bit operand. -/
  | immediate (w : Width)
  /-- An immediate as wide as the operand, up to 64 bits. -/
  | wideImmediate
  /-- A byte, sign-extended to the operand's width. -/
  | signedByte (w : Width)
  /-- A byte behind another immediate. -/
  | secondByte
  /-- The value one, not encoded. -/
  | one
  /-- A branch target relative to the next instruction, by a byte. -/
  | shortBranch
  /-- The same, by a displacement as wide as the branch, 32 bits at
  most. -/
  | nearBranch
  /-- Memory at an address that is encoded in full. -/
  | directMemory
  /-- A segment and an offset. -/
  | farPointer
  /-- The memory operand of a string instruction. -/
  | stringMemory
  /-- Memory at `bx` plus `al`. -/
  | tableMemory
  deriving DecidableEq, Repr

/-- The operand comes from the ModRM byte. -/
def Slot.inModRM : Slot → Bool
  | .register _ | .registerOrMemory _ | .memoryOnly | .segmentSource | .segmentTarget =>
    true
  | _ => false

/-- The operand comes from the ModRM byte's register-or-memory fields. -/
def Slot.mayBeMemory : Slot → Bool
  | .registerOrMemory _ | .memoryOnly => true
  | _ => false

/-- What an instruction does, and where its operands are found. -/
structure Form where
  /-- Its name, with a capital. -/
  mnemonic : String
  slots : List Slot
  flow : Flow := .next
  /-- LOCK is allowed if the destination is memory. -/
  lockable : Bool := false
  deriving DecidableEq, Repr

/-- What an opcode means. -/
inductive Entry where
  | form (f : Form)
  /-- A form for each register field that has one. -/
  | group (form? : Nat → Option Form)
  /-- No form: the mode does not have it, or the tables leave it out. -/
  | absent

/-- A ModRM byte follows the opcode; an opcode without a form takes one
before it is refused. -/
def Entry.hasModRM : Entry → Bool
  | .form f => f.slots.any Slot.inModRM
  | .group _ => true
  | .absent => true

/-- A form as an entry. -/
def entry (mnemonic : String) (slots : List Slot) (flow : Flow := .next) : Entry :=
  .form { mnemonic := mnemonic, slots := slots, flow := flow }

/-- A form without operands that changes its name with a size. -/
def named (size : Size) (word dword qword : String) (slots : List Slot)
    (flow : Flow := .next) : Entry :=
  match size with
  | .qword => entry qword slots flow
  | .dword => entry dword slots flow
  | _ => entry word slots flow

-- ============================================================= families

/-- A byte operand. -/
def byteWide : Width := .fixed .byte

/-- A 16-bit operand. -/
def wordWide : Width := .fixed .word

/-- The two-operand arithmetic operations, by number. -/
def arithmetic (n : Nat) (slots : List Slot) : Form :=
  match n with
  | 0 => { mnemonic := "Add", slots := slots, lockable := true }
  | 1 => { mnemonic := "Or", slots := slots, lockable := true }
  | 2 => { mnemonic := "Adc", slots := slots, lockable := true }
  | 3 => { mnemonic := "Sbb", slots := slots, lockable := true }
  | 4 => { mnemonic := "And", slots := slots, lockable := true }
  | 5 => { mnemonic := "Sub", slots := slots, lockable := true }
  | 6 => { mnemonic := "Xor", slots := slots, lockable := true }
  | _ => { mnemonic := "Cmp", slots := slots }

/-- The six operand layouts of an arithmetic operation. -/
def arithmeticSlots (n : Nat) : List Slot :=
  match n with
  | 0 => [.registerOrMemory byteWide, .register byteWide]
  | 1 => [.registerOrMemory .operand, .register .operand]
  | 2 => [.register byteWide, .registerOrMemory byteWide]
  | 3 => [.register .operand, .registerOrMemory .operand]
  | 4 => [.general byteWide 0, .immediate byteWide]
  | _ => [.general .operand 0, .immediate .operand]

/-- The shift and rotate operations, by number. -/
def shiftName (n : Nat) : String :=
  match n with
  | 0 => "Rol"
  | 1 => "Ror"
  | 2 => "Rcl"
  | 3 => "Rcr"
  | 4 => "Shl"
  | 5 => "Shr"
  | 6 => "Sal"
  | _ => "Sar"

/-- Shifts of a register or memory by some amount. -/
def shifts (w : Width) (amount : Slot) : Entry :=
  .group fun n => some { mnemonic := shiftName n, slots := [.registerOrMemory w, amount] }

/-- The sixteen conditions, by number. -/
def condition (n : Nat) : String :=
  match n with
  | 0 => "o"
  | 1 => "no"
  | 2 => "b"
  | 3 => "ae"
  | 4 => "e"
  | 5 => "ne"
  | 6 => "be"
  | 7 => "a"
  | 8 => "s"
  | 9 => "ns"
  | 10 => "p"
  | 11 => "np"
  | 12 => "l"
  | 13 => "ge"
  | 14 => "le"
  | _ => "g"

/-- A jump that depends on a condition. -/
def conditionalJump (mnemonic : String) (target : Slot) : Entry :=
  entry mnemonic [target] .conditionalBranch

/-- The one-operand operations of `0xF6` and `0xF7`. -/
def unary (w : Width) (n : Nat) : Form :=
  match n with
  | 0 | 1 =>
    { mnemonic := "Test", slots := [.registerOrMemory w, .immediate w] }
  | 2 =>
    { mnemonic := "Not", slots := [.registerOrMemory w], lockable := true }
  | 3 => { mnemonic := "Neg", slots := [.registerOrMemory w], lockable := true }
  | 4 => { mnemonic := "Mul", slots := [.registerOrMemory w] }
  | 5 => { mnemonic := "Imul", slots := [.registerOrMemory w] }
  | 6 => { mnemonic := "Div", slots := [.registerOrMemory w] }
  | _ => { mnemonic := "Idiv", slots := [.registerOrMemory w] }

/-- Increment and decrement of a register or memory. -/
def step? (w : Width) (n : Nat) : Option Form :=
  match n with
  | 0 => some { mnemonic := "Inc", slots := [.registerOrMemory w], lockable := true }
  | 1 => some { mnemonic := "Dec", slots := [.registerOrMemory w], lockable := true }
  | _ => none

/-- The operations of `0xFF`. -/
def stepOrTransfer? (n : Nat) : Option Form :=
  match n with
  | 2 => some { mnemonic := "Call", slots := [.registerOrMemory .branch], flow := .indirectCall }
  | 3 => some { mnemonic := "Call", slots := [.memoryOnly], flow := .indirectCall }
  | 4 => some { mnemonic := "Jmp", slots := [.registerOrMemory .branch], flow := .indirectBranch }
  | 5 => some { mnemonic := "Jmp", slots := [.memoryOnly], flow := .indirectBranch }
  | 6 => some { mnemonic := "Push", slots := [.registerOrMemory .stack] }
  | n => step? .operand n

/-- The only member of a group, at register field zero. -/
def zeroOnly (f : Form) (n : Nat) : Option Form := if n = 0 then some f else none

/-- An entry that 64-bit mode does not have. -/
def Context.outside64 (c : Context) (e : Entry) : Entry :=
  match c.mode with
  | .bits64 => .absent
  | _ => e

/-- Opcode `0x90`: the exchange of a register with itself does nothing,
and behind `0xF3` it is a pause. -/
def exchangeSelf (c : Context) : Entry :=
  if c.prefixes.repeatEqual then entry "Pause" []
  else if c.prefixes.rexB = 0 then entry "Nop" []
  else entry "Xchg" [.opcodeRegister .operand, .general .operand 0]

/-- Opcode `0x63`: a move that extends the sign, in 64-bit mode, and
elsewhere an adjustment of a privilege level. -/
def moveOrAdjust (c : Context) : Entry :=
  match c.mode with
  | .bits64 => entry "Movsxd" [.register .operand, .registerOrMemory .capped]
  | _ => entry "Arpl" [.registerOrMemory .operand, .register .operand]

-- =========================================================== the tables

/-- Opcodes `0x00` to `0x3F`: arithmetic in its six layouts, and between the
operations segment registers on the stack and decimal adjustment. -/
def arithmeticOpcode (c : Context) (opcode : Nat) : Entry :=
  if opcode % 8 < 6 then
    let f := arithmetic (opcode / 8) (arithmeticSlots (opcode % 8))
    .form { f with lockable := f.lockable && opcode % 8 < 2 }
  else
  match opcode with
  | 0x06 => c.outside64 (entry "Push" [.segment 0])
  | 0x07 => c.outside64 (entry "Pop" [.segment 0])
  | 0x0E => c.outside64 (entry "Push" [.segment 1])
  | 0x16 => c.outside64 (entry "Push" [.segment 2])
  | 0x17 => c.outside64 (entry "Pop" [.segment 2])
  | 0x1E => c.outside64 (entry "Push" [.segment 3])
  | 0x1F => c.outside64 (entry "Pop" [.segment 3])
  | 0x27 => c.outside64 (entry "Daa" [])
  | 0x2F => c.outside64 (entry "Das" [])
  | 0x37 => c.outside64 (entry "Aaa" [])
  | 0x3F => c.outside64 (entry "Aas" [])
  | _ => .absent

/-- Opcodes `0x40` to `0x7F`: single registers, the stack, strings of input
and output, short jumps. -/
def registerOpcode (c : Context) (opcode : Nat) : Entry :=
  match opcode with
  | 0x40 | 0x41 | 0x42 | 0x43 | 0x44 | 0x45 | 0x46 | 0x47 =>
    c.outside64 (entry "Inc" [.opcodeRegister .operand])
  | 0x48 | 0x49 | 0x4A | 0x4B | 0x4C | 0x4D | 0x4E | 0x4F =>
    c.outside64 (entry "Dec" [.opcodeRegister .operand])
  | 0x50 | 0x51 | 0x52 | 0x53 | 0x54 | 0x55 | 0x56 | 0x57 =>
    entry "Push" [.opcodeRegister .stack]
  | 0x58 | 0x59 | 0x5A | 0x5B | 0x5C | 0x5D | 0x5E | 0x5F =>
    entry "Pop" [.opcodeRegister .stack]
  | 0x60 => c.outside64 (named c.operandSize "Pusha" "Pushad" "Pushad" [])
  | 0x61 => c.outside64 (named c.operandSize "Popa" "Popad" "Popad" [])
  | 0x63 => moveOrAdjust c
  | 0x68 => entry "Push" [.immediate .stack]
  | 0x69 =>
    entry "Imul" [.register .operand, .registerOrMemory .operand, .immediate .operand]
  | 0x6A => entry "Push" [.signedByte .stack]
  | 0x6B => entry "Imul" [.register .operand, .registerOrMemory .operand, .signedByte .operand]
  | 0x6C => entry "Insb" [.stringMemory, .general wordWide 2]
  | 0x6D => named c.operandSize "Insw" "Insd" "Insd" [.stringMemory, .general wordWide 2]
  | 0x6E => entry "Outsb" [.general wordWide 2, .stringMemory]
  | 0x6F => named c.operandSize "Outsw" "Outsd" "Outsd" [.general wordWide 2, .stringMemory]
  | 0x70 | 0x71 | 0x72 | 0x73 | 0x74 | 0x75 | 0x76 | 0x77
  | 0x78 | 0x79 | 0x7A | 0x7B | 0x7C | 0x7D | 0x7E | 0x7F =>
    conditionalJump ("J" ++ condition (opcode % 16)) .shortBranch
  | _ => .absent

/-- Opcodes `0x80` to `0xBF`: arithmetic with immediates, moves and
exchanges, strings. -/
def transferOpcode (c : Context) (opcode : Nat) : Entry :=
  match opcode with
  | 0x80 =>
    .group fun n => some (arithmetic n [.registerOrMemory byteWide, .immediate byteWide])
  | 0x81 =>
    .group fun n => some (arithmetic n [.registerOrMemory .operand, .immediate .operand])
  | 0x82 =>
    c.outside64 <|
      .group fun n => some (arithmetic n [.registerOrMemory byteWide, .immediate byteWide])
  | 0x83 => .group fun n => some (arithmetic n [.registerOrMemory .operand, .signedByte .operand])
  | 0x84 => entry "Test" [.registerOrMemory byteWide, .register byteWide]
  | 0x85 => entry "Test" [.registerOrMemory .operand, .register .operand]
  | 0x86 =>
    .form
      { mnemonic := "Xchg", slots := [.registerOrMemory byteWide, .register byteWide],
        lockable := true }
  | 0x87 =>
    .form
      { mnemonic := "Xchg", slots := [.registerOrMemory .operand, .register .operand],
        lockable := true }
  | 0x88 => entry "Mov" [.registerOrMemory byteWide, .register byteWide]
  | 0x89 => entry "Mov" [.registerOrMemory .operand, .register .operand]
  | 0x8A => entry "Mov" [.register byteWide, .registerOrMemory byteWide]
  | 0x8B => entry "Mov" [.register .operand, .registerOrMemory .operand]
  | 0x8C => entry "Mov" [.registerOrMemory .operand, .segmentSource]
  | 0x8D => entry "Lea" [.register .operand, .memoryOnly]
  | 0x8E => entry "Mov" [.segmentTarget, .registerOrMemory .operand]
  | 0x8F =>
    .group <| zeroOnly
      { mnemonic := "Pop", slots := [.registerOrMemory .stack] }
  | 0x90 => exchangeSelf c
  | 0x91 | 0x92 | 0x93 | 0x94 | 0x95 | 0x96 | 0x97 =>
    entry "Xchg" [.opcodeRegister .operand, .general .operand 0]
  | 0x98 => named c.operandSize "Cbw" "Cwde" "Cdqe" []
  | 0x99 => named c.operandSize "Cwd" "Cdq" "Cqo" []
  | 0x9A => c.outside64 (entry "Call" [.farPointer] .call)
  | 0x9B => entry "Wait" []
  | 0x9C => named c.stackSize "Pushf" "Pushfd" "Pushfq" []
  | 0x9D => named c.stackSize "Popf" "Popfd" "Popfq" []
  | 0x9E => entry "Sahf" []
  | 0x9F => entry "Lahf" []
  | 0xA0 => entry "Mov" [.general byteWide 0, .directMemory]
  | 0xA1 => entry "Mov" [.general .operand 0, .directMemory]
  | 0xA2 => entry "Mov" [.directMemory, .general byteWide 0]
  | 0xA3 => entry "Mov" [.directMemory, .general .operand 0]
  | 0xA4 => entry "Movsb" [.stringMemory, .stringMemory]
  | 0xA5 => named c.operandSize "Movsw" "Movsd" "Movsq" [.stringMemory, .stringMemory]
  | 0xA6 => entry "Cmpsb" [.stringMemory, .stringMemory]
  | 0xA7 => named c.operandSize "Cmpsw" "Cmpsd" "Cmpsq" [.stringMemory, .stringMemory]
  | 0xA8 => entry "Test" [.general byteWide 0, .immediate byteWide]
  | 0xA9 => entry "Test" [.general .operand 0, .immediate .operand]
  | 0xAA => entry "Stosb" [.stringMemory, .general byteWide 0]
  | 0xAB => named c.operandSize "Stosw" "Stosd" "Stosq" [.stringMemory, .general .operand 0]
  | 0xAC => entry "Lodsb" [.general byteWide 0, .stringMemory]
  | 0xAD => named c.operandSize "Lodsw" "Lodsd" "Lodsq" [.general .operand 0, .stringMemory]
  | 0xAE => entry "Scasb" [.general byteWide 0, .stringMemory]
  | 0xAF => named c.operandSize "Scasw" "Scasd" "Scasq" [.general .operand 0, .stringMemory]
  | 0xB0 | 0xB1 | 0xB2 | 0xB3 | 0xB4 | 0xB5 | 0xB6 | 0xB7 =>
    entry "Mov" [.opcodeRegister byteWide, .immediate byteWide]
  | 0xB8 | 0xB9 | 0xBA | 0xBB | 0xBC | 0xBD | 0xBE | 0xBF =>
    entry "Mov" [.opcodeRegister .operand, .wideImmediate]
  | _ => .absent

/-- Opcodes `0xC0` to `0xFF`: shifts, calls, returns and jumps, ports, flags,
and the groups of one operand. -/
def controlOpcode (c : Context) (opcode : Nat) : Entry :=
  match opcode with
  | 0xC0 => shifts byteWide (.immediate byteWide)
  | 0xC1 => shifts .operand (.immediate byteWide)
  | 0xC2 => entry "Ret" [.immediate wordWide] .ret
  | 0xC3 => entry "Ret" [] .ret
  | 0xC6 =>
    .group <| zeroOnly
      { mnemonic := "Mov", slots := [.registerOrMemory byteWide, .immediate byteWide] }
  | 0xC7 =>
    .group <| zeroOnly
      { mnemonic := "Mov", slots := [.registerOrMemory .operand, .immediate .operand] }
  | 0xC8 => entry "Enter" [.immediate wordWide, .secondByte]
  | 0xC9 => entry "Leave" []
  | 0xCA => entry "Retf" [.immediate wordWide] .ret
  | 0xCB => entry "Retf" [] .ret
  | 0xCC => entry "Int3" [] .interrupt
  | 0xCD => entry "Int" [.immediate byteWide] .interrupt
  | 0xCE => c.outside64 (entry "Into" [] .interrupt)
  | 0xCF => named c.operandSize "Iret" "Iretd" "Iretq" [] .ret
  | 0xD0 => shifts byteWide .one
  | 0xD1 => shifts .operand .one
  | 0xD2 => shifts byteWide (.general byteWide 1)
  | 0xD3 => shifts .operand (.general byteWide 1)
  | 0xD4 => c.outside64 (entry "Aam" [.immediate byteWide])
  | 0xD5 => c.outside64 (entry "Aad" [.immediate byteWide])
  | 0xD7 => entry "Xlatb" [.tableMemory]
  | 0xE0 => conditionalJump "Loopne" .shortBranch
  | 0xE1 => conditionalJump "Loope" .shortBranch
  | 0xE2 => conditionalJump "Loop" .shortBranch
  | 0xE3 =>
    named c.addressSize "Jcxz" "Jecxz" "Jrcxz" [.shortBranch] .conditionalBranch
  | 0xE4 => entry "In" [.general byteWide 0, .immediate byteWide]
  | 0xE5 => entry "In" [.general .capped 0, .immediate byteWide]
  | 0xE6 => entry "Out" [.immediate byteWide, .general byteWide 0]
  | 0xE7 => entry "Out" [.immediate byteWide, .general .capped 0]
  | 0xE8 => entry "Call" [.nearBranch] .call
  | 0xE9 => entry "Jmp" [.nearBranch] .unconditionalBranch
  | 0xEA => c.outside64 (entry "Jmp" [.farPointer] .unconditionalBranch)
  | 0xEB => entry "Jmp" [.shortBranch] .unconditionalBranch
  | 0xEC => entry "In" [.general byteWide 0, .general wordWide 2]
  | 0xED => entry "In" [.general .capped 0, .general wordWide 2]
  | 0xEE => entry "Out" [.general wordWide 2, .general byteWide 0]
  | 0xEF => entry "Out" [.general wordWide 2, .general .capped 0]
  | 0xF4 => entry "Hlt" []
  | 0xF5 => entry "Cmc" []
  | 0xF6 => .group fun n => some (unary byteWide n)
  | 0xF7 => .group fun n => some (unary .operand n)
  | 0xF8 => entry "Clc" []
  | 0xF9 => entry "Stc" []
  | 0xFA => entry "Cli" []
  | 0xFB => entry "Sti" []
  | 0xFC => entry "Cld" []
  | 0xFD => entry "Std" []
  | 0xFE => .group (step? byteWide)
  | 0xFF => .group stepOrTransfer?
  | _ => .absent

/-- What a one-byte opcode means, by the quarter of the table it is
in. -/
def oneByte (c : Context) (opcode : Nat) : Entry :=
  match opcode / 0x40 with
  | 0 => arithmeticOpcode c opcode
  | 1 => registerOpcode c opcode
  | 2 => transferOpcode c opcode
  | 3 => controlOpcode c opcode
  | _ => .absent

/-- What the opcode after the escape byte `0x0F` means. -/
def twoByte (opcode : Nat) : Entry :=
  match opcode with
  | 0x05 => entry "Syscall" [] .call
  | 0x0B => entry "Ud2" [] .exception
  | 0x1F =>
    .group <| zeroOnly
      { mnemonic := "Nop", slots := [.registerOrMemory .operand] }
  | 0x31 => entry "Rdtsc" []
  | 0x40 | 0x41 | 0x42 | 0x43 | 0x44 | 0x45 | 0x46 | 0x47
  | 0x48 | 0x49 | 0x4A | 0x4B | 0x4C | 0x4D | 0x4E | 0x4F =>
    entry ("Cmov" ++ condition (opcode % 16)) [.register .operand, .registerOrMemory .operand]
  | 0x80 | 0x81 | 0x82 | 0x83 | 0x84 | 0x85 | 0x86 | 0x87
  | 0x88 | 0x89 | 0x8A | 0x8B | 0x8C | 0x8D | 0x8E | 0x8F =>
    conditionalJump ("J" ++ condition (opcode % 16)) .nearBranch
  | 0x90 | 0x91 | 0x92 | 0x93 | 0x94 | 0x95 | 0x96 | 0x97
  | 0x98 | 0x99 | 0x9A | 0x9B | 0x9C | 0x9D | 0x9E | 0x9F =>
    entry ("Set" ++ condition (opcode % 16)) [.registerOrMemory byteWide]
  | 0xA2 => entry "Cpuid" []
  | 0xAF => entry "Imul" [.register .operand, .registerOrMemory .operand]
  | 0xB6 => entry "Movzx" [.register .operand, .registerOrMemory byteWide]
  | 0xB7 => entry "Movzx" [.register .operand, .registerOrMemory wordWide]
  | 0xBE => entry "Movsx" [.register .operand, .registerOrMemory byteWide]
  | 0xBF => entry "Movsx" [.register .operand, .registerOrMemory wordWide]
  | 0xC8 | 0xC9 | 0xCA | 0xCB | 0xCC | 0xCD | 0xCE | 0xCF =>
    entry "Bswap" [.opcodeRegister .operand]
  | _ => .absent

end Dissect.X86

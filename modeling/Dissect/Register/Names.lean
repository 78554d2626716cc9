/-
Register names of the x86 family in two numberings.

# By width

The decoder numbers registers in families: byte, word, double word and
quad word registers, instruction pointers, segment registers, then the
vector, mask, bound, control, debug, floating point, multimedia, test
and tile registers. All 256 numbers have a name.

# Alphabetical

The other numbering starts at one and runs through the registers of the
32-bit architecture in alphabetical order, then through the numbered
families. The flags register is called by its width in the mode.

A number without a name is shown as `reg` and the number.
-/
import Dissect.Error
import Dissect.Instruction.Operand

namespace Dissect

/-- Says what a register is called. -/
abbrev RegisterNames := RegisterId → String

namespace Register

/-- A name and a number after it, for the numbers below `count`. -/
def numbered (name : String) (count : Nat) : List String :=
  (List.range count).map fun i => name ++ Numeral.decimal i

/-- A number between two pieces of text, for `count` numbers from `first`
on. -/
def between (before after : String) (first count : Nat) : List String :=
  (List.range count).map fun i => before ++ Numeral.decimal (first + i) ++ after

/-- The name of a register that has none. -/
def unnamed (id : RegisterId) : String := "reg" ++ Numeral.decimal id.toNat

-- ============================================================= by width

/-- The names by width, in order of their numbers. -/
def byWidth : List String :=
  ["none", "al", "cl", "dl", "bl", "ah", "ch", "dh", "bh", "spl", "bpl", "sil", "dil"]
    ++ between "r" "l" 8 8
    ++ ["ax", "cx", "dx", "bx", "sp", "bp", "si", "di"] ++ between "r" "w" 8 8
    ++ ["eax", "ecx", "edx", "ebx", "esp", "ebp", "esi", "edi"] ++ between "r" "d" 8 8
    ++ ["rax", "rcx", "rdx", "rbx", "rsp", "rbp", "rsi", "rdi"] ++ between "r" "" 8 8
    ++ ["eip", "rip", "es", "cs", "ss", "ds", "fs", "gs"]
    ++ numbered "xmm" 32 ++ numbered "ymm" 32 ++ numbered "zmm" 32
    ++ numbered "k" 8 ++ numbered "bnd" 4 ++ numbered "cr" 16 ++ numbered "dr" 16
    ++ numbered "st" 8 ++ numbered "mm" 8 ++ numbered "tr" 8 ++ numbered "tmm" 8
    ++ [ "dontuse0", "dontusefa", "dontusefb", "dontusefc", "dontusefd", "dontusefe",
         "dontuseff" ]

/-- What the decoder's registers are called. -/
def nameByWidth : RegisterNames := fun id => byWidth[id.toNat]?.getD (unnamed id)

-- ========================================================= alphabetical

/-- What the flags register is called at a width. -/
def flagsName? : Nat → Option String
  | 16 => some "flags"
  | 32 => some "eflags"
  | 64 => some "rflags"
  | _ => none

/-- The alphabetical names, from number one on. -/
def alphabetical (flagsName : String) : List String :=
  [ "ah", "al", "ax", "bh", "bl", "bp", "bpl", "bx", "ch", "cl", "cs", "cx", "dh", "di",
    "dil", "dl", "ds", "dx", "eax", "ebp", "ebx", "ecx", "edi", "edx", flagsName, "eip",
    "eiz", "es", "esi", "esp", "fpsw", "fs", "gs", "ip", "rax", "rbp", "rbx", "rcx",
    "rdi", "rdx", "rip", "riz", "rsi", "rsp", "si", "sil", "sp", "spl", "ss" ]
    ++ numbered "cr" 16 ++ numbered "dr" 16 ++ numbered "fp" 8 ++ numbered "k" 8
    ++ numbered "mm" 8 ++ between "r" "" 8 8 ++ between "st(" ")" 0 8
    ++ numbered "xmm" 32 ++ numbered "ymm" 32 ++ numbered "zmm" 32
    ++ between "r" "b" 8 8 ++ between "r" "d" 8 8 ++ between "r" "w" 8 8
    ++ numbered "bnd" 4

/-- The alphabetical numbering in one mode. -/
structure Catalogue where
  names : List String

namespace Catalogue

/-- The catalogue of the mode with addresses of `bits` bits. -/
def ofBits (bits : Nat) : Except DecodeError Catalogue :=
  match flagsName? bits with
  | some flags => .ok ⟨alphabetical flags⟩
  | none =>
    .error (.unsupportedArchitecture ("x86 with " ++ Numeral.decimal bits ++ " bits"))

/-- The name of a number that has one. -/
def get? (c : Catalogue) (id : RegisterId) : Option String :=
  match id.toNat with
  | 0 => none
  | n + 1 => c.names[n]?

/-- What a register is called. -/
def nameOf (c : Catalogue) : RegisterNames := fun id => (c.get? id).getD (unnamed id)

end Catalogue

end Register

end Dissect

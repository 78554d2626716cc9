/-
An engine for the integer instructions: the opcode tables, read.

# Order of reading

Prefixes and opcode, the ModRM byte if the opcode has one, the memory
reference if the ModRM byte asks for one, then the immediates in operand
order. What makes bytes no instruction is found in that order too: an
opcode or a group member without a form, and a register where only memory
is allowed, right after the ModRM byte; a segment register that does not
exist, after the memory reference; and a LOCK prefix on anything but a
lockable operation with a memory destination, at the very end. So bytes
that end early are reported as such unless the instruction was refused
before the end was reached.

# Length

An instruction has at most fifteen bytes. Fifteen bytes that do not
complete one are no instruction; fewer are not enough.

# Coverage

The engine refuses what the tables leave out (`X86.Form`). The library is
run with it; what is proved of decoding is proved of any engine, under
what it says to assume of one.
-/
import Dissect.X86.Decode
import Dissect.X86.Form
import Dissect.X86.Memory

namespace Dissect.X86

-- ============================================================= operands

/-- An operand as encoded, before the address of the next instruction is
known. -/
inductive Encoded where
  | register (id : RegisterId)
  /-- An immediate of a kind, by its bytes. -/
  | immediate (part : Part) (value : Nat)
  /-- A branch to a distance from the next instruction, cut to a size. -/
  | branch (size : Size) (distance : Int)
  | memory (r : Reference)
  | other
  deriving DecidableEq, Repr

/-- What the ModRM byte and the bytes after it say: the fields, and the
memory reference if they are one. -/
structure Addressing where
  modRM : ModRM
  reference : Option Reference
  deriving DecidableEq, Repr

/-- The bytes of an immediate of a size; none has more than four. -/
def immediateWidth (size : Size) : Nat := min (size.bits / 8) 4

/-- The kind of an immediate of a size. -/
def immediatePart : Size → Part
  | .byte => .immediate8
  | .word => .immediate16
  | .dword => .immediate32
  | .qword => .immediate32to64

/-- The kind of an immediate of a size that is encoded in full. -/
def wideImmediatePart : Size → Part
  | .qword => .immediate64
  | size => immediatePart size

/-- The kind of a byte that is extended to a size. -/
def signedBytePart : Size → Part
  | .byte => .immediate8
  | .word => .immediate8to16
  | .dword => .immediate8to32
  | .qword => .immediate8to64

/-- The base register of the table look-up instruction. -/
def tableReference (c : Context) : Reference :=
  .based (some (generalRegister c.addressSize false 3))
    (some (generalRegister .byte false 0)) 1 0

/-- The register of the register field. -/
def registerOf (c : Context) (size : Size) (field : Nat) : RegisterId :=
  generalRegister size c.prefixes.rex.isSome field

/-- The operand of one slot. A slot of the ModRM byte has been read
already; the others take their bytes here. -/
def operand (c : Context) (opcode : Nat) (a : Addressing) : Slot → Reader Encoded
  | .register w =>
    pure (.register (registerOf c (c.size w) (a.modRM.reg + c.prefixes.rexR)))
  | .registerOrMemory w =>
    match a.reference with
    | some r => pure (.memory r)
    | none => pure (.register (registerOf c (c.size w) (a.modRM.rm + c.prefixes.rexB)))
  | .memoryOnly =>
    match a.reference with
    | some r => pure (.memory r)
    | none => pure .other
  | .segmentSource => pure (.register (segmentRegister a.modRM.reg))
  | .segmentTarget => pure (.register (segmentRegister a.modRM.reg))
  | .opcodeRegister w =>
    pure (.register (registerOf c (c.size w) (opcode % 8 + c.prefixes.rexB)))
  | .general w index => pure (.register (generalRegister (c.size w) false index))
  | .segment index => pure (.register (segmentRegister index))
  | .immediate w => do
    let n ← Reader.unsigned (immediateWidth (c.size w))
    pure (.immediate (immediatePart (c.size w)) n)
  | .wideImmediate => do
    let n ← Reader.unsigned (c.operandSize.bits / 8)
    pure (.immediate (wideImmediatePart c.operandSize) n)
  | .signedByte w => do
    let n ← Reader.unsigned 1
    pure (.immediate (signedBytePart (c.size w)) n)
  | .secondByte => do
    let n ← Reader.unsigned 1
    pure (.immediate .immediate8Second n)
  | .one => pure (.immediate .immediate8 1)
  | .shortBranch => do
    let d ← Reader.signed 1
    pure (.branch c.branchSize d)
  | .nearBranch => do
    let d ← Reader.signed (immediateWidth c.branchSize)
    pure (.branch c.branchSize d)
  | .directMemory => do
    let address ← Reader.unsigned (c.addressSize.bits / 8)
    pure (.memory (.absolute address))
  | .farPointer => do
    let _ ← Reader.take (c.operandSize.bits / 8 + 2)
    pure .other
  | .stringMemory => pure .other
  | .tableMemory => pure (.memory (tableReference c))

/-- The operands of slots, in order. -/
def operands (c : Context) (opcode : Nat) (a : Addressing) :
    List Slot → Reader (List Encoded)
  | [] => pure []
  | s :: rest => do
    let o ← operand c opcode a s
    let os ← operands c opcode a rest
    pure (o :: os)

-- ============================================================= refusals

/-- A register stands where only memory is allowed. -/
def Form.needsMemory (f : Form) : Bool := f.slots.contains .memoryOnly

/-- The segment register of the register field exists and may be used
this way. -/
def segmentAllowed (f : Form) (field : Nat) : Bool :=
  (!f.slots.contains .segmentSource || field < 6)
    && (!f.slots.contains .segmentTarget || (field < 6 && field != 1))

/-- A LOCK prefix, if any, is allowed. -/
def lockAllowed (c : Context) (f : Form) (a : Addressing) : Bool :=
  !c.prefixes.lock || (f.lockable && a.reference.isSome)

-- ============================================================== reading

/-- A complete instruction but for its place: what it does and its
operands as encoded. -/
structure Body where
  form : Form
  operands : List Encoded
  deriving DecidableEq, Repr

/-- What follows the memory reference of an instruction of a known form;
none if it is refused. -/
def afterReference (c : Context) (opcode : Nat) (f : Form) (a : Addressing) :
    Reader (Option Body) :=
  if segmentAllowed f a.modRM.reg then do
    let os ← operands c opcode a f.slots
    if lockAllowed c f a then pure (some ⟨f, os⟩) else pure none
  else pure none

/-- The rest of an instruction of a known form; none if it is refused. -/
def body (c : Context) (opcode : Nat) (m : ModRM) (f : Form) : Reader (Option Body) :=
  if f.needsMemory && m.isRegister then pure none
  else do
    let reference ←
      if f.slots.any Slot.mayBeMemory && !m.isRegister then do
        let r ← reference c m
        pure (some r)
      else pure none
    afterReference c opcode f ⟨m, reference⟩

/-- The ModRM byte of an opcode that has one; an opcode without one has
no use for its fields. -/
def modRM (e : Entry) : Reader ModRM :=
  if e.hasModRM then do
    let b ← Reader.byte
    pure (.ofByte b)
  else pure ⟨3, 0, 0⟩

/-- The form of an entry, if the register field has one. -/
def Entry.form? (e : Entry) (field : Nat) : Option Form :=
  match e with
  | .form f => some f
  | .group form? => form? field
  | .absent => none

/-- What follows an opcode; none if it is refused. -/
def afterOpcode (c : Context) (opcode : Nat) (e : Entry) : Reader (Option Body) := do
  let m ← modRM e
  match e.form? m.reg with
  | some f => body c opcode m f
  | none => pure none

/-- What follows the prefixes: an opcode of one byte, or of two behind
the escape byte. -/
def afterPrefixes (c : Context) (opcode : UInt8) : Reader (Option Body) :=
  if opcode = 0x0F then do
    let second ← Reader.byte
    afterOpcode c second.toNat (twoByte second.toNat)
  else afterOpcode c opcode.toNat (oneByte c opcode.toNat)

/-- One instruction, however long it is, and what it is read under; none
if it is refused. -/
def instruction (mode : Mode) : Reader (Context × Option Body) := do
  let (prefixes, opcode) ← Prefixes.scan? mode {}
  let body ← afterPrefixes ⟨mode, prefixes⟩ opcode
  pure (⟨mode, prefixes⟩, body)

-- ============================================================== answers

/-- An integer as a 64-bit word. -/
def wordOf (i : Int) : UInt64 := UInt64.ofNat (i % UInt64.size).toNat

/-- The number of the register that holds the address of the next
instruction. -/
def pointerRegister : Size → RegisterId
  | .qword => 70
  | _ => 69

namespace Raw

/-- Take over an immediate: each width reads the bits that it has. -/
def setImmediate (r : Raw) (value : UInt64) : Raw :=
  { r with
    immediate8 := value.toUInt8
    immediate16 := value.toUInt16
    immediate32 := value.toUInt32
    immediate64 := value
    immediate8to16 := value.toUInt8.toInt8.toInt16
    immediate8to32 := value.toUInt8.toInt8.toInt32
    immediate8to64 := value.toUInt8.toInt8.toInt64
    immediate32to64 := value.toUInt32.toInt32.toInt64 }

/-- Take over the displacement of a memory reference. -/
def setDisplacement (r : Raw) (value : UInt64) : Raw :=
  { r with memoryDisplacement32 := value.toUInt32, memoryDisplacement64 := value }

/-- Take over a memory reference. Its displacement is cut to the address
size; relative to the next instruction it is the address there. -/
def setReference (r : Raw) (size : Size) (next : Address) : Reference → Raw
  | .relative distance =>
    let address := wordOf ((next.toNat + distance) % size.modulus)
    { r.setDisplacement address with
      memoryBase := pointerRegister size, ipRelative := true, ipRelativeAddress := address }
  | .absolute address => r.setDisplacement (UInt64.ofNat address)
  | .based base index scale displacement =>
    { r.setDisplacement (wordOf (displacement % size.modulus)) with
      memoryBase := base.getD 0, memoryIndex := index.getD 0, memoryIndexScale := scale }

/-- Add a kind behind the others. -/
def addPart (r : Raw) (part : Part) : Raw := { r with parts := r.parts ++ [part] }

/-- Add an operand, now that the address of the next instruction is
known. Memory relative to it has the width of addresses, a branch the
width of branches. -/
def add (c : Context) (next : Address) (r : Raw) : Encoded → Raw
  | .register id => r.addPart (.register id)
  | .immediate .immediate8Second value =>
    { r.addPart .immediate8Second with immediate8Second := UInt8.ofNat value }
  | .immediate part value => (r.addPart part).setImmediate (UInt64.ofNat value)
  | .branch size distance =>
    let target := wordOf ((next.toNat + distance) % size.modulus)
    let part :=
      match size with
      | .qword => Part.nearBranch64
      | .dword => .nearBranch32
      | _ => .nearBranch16
    { r.addPart part with nearBranchTarget := target }
  | .memory reference => (r.addPart .memory).setReference c.addressSize next reference
  | .other => r.addPart .other

end Raw

/-- The answer for an instruction of some length at an address. -/
def Body.raw (b : Body) (c : Context) (a : Address) (length : Nat) : Raw :=
  b.operands.foldl (Raw.add c (a + UInt64.ofNat length))
    { mnemonic := b.form.mnemonic, length := length, flow := b.form.flow }

/-- The engine of the opcode tables. -/
def subset : Engine where
  read mode a bytes :=
    let window := bytes.take maxLength
    match instruction mode window with
    | some ((c, some body), rest) => .instruction (body.raw c a (window.length - rest.length))
    | some ((_, none), _) => .refused
    | none => if maxLength ≤ bytes.length then .refused else .short

/-- The decoder of a mode that the library runs with. -/
def decoder (mode : Mode) : Decoder := subset.decoder mode

/-- The decoder for addresses of `bits` bits. -/
def decoderOfBits (bits : Nat) : Except DecodeError Decoder := subset.decoderOfBits bits

end Dissect.X86

/-
Histories of an instruction under construction.

An `Action` is one step of a builder. A `Draft` is an instruction and
the number of payloads let go of so far; running actions keeps the
account: what was released and what is still held is what was attached.
-/
import Dissect.Instruction.Basic

namespace Dissect

/-- One step of building an instruction. -/
inductive Action where
  | register (id : RegisterId)
  | taggedRegister (id : RegisterId) (tag : UInt32)
  | immediate (value : Int64)
  /-- An immediate given as an unsigned word. -/
  | unsignedImmediate (value : UInt64)
  | memory (address : Address)
  /-- A reference relative to one register. -/
  | displacement (base : RegisterId) (displacement : Int64)
  /-- A reference with optional base and index, its scale at least
  one. -/
  | indexed (base index : Option RegisterId) (scale : UInt32) (displacement : Int64)
  /-- Any operand as it stands. -/
  | operand (kind : OperandKind)
  | comment (text : String)
  | assignFlags (flags : InstructionFlags)
  | assignSegment (position : Nat)
  | attach (payload : Payload)
  | reset
  deriving DecidableEq, Repr

/-- An instruction under construction and the payloads released. -/
structure Draft where
  instruction : Instruction
  released : Nat := 0
  deriving DecidableEq, Repr

namespace Draft

/-- A new instruction, with nothing in it yet. -/
def fresh (address : Address) (size : UInt32) (mnemonic : String) : Draft :=
  { instruction := { address := address, size := size, mnemonic := mnemonic } }

/-- Take over an instruction and what was let go of to get it. -/
def after (d : Draft) (result : Instruction × Option Payload) : Draft :=
  ⟨result.1, d.released + if result.2.isSome then 1 else 0⟩

/-- Go on with an instruction that nothing was let go of to get. -/
def keep (d : Draft) (i : Instruction) : Draft := { d with instruction := i }

/-- One action. -/
def apply (d : Draft) (a : Action) : Draft :=
  let i := d.instruction
  match a with
  | .register id => d.keep (i.register id)
  | .taggedRegister id tag => d.keep (i.taggedRegister id tag)
  | .immediate value => d.keep (i.immediate value)
  | .unsignedImmediate value => d.keep (i.unsignedImmediate value)
  | .memory a => d.keep (i.memory a)
  | .displacement base displacement => d.keep (i.displacement base displacement)
  | .indexed base index scale displacement => d.keep (i.indexed base index scale displacement)
  | .operand kind => d.keep (i.append kind)
  | .comment text => d.keep (i.comment text)
  | .assignFlags flags => d.keep { i with flags := flags }
  | .assignSegment position => d.keep { i with segment := some position }
  | .attach p => d.after (i.attach p)
  | .reset => d.after i.reset

/-- Actions in order. -/
def run (d : Draft) (actions : List Action) : Draft := actions.foldl apply d

/-- The payloads released once the instruction itself is discarded. -/
def releasedAtEnd (d : Draft) : Nat :=
  d.released + if d.instruction.payload.isSome then 1 else 0

end Draft

end Dissect

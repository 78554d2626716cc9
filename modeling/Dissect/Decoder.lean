/-
What the rest of the library knows of a decoder: a name, the longest
instruction it can produce, how it decodes one, and what its registers
are called.
-/
import Dissect.Instruction.Basic
import Dissect.Register.Names

namespace Dissect

/-- A decoder for one processor. -/
structure Decoder where
  name : String
  /-- No instruction is longer. -/
  maxLength : Nat
  /-- The instruction at the start of the bytes, which lie at the
  address. -/
  decode : Address → List UInt8 → Except DecodeError Instruction
  registerName : RegisterNames

namespace Decoder

/-- Decode instructions one after the other until the bytes are used up
or one cannot be decoded, at most `fuel` of them. -/
def decodeUpTo (d : Decoder) :
    Nat → Address → List UInt8 → List Instruction × Option DecodeError
  | 0, _, _ => ([], none)
  | fuel + 1, address, bytes =>
    match d.decode address bytes with
    | .error e => ([], some e)
    | .ok i =>
      match bytes.drop i.size.toNat with
      | [] => ([i], none)
      | rest =>
        let (is, e) := d.decodeUpTo fuel (address + i.size.toUInt64) rest
        (i :: is, e)

/-- Decode bytes from the start to the end, one instruction after the
other; the error that ended it, if one did. Every instruction takes at
least one byte, so there are no more of them than bytes; no bytes at all
are tried once. -/
def decodeAll (d : Decoder) (address : Address) (bytes : List UInt8) :
    List Instruction × Option DecodeError :=
  d.decodeUpTo (bytes.length + 1) address bytes

end Decoder

end Dissect

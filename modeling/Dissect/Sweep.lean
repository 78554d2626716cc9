/-
Disassembly of a loaded image: the instruction at an address, and
linear sweeps from one.

The bytes of an instruction are the file's bytes from the offset behind
its address on, no more than the decoder's longest instruction. A sweep
goes on where the last instruction ended and stops at the first address
that gives none.
-/
import Dissect.Bytes
import Dissect.Decoder
import Dissect.Image

namespace Dissect

/-- The bytes of the file behind an address, at most `limit` of them;
there is at least one. -/
def window (image : Image) (data : Bytes) (limit : Nat) (a : Address) :
    Except LoadError (List UInt8) := do
  let offset ← image.offset a
  match (data.extract offset.toNat (offset.toNat + limit)).toList with
  | [] => .error (.unresolved a)
  | bytes => .ok bytes

/-- The instruction at an address of an image loaded from `data`, marked
with the segment it lies in. -/
def disassembleAt (image : Image) (data : Bytes) (d : Decoder) (a : Address) :
    Except LoadError Instruction := do
  let bytes ← window image data d.maxLength a
  match d.decode a bytes with
  | .error e => .error (.decode e)
  | .ok i => .ok { i with segment := image.segmentIndex? a }

/-- At most `count` instructions from an address on, and the error that
ended the sweep, if one did. -/
def sweep (image : Image) (data : Bytes) (d : Decoder) :
    Nat → Address → List Instruction × Option LoadError
  | 0, _ => ([], none)
  | count + 1, a =>
    match disassembleAt image data d a with
    | .error e => ([], some e)
    | .ok i =>
      let (is, e) := sweep image data d count i.stop
      (i :: is, e)

end Dissect

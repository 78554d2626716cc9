/-
Reading bytes as UTF-8 when nothing promises that they are.

# The rule

Well-formed characters are decoded. Every maximal run of bytes that
starts a character and is cut short, and every byte that starts none,
becomes one replacement character U+FFFD. After a cut the offending
byte is looked at again as a first byte, so nothing well-formed is
lost.

# The machine

One byte at a time: between characters, or inside one with some
continuation bytes still owed. The admissible range of the next byte is
part of the state, because after `E0`, `ED`, `F0` and `F4` it is
narrower than `80`–`BF`: that is what rules out overlong forms,
surrogates and code points past U+10FFFF.
-/

namespace Dissect.Utf8

/-- Stands for bytes that are no character. -/
def replacement : Char := '\uFFFD'

/-- Inside a character: how many continuation bytes are owed, the range
the next one must lie in, and the code point's bits so far. -/
structure Pending where
  owed : Nat
  low : UInt8 := 0x80
  high : UInt8 := 0xBF
  bits : Nat
  deriving DecidableEq, Repr

/-- The text so far, and the character that is open, if one is. -/
structure Progress where
  text : String := ""
  pending : Option Pending := none
  deriving DecidableEq, Repr

/-- A byte between characters, behind a text: it is a character, opens
one, or is replaced. -/
def begin (text : String) (b : UInt8) : Progress :=
  let n := b.toNat
  if b < 0x80 then ⟨text.push (Char.ofNat n), none⟩
  else if 0xC2 ≤ b ∧ b ≤ 0xDF then ⟨text, some { owed := 1, bits := n % 32 }⟩
  else if b = 0xE0 then ⟨text, some { owed := 2, low := 0xA0, bits := n % 16 }⟩
  else if b = 0xED then ⟨text, some { owed := 2, high := 0x9F, bits := n % 16 }⟩
  else if 0xE1 ≤ b ∧ b ≤ 0xEF then ⟨text, some { owed := 2, bits := n % 16 }⟩
  else if b = 0xF0 then ⟨text, some { owed := 3, low := 0x90, bits := n % 8 }⟩
  else if 0xF1 ≤ b ∧ b ≤ 0xF3 then ⟨text, some { owed := 3, bits := n % 8 }⟩
  else if b = 0xF4 then ⟨text, some { owed := 3, high := 0x8F, bits := n % 8 }⟩
  else ⟨text.push replacement, none⟩

/-- One byte. -/
def step (p : Progress) (b : UInt8) : Progress :=
  match p.pending with
  | none => begin p.text b
  | some q =>
    if q.low ≤ b ∧ b ≤ q.high then
      let bits := q.bits * 64 + b.toNat % 64
      if q.owed ≤ 1 then ⟨p.text.push (Char.ofNat bits), none⟩
      else ⟨p.text, some { owed := q.owed - 1, bits := bits }⟩
    else begin (p.text.push replacement) b

/-- The text at the end; a character left open is replaced. -/
def finish (p : Progress) : String :=
  match p.pending with
  | none => p.text
  | some _ => p.text.push replacement

/-- The text of bytes, with U+FFFD for what is not UTF-8. -/
def decodeLossy (bytes : List UInt8) : String := finish (bytes.foldl step {})

end Dissect.Utf8

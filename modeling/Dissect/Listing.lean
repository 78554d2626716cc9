/-
Listings: the text of decoded instructions.

# Lines

A line is the mnemonic, then a blank, then the operands that have a
text, commas between them. Whether an operand has a text is decided by
the text: an operand that comes out empty is passed over as if it were
not there. A line is written from left to right, and a listener may be
told of each operand, with its text, when it is written.

# Names for numbers

An immediate and a known address are shown as the name of the symbol
there, if there is one, and as a hexadecimal numeral otherwise. In a
memory reference the displacement is looked up the same way; a zero
displacement is not shown, and the sign of a displacement without a
symbol becomes the operator before it.
-/
import Dissect.Instruction.Basic
import Dissect.Register.Names
import Dissect.Symbol.Table

namespace Dissect

/-- What operands are named by. -/
structure Listing where
  registers : RegisterNames
  symbols : Option SymbolTable

namespace Listing

/-- The name of the symbol at an address. -/
def symbolName? (l : Listing) (a : Address) : Option String :=
  (l.symbols.bind fun t => t.lookup? a).map (·.name)

-- ==================================================== memory references

/-- The registers of a memory reference: the base, the index and the
scale if it is more than one, with a plus between base and index. -/
def registerPart (l : Listing) (m : MemoryOperand) : String :=
  let base :=
    match m.base with
    | some r => l.registers r.id
    | none => ""
  match m.index with
  | none => base
  | some r =>
    (if base.isEmpty then "" else base ++ " + ") ++ l.registers r.id
      ++ if m.scale > 1 then " * " ++ Numeral.decimal m.scale.toNat else ""

/-- The registers of a reference and its displacement behind them. -/
def withDisplacement (l : Listing) (d : Int64) (registers : String) : String :=
  if d = 0 then registers
  else
    match l.symbolName? d.toUInt64, registers.isEmpty with
    | some name, true => name
    | some name, false => registers ++ " + " ++ name
    | none, true => Numeral.signedHex d.toInt
    | none, false =>
      registers ++ (if d < 0 then " - " else " + ") ++ Numeral.hex d.toInt.natAbs

/-- The text of a memory reference, in brackets; empty if it has no
terms. -/
def memoryText (l : Listing) (m : MemoryOperand) : String :=
  let inner := l.withDisplacement m.displacement (l.registerPart m)
  if inner.isEmpty then "" else "[" ++ inner ++ "]"

-- ====================================================== operands, lines

/-- The text of an operand; empty if it is not shown. -/
def operandText (l : Listing) (o : Operand) : String :=
  match o.kind with
  | .register r => l.registers r.id
  | .immediate v => (l.symbolName? v.toUInt64).getD (Numeral.signedHex v.toInt)
  | .memory a => (l.symbolName? a).getD (Numeral.hex a.toNat)
  | .displacement m => l.memoryText m
  | .unknown => ""

/-- The operands of a list that have a text, each with it, in order. -/
def told (l : Listing) (os : List Operand) : List (Operand × String) :=
  (os.map fun o => (o, l.operandText o)).filter fun p => !p.2.isEmpty

/-- The operands that are shown, each with its text, in order. -/
def shown (l : Listing) (i : Instruction) : List (Operand × String) := l.told i.operands.toList

section Writing

variable {m : Type → Type} [Monad m]

/-- Write operands behind what is written already, and tell the listener
of each one that has a text. The first to be written stands behind a
blank, the others behind a comma. -/
def writeFrom (l : Listing) (listen : Operand → String → m Unit) :
    (first : Bool) → (written : String) → List Operand → m String
  | _, written, [] => pure written
  | first, written, o :: rest =>
    let text := l.operandText o
    if text.isEmpty then l.writeFrom listen first written rest
    else do
      listen o text
      l.writeFrom listen false (written ++ (if first then " " else ", ") ++ text) rest

/-- Write the line of an instruction. -/
def writeLine (l : Listing) (listen : Operand → String → m Unit) (i : Instruction) : m String :=
  l.writeFrom listen true i.mnemonic i.operands.toList

end Writing

/-- The line of an instruction. -/
def line (l : Listing) (i : Instruction) : String := Id.run (l.writeLine (fun _ _ => pure ()) i)

/-- The lines of instructions, in order. -/
def lines (l : Listing) (is : List Instruction) : List String := is.map l.line

end Listing

end Dissect

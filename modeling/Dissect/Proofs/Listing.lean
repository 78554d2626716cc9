/-
Which operands a listing shows.

# Two accounts

A listing passes over an operand when its text comes out empty. What
ought to be passed over is a matter of the operand alone: one that is
not modelled, and a memory reference without terms
(`OperandKind.Renderable`).

# Where they part

Numerals are never empty, and with a register in it a reference is not
empty either. So the two accounts differ in one case: the text is the
name of a symbol and nothing else, and the name is empty
(`Listing.Hides`). `operandText_eq_empty_iff` is the whole comparison;
it rests on what makes each part of a text empty.
-/
import Dissect.Listing

namespace Dissect

/-- There is something to show. -/
def OperandKind.Renderable : OperandKind → Prop
  | .register _ | .immediate _ | .memory _ => True
  | .displacement m => m.base.isSome ∨ m.index.isSome ∨ m.displacement ≠ 0
  | .unknown => False

/-- The address whose symbol, if there is one, is all that is shown. -/
def OperandKind.namedAddress? : OperandKind → Option Address
  | .immediate v => some v.toUInt64
  | .memory a => some a
  | .displacement m =>
    if m.displacementOnly && m.displacement != 0 then some m.displacement.toUInt64 else none
  | .register _ | .unknown => none

/-- A reference is shown by its registers or else by its displacement. -/
theorem OperandKind.renderable_displacement_iff {m : MemoryOperand} :
    (displacement m).Renderable ↔ (m.displacementOnly = true → m.displacement ≠ 0) := by
  obtain ⟨base, index, scale, d⟩ := m
  unfold Renderable MemoryOperand.displacementOnly
  cases base with
  | some r => simp
  | none =>
      cases index with
      | some r => simp
      | none => simp

-- ============================================================== numerals

theorem Numeral.hex_ne_empty (n : Nat) : hex n ≠ "" := by
  simp [hex]

theorem Numeral.signedHex_ne_empty (i : Int) : signedHex i ≠ "" := by
  cases i with
  | ofNat n => exact hex_ne_empty n
  | negSucc n => simp [signedHex]

namespace Listing

variable {l : Listing}

/-- All that is shown of an operand is the name of a symbol without
one. -/
def Hides (l : Listing) (kind : OperandKind) : Prop :=
  ∃ a, kind.namedAddress? = some a ∧ l.symbolName? a = some ""

-- ============================================================= the parts

/-- A name or else some other text is empty if the name is. -/
theorem getD_eq_empty_iff {name? : Option String} {other : String} (h : other ≠ "") :
    name?.getD other = "" ↔ name? = some "" := by
  cases name? with
  | none => simp [h]
  | some name => simp

/-- The registers of a reference have a text if there are any. -/
theorem registerPart_eq_empty_iff (hregisters : ∀ id, l.registers id ≠ "")
    (m : MemoryOperand) : l.registerPart m = "" ↔ m.displacementOnly = true := by
  unfold registerPart MemoryOperand.displacementOnly
  cases m.index with
  | some r => simp [hregisters]
  | none =>
      cases m.base with
      | some r => simp [hregisters]
      | none => simp

/-- Behind no registers a displacement is empty if it is zero or if its
symbol has no name. -/
theorem withDisplacement_eq_empty_iff (d : Int64) (registers : String) :
    l.withDisplacement d registers = ""
      ↔ registers = "" ∧ (d = 0 ∨ l.symbolName? d.toUInt64 = some "") := by
  unfold withDisplacement
  by_cases hd : d = 0
  · simp [hd]
  · rw [if_neg hd]
    split
    · next name hname hempty =>
      simp [hd, hname, String.isEmpty_iff.mp hempty]
    · next name hname hempty =>
      simp [String.isEmpty_eq_false_iff.mp hempty]
    · next hname hempty =>
      simp [hd, hname, Numeral.signedHex_ne_empty]
    · next hname hempty =>
      simp [String.isEmpty_eq_false_iff.mp hempty]

/-- Only the absolute forms are without text: at zero, or at a symbol
without a name. -/
theorem memoryText_eq_empty_iff (hregisters : ∀ id, l.registers id ≠ "")
    (m : MemoryOperand) :
    l.memoryText m = ""
      ↔ m.displacementOnly = true
        ∧ (m.displacement = 0 ∨ l.symbolName? m.displacement.toUInt64 = some "") := by
  unfold memoryText
  rw [← registerPart_eq_empty_iff hregisters, ← withDisplacement_eq_empty_iff]
  dsimp only
  split
  · next hempty => simp [String.isEmpty_iff.mp hempty]
  · next hempty => simpa [String.isEmpty_iff] using hempty

-- ============================================================== operands

/-- An operand comes out empty exactly when there is nothing to show, or
when all there is to show is a name that is empty. -/
theorem operandText_eq_empty_iff (hregisters : ∀ id, l.registers id ≠ "") (o : Operand) :
    l.operandText o = "" ↔ ¬ o.kind.Renderable ∨ l.Hides o.kind := by
  unfold operandText Hides
  cases o.kind with
  | register r => simp [OperandKind.Renderable, OperandKind.namedAddress?, hregisters]
  | immediate v =>
      simp [OperandKind.Renderable, OperandKind.namedAddress?,
        getD_eq_empty_iff (Numeral.signedHex_ne_empty _)]
  | memory a =>
      simp [OperandKind.Renderable, OperandKind.namedAddress?,
        getD_eq_empty_iff (Numeral.hex_ne_empty _)]
  | displacement m =>
      dsimp only
      rw [memoryText_eq_empty_iff hregisters]
      rw [OperandKind.renderable_displacement_iff]
      by_cases honly : m.displacementOnly = true
      · by_cases hzero : m.displacement = 0
        · simp [honly, hzero]
        · simp [OperandKind.namedAddress?, honly, hzero]
      · simp [OperandKind.namedAddress?, honly]
  | unknown => simp [OperandKind.Renderable]

/-- What is shown of an instruction is every operand with a text. -/
theorem mem_shown_iff {i : Instruction} {o : Operand} (ho : o ∈ i.operands) :
    (o, l.operandText o) ∈ l.shown i ↔ l.operandText o ≠ "" := by
  unfold shown told
  rw [List.mem_filter, List.mem_map]
  constructor
  · rintro ⟨-, h⟩
    simpa [String.isEmpty_eq_false_iff] using h
  · intro h
    exact ⟨⟨o, by simpa using ho, rfl⟩, by simpa [String.isEmpty_eq_false_iff] using h⟩

end Listing

end Dissect

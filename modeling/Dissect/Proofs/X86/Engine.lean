/-
What decoding makes of the answers of an engine, whatever the engine.

# What is assumed of an engine

Nothing here looks into an engine. Where a result needs something of it,
that is an assumption with a name: the length of an instruction is at
least one and at most fifteen, and no more than the bytes there are
(`Engine.Sized`); an answer rests on the bytes that were consumed for it,
fifteen at most (`Engine.Consuming`). The second gives the first
(`Engine.Consuming.sized`), since an instruction that took no byte would
be found where there is none.

# Instructions

Each operand of an answer is appended as one operand, whatever stands
before it (`Raw.exists_kind`), so the operands of a decoded instruction
come in the order of the answer, stamped with their places
(`Raw.getElem?_assemble`). All else of a decoded instruction is read off
the answer directly, and so the lengths that an engine answers are the
sizes of instructions (`Engine.Sized.measured`): nothing else is needed
of a decoder for a sweep to get on.
-/
import Dissect.Proofs.Instruction.History
import Dissect.Proofs.Sweep
import Dissect.X86.Decode

namespace Dissect

namespace Instruction

/-- Append operands in order. -/
def appendAll (i : Instruction) (kinds : List OperandKind) : Instruction :=
  kinds.foldl append i

/-- Appending changes nothing but the operands. -/
theorem appendAll_eq (i : Instruction) (kinds : List OperandKind) :
    ∃ operands, i.appendAll kinds = { i with operands := operands } := by
  unfold appendAll
  induction kinds generalizing i with
  | nil => exact ⟨i.operands, rfl⟩
  | cons kind kinds ih =>
      obtain ⟨operands, h⟩ := ih (i.append kind)
      exact ⟨operands, h⟩

/-- Appending adds the kinds behind those that are there. -/
theorem kinds_appendAll (i : Instruction) (kinds : List OperandKind) :
    (i.appendAll kinds).operands.toList.map (·.kind)
      = i.operands.toList.map (·.kind) ++ kinds := by
  unfold appendAll
  induction kinds generalizing i with
  | nil => exact (List.append_nil _).symm
  | cons kind kinds ih =>
      rw [List.foldl_cons, ih, kinds_append, List.append_assoc]
      rfl

/-- Operands that are appended are stamped like those that are there. -/
theorem Stamped.appendAll {i : Instruction} (h : i.Stamped) (kinds : List OperandKind) :
    (i.appendAll kinds).Stamped := by
  unfold Instruction.appendAll
  induction kinds generalizing i with
  | nil => exact h
  | cons kind kinds ih => exact ih (h.append kind)

/-- An instruction without operands has none at a wrong place. -/
theorem stamped_of_operands {i : Instruction} (h : i.operands = #[]) : i.Stamped := by
  intro k o ho
  rw [h] at ho
  cases ho

/-- What was appended can be told from the result. -/
theorem append_inj {i : Instruction} {kind kind' : OperandKind}
    (h : i.append kind = i.append kind') : kind = kind' := by
  have hkinds := i.kinds_append kind
  rw [h, kinds_append] at hkinds
  exact (List.cons.inj (List.append_cancel_left hkinds)).1.symm

end Instruction

namespace X86

variable {e : Engine} {mode : Mode} {a : Address} {bytes : List UInt8} {r : Raw}

-- =========================================================== assumptions

namespace Engine

/-- An instruction takes at least one of the bytes, at most fifteen and no
more than there are. -/
def Sized (e : Engine) : Prop :=
  ∀ ⦃mode : Mode⦄ ⦃a : Address⦄ ⦃bytes : List UInt8⦄ ⦃r : Raw⦄,
    e.read mode a bytes = .instruction r → 1 ≤ r.length ∧ r.length ≤ min 15 bytes.length

/-- The answer for some bytes rests on the first `n` of them: these are
there, they are fifteen at most, and before any other bytes they have the
same answer. -/
structure RestsOn (e : Engine) (mode : Mode) (a : Address) (bytes : List UInt8) (n : Nat) :
    Prop where
  given : n ≤ bytes.length
  short : n ≤ 15
  same : ∀ other, other.take n = bytes.take n → e.read mode a other = e.read mode a bytes

/-- The engine consumes at most fifteen bytes, and what it answers depends
on the bytes it consumed alone. An instruction is as long as the bytes
consumed for it. Bytes that end early are no such answer: there the end
was reached; and where there are no bytes at all, they do end early. -/
structure Consuming (e : Engine) : Prop where
  instruction : ∀ ⦃mode : Mode⦄ ⦃a : Address⦄ ⦃bytes : List UInt8⦄ ⦃r : Raw⦄,
    e.read mode a bytes = .instruction r → e.RestsOn mode a bytes r.length
  refused : ∀ ⦃mode : Mode⦄ ⦃a : Address⦄ ⦃bytes : List UInt8⦄,
    e.read mode a bytes = .refused → ∃ n, e.RestsOn mode a bytes n
  empty : ∀ (mode : Mode) (a : Address), e.read mode a [] = .short

/-- What an engine consumes bounds the length of an instruction. It is not
zero: on no bytes at all the engine would answer the same. -/
theorem Consuming.sized (he : e.Consuming) : e.Sized := by
  intro mode a bytes r h
  have hrests := he.instruction h
  have hpos : r.length ≠ 0 := by
    intro hzero
    have hsame := hrests.same [] (by rw [hzero, List.take_zero, List.take_zero])
    rw [he.empty, h] at hsame
    cases hsame
  have hgiven := hrests.given
  have hshort := hrests.short
  omega

end Engine

-- ============================================================== operands

namespace Raw

/-- Memory at a distance from the next instruction is at a known
address. -/
theorem memory_of_relative (h : r.ipRelative = true) (out : Instruction) :
    r.memory mode out = out.append (.memory r.ipRelativeAddress) := by
  unfold memory
  rw [if_pos h]
  rfl

/-- Memory without a register is at its displacement. -/
theorem memory_of_direct (h : r.ipRelative = false)
    (hregisters : r.memoryBase = 0 ∧ r.memoryIndex = 0) (out : Instruction) :
    r.memory mode out = out.append (.memory (r.directAddress mode)) := by
  unfold memory
  rw [h, if_neg Bool.false_ne_true, if_pos hregisters]
  rfl

/-- Memory with a register is a reference made of its parts. -/
theorem memory_of_registers (h : r.ipRelative = false)
    (hregisters : ¬ (r.memoryBase = 0 ∧ r.memoryIndex = 0)) (out : Instruction) :
    r.memory mode out
      = out.append (.displacement (.ofParts ((register? r.memoryBase).map ({ id := · }))
          ((register? r.memoryIndex).map ({ id := · })) r.memoryIndexScale
          (r.displacement mode))) := by
  unfold memory
  rw [h, if_neg Bool.false_ne_true, if_neg hregisters]
  rfl

/-- Each part of an answer appends one operand. What kind of operand that
is does not depend on what it is appended to. -/
theorem exists_kind (r : Raw) (mode : Mode) :
    ∃ kind : Part → OperandKind, ∀ part out, r.operand mode out part = out.append (kind part) := by
  have hparts : ∀ part, ∃ kind, ∀ out, r.operand mode out part = out.append kind := by
    intro part
    cases part with
    | memory =>
        cases hrelative : r.ipRelative with
        | true => exact ⟨_, memory_of_relative hrelative⟩
        | false =>
            by_cases hregisters : r.memoryBase = 0 ∧ r.memoryIndex = 0
            · exact ⟨_, memory_of_direct hrelative hregisters⟩
            · exact ⟨_, memory_of_registers hrelative hregisters⟩
    | _ => exact ⟨_, fun out => rfl⟩
  exact ⟨fun part => (hparts part).choose, fun part => (hparts part).choose_spec⟩

/-- The operands of an answer are appended in its order. -/
theorem operands_eq {kind : Part → OperandKind}
    (hkind : ∀ part out, r.operand mode out part = out.append (kind part)) (out : Instruction) :
    r.operands mode out = out.appendAll (r.parts.map kind) := by
  unfold operands Instruction.appendAll
  rw [List.foldl_map]
  have hstep : r.operand mode = fun out part => out.append (kind part) := by
    funext out part
    exact hkind part out
  rw [hstep]

/-- An assembled instruction is a bare one with the operands of the
answer, its flags and its length as payload. -/
theorem assemble_eq (r : Raw) (mode : Mode) (a : Address) :
    ∃ kind : Part → OperandKind, (∀ part out, r.operand mode out part = out.append (kind part))
      ∧ r.assemble mode a
        = { ({ address := a, size := UInt32.ofNat r.length,
               mnemonic := Text.lowerAscii r.mnemonic } : Instruction).appendAll
              (r.parts.map kind) with
            flags := r.flags, payload := some (.decoded r.length) } := by
  obtain ⟨kind, hkind⟩ := r.exists_kind mode
  refine ⟨kind, hkind, ?_⟩
  rw [← operands_eq hkind]
  rfl

/-- The operands of an assembled instruction are stamped with their
places. -/
theorem stamped_assemble (r : Raw) (mode : Mode) (a : Address) : (r.assemble mode a).Stamped := by
  obtain ⟨kind, -, hassemble⟩ := r.assemble_eq mode a
  rw [hassemble]
  exact (Instruction.stamped_of_operands rfl).appendAll (r.parts.map kind)

/-- The operand at a place is what the part at that place appends. -/
theorem getElem?_assemble {k : Nat} {part : Part} {kind : OperandKind}
    (hk : r.parts[k]? = some part) (hkind : ∀ out, r.operand mode out part = out.append kind)
    (a : Address) : (r.assemble mode a).operands[k]? = some ⟨kind, k⟩ := by
  obtain ⟨kindOf, hkindOf, hassemble⟩ := r.assemble_eq mode a
  -- any instruction serves to tell the two kinds apart
  have hsame : kindOf part = kind := by
    have hout := hkind (placeholder a 0)
    rw [hkindOf] at hout
    exact Instruction.append_inj hout
  have hstamped := r.stamped_assemble mode a
  have hkinds : (r.assemble mode a).operands.toList.map (·.kind) = r.parts.map kindOf := by
    rw [hassemble]
    exact Instruction.kinds_appendAll _ _
  have hplace : ((r.assemble mode a).operands.toList.map (·.kind))[k]? = some kind := by
    rw [hkinds, List.getElem?_map, hk, Option.map_some, hsame]
  rw [List.getElem?_map, Array.getElem?_toList] at hplace
  obtain ⟨o, ho, hokind⟩ := Option.map_eq_some_iff.mp hplace
  have hposition := hstamped k o ho
  rw [ho, ← hokind, ← hposition]

end Raw

-- ============================================================== decoding

/-- What is decoded is an instruction that the engine answered, or the
first byte of what the engine refused. -/
theorem Engine.decode_eq_ok {i : Instruction} (h : e.decode mode a bytes = .ok i) :
    (∃ r, e.read mode a bytes = .instruction r ∧ i = r.assemble mode a)
      ∨ ∃ first rest, bytes = first :: rest ∧ e.read mode a bytes = .refused
          ∧ i = placeholder a first := by
  unfold decode at h
  split at h
  · cases h
  · next first rest =>
    split at h
    · next r hread =>
      cases h
      exact .inl ⟨r, hread, rfl⟩
    · next hread =>
      cases h
      exact .inr ⟨first, rest, rfl, hread, rfl⟩
    · cases h

/-- Where the lengths of an engine are right, so are the sizes of what is
decoded with it, in any mode. -/
theorem Engine.Sized.measured (he : e.Sized) (mode : Mode) : (e.decoder mode).Measured where
  decoded := by
    intro a bytes i h
    rcases decode_eq_ok h with ⟨r, hread, rfl⟩ | ⟨first, rest, rfl, -, rfl⟩
    · obtain ⟨hpos, hle⟩ := he hread
      have hsize : (UInt32.ofNat r.length).toNat = r.length := by
        apply UInt32.toNat_ofNat_of_lt'
        unfold UInt32.size
        omega
      obtain ⟨kind, -, hassemble⟩ := r.assemble_eq mode a
      obtain ⟨operands, hoperands⟩ := Instruction.appendAll_eq _ (r.parts.map kind)
      rw [hassemble, hoperands]
      refine ⟨rfl, ?_⟩
      show 1 ≤ (UInt32.ofNat r.length).toNat ∧ (UInt32.ofNat r.length).toNat ≤ _
      omega
    · refine ⟨rfl, Nat.le_refl 1, ?_⟩
      show 1 ≤ min 15 (rest.length + 1)
      omega

end X86

end Dissect

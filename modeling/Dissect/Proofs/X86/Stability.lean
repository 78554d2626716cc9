/-
That more bytes do not change an instruction.

# More bytes

An engine answers by the bytes that it consumes (`Engine.Consuming`), so
an answer stays the same before any further bytes (`RestsOn.read_append`).
The answer that bytes end early is no such answer, and there nothing is
decoded yet. Fifteen bytes are never cut too short: either the answer
about all the bytes rests on these fifteen, or the answer about the
fifteen would hold of all of them (`Consuming.read_take`). This is why a
window of fifteen bytes of a file shows what the whole file would
(`disassembleAt_widen`).

# What is invalid

Neither the flow of control nor the name of an instruction marks it as
invalid (`Raw.contains_invalid_flags`), so an instruction that is marked
stands in for bytes that are none, and the others come with the decoder's
payload.
-/
import Dissect.Proofs.X86.Subset

namespace Dissect.X86

variable {e : Engine} {mode : Mode} {a : Address} {bytes : List UInt8} {i : Instruction}

-- ============================================================ more bytes

namespace Engine

/-- An answer stays the same before any further bytes. -/
theorem RestsOn.read_append {n : Nat} (h : e.RestsOn mode a bytes n) (extra : List UInt8) :
    e.read mode a (bytes ++ extra) = e.read mode a bytes :=
  h.same _ (List.take_append_of_le_length h.given)

/-- An answer stays the same without the bytes after the first fifteen. -/
theorem RestsOn.read_take {n : Nat} (h : e.RestsOn mode a bytes n) :
    e.read mode a (bytes.take maxLength) = e.read mode a bytes := by
  have hshort : n ≤ maxLength := h.short
  apply h.same
  rw [List.take_take, Nat.min_eq_left hshort]

/-- Bytes that do not end early have an answer that rests on some of
them. -/
theorem Consuming.exists_restsOn (he : e.Consuming) (h : e.read mode a bytes ≠ .short) :
    ∃ n, e.RestsOn mode a bytes n := by
  cases hread : e.read mode a bytes with
  | instruction r => exact ⟨_, he.instruction hread⟩
  | refused => exact he.refused hread
  | short => exact absurd hread h

/-- Only the first fifteen bytes count. -/
theorem Consuming.read_take (he : e.Consuming) (mode : Mode) (a : Address)
    (bytes : List UInt8) : e.read mode a (bytes.take maxLength) = e.read mode a bytes := by
  by_cases hall : e.read mode a bytes = .short
  · by_cases hfront : e.read mode a (bytes.take maxLength) = .short
    · rw [hall, hfront]
    · -- an answer about the fifteen would be the answer about them all
      obtain ⟨n, hrests⟩ := he.exists_restsOn hfront
      have hsame := hrests.read_append (bytes.drop maxLength)
      rw [List.take_append_drop] at hsame
      exact hsame.symm
  · obtain ⟨n, hrests⟩ := he.exists_restsOn hall
    exact hrests.read_take

/-- What is decoded depends on the first byte and on the answer. -/
theorem decode_congr {other : List UInt8} (hhead : other.head? = bytes.head?)
    (hread : e.read mode a other = e.read mode a bytes) :
    e.decode mode a other = e.decode mode a bytes := by
  cases bytes with
  | nil =>
      rw [List.head?_nil, List.head?_eq_none_iff] at hhead
      rw [hhead]
  | cons first rest =>
      obtain ⟨rest', rfl⟩ := List.head?_eq_some_iff.mp hhead
      unfold decode
      dsimp only
      rw [hread]

/-- The first fifteen bytes are decoded like all of them. -/
theorem Consuming.decode_take (he : e.Consuming) (mode : Mode) (a : Address)
    (bytes : List UInt8) : e.decode mode a (bytes.take maxLength) = e.decode mode a bytes :=
  decode_congr (by simp [List.head?_take, maxLength]) (he.read_take mode a bytes)

/-- What is decoded is decoded before any further bytes. -/
theorem Consuming.decode_append (he : e.Consuming) (h : e.decode mode a bytes = .ok i)
    (extra : List UInt8) : e.decode mode a (bytes ++ extra) = .ok i := by
  have hread : e.read mode a bytes ≠ .short := by
    intro hshort
    rcases decode_eq_ok h with ⟨r, hr, -⟩ | ⟨first, rest, -, hr, -⟩
    · rw [hr] at hshort
      cases hshort
    · rw [hr] at hshort
      cases hshort
  obtain ⟨n, hrests⟩ := he.exists_restsOn hread
  have hhead : (bytes ++ extra).head? = bytes.head? := by
    cases bytes with
    | nil => cases h
    | cons first rest => rfl
  rw [decode_congr hhead (hrests.read_append extra), h]

end Engine

-- =============================================================== windows

/-- A narrower window is the front of a wider one. -/
theorem window_eq_map_take (image : Image) (data : Bytes) {n limit : Nat} (hpos : 0 < n)
    (h : n ≤ limit) (a : Address) :
    window image data n a = (window image data limit a).map (List.take n) := by
  unfold window
  cases image.offset a with
  | error e => rfl
  | ok o =>
      have hcut : (data.extract o.toNat (o.toNat + n)).toList
          = (data.extract o.toNat (o.toNat + limit)).toList.take n := by
        simp [Array.toList_extract, List.extract_eq_take_drop, List.take_take, h]
      simp only [bind, Except.bind, hcut]
      cases (data.extract o.toNat (o.toNat + limit)).toList with
      | nil =>
          rw [List.take_nil]
          rfl
      | cons first rest =>
          obtain ⟨k, rfl⟩ := Nat.exists_eq_add_of_lt hpos
          rfl

/-- A window of fifteen bytes of a file is as good as any wider one. -/
theorem disassembleAt_widen (he : e.Consuming) (mode : Mode) (image : Image) (data : Bytes)
    {limit : Nat} (h : maxLength ≤ limit) (a : Address) :
    disassembleAt image data { e.decoder mode with maxLength := limit } a
      = disassembleAt image data (e.decoder mode) a := by
  unfold disassembleAt
  simp only [Engine.decoder]
  rw [window_eq_map_take image data (n := maxLength) (by decide) h]
  cases window image data limit a with
  | error e => rfl
  | ok bytes => simp only [bind, Except.bind, Except.map, he.decode_take]

-- ============================================================== validity

namespace Raw

/-- The flow of control marks nothing as invalid. -/
theorem flowFlags_and_invalid (flow : Flow) :
    (flowFlags flow).bits &&& InstructionFlags.invalid.bits = 0 := by
  cases flow <;> rfl

/-- The name of an instruction marks nothing as invalid. -/
theorem nameFlags_and_invalid (name : String) :
    (nameFlags name).bits &&& InstructionFlags.invalid.bits = 0 := by
  unfold nameFlags
  split <;> rfl

/-- No instruction of an engine is marked as invalid. -/
theorem contains_invalid_flags (r : Raw) : r.flags.contains .invalid = false := by
  have hboth : r.flags.bits &&& InstructionFlags.invalid.bits
      = (flowFlags r.flow).bits &&& InstructionFlags.invalid.bits
        ||| (nameFlags r.mnemonic).bits &&& InstructionFlags.invalid.bits :=
    UInt32.toBitVec_inj.mp BitVec.and_or_distrib_right
  rw [flowFlags_and_invalid, nameFlags_and_invalid] at hboth
  unfold InstructionFlags.contains
  rw [hboth]
  rfl

end Raw

/-- The instruction stands in for a byte that is none. -/
structure StandsFor (i : Instruction) (first : UInt8) : Prop where
  invalid : i.isInvalid = true
  size : i.size = 1
  mnemonic : i.mnemonic = "db"
  operands : i.operands = #[⟨.immediate first.toUInt64.toInt64, 0⟩]
  payload : i.payload = none

/-- A placeholder stands in for its byte. -/
theorem standsFor_placeholder (a : Address) (first : UInt8) :
    StandsFor (placeholder a first) first where
  invalid := rfl
  size := rfl
  mnemonic := rfl
  operands := rfl
  payload := rfl

/-- What is decoded has its operands at their places. It stands in for the
first byte, or is no invalid instruction and has the decoder's payload. -/
theorem standsFor_or_valid (h : e.decode mode a bytes = .ok i) :
    i.Stamped ∧ ((∃ first, bytes.head? = some first ∧ StandsFor i first)
      ∨ (i.flags.contains .invalid = false
        ∧ i.payload.map Payload.backend = some "iced-x86")) := by
  rcases Engine.decode_eq_ok h with ⟨r, -, rfl⟩ | ⟨first, rest, rfl, -, rfl⟩
  · obtain ⟨kind, -, hassemble⟩ := r.assemble_eq mode a
    refine ⟨r.stamped_assemble mode a, .inr ⟨?_, ?_⟩⟩
    · rw [hassemble]
      exact r.contains_invalid_flags
    · rw [hassemble]
      rfl
  · refine ⟨?_, .inl ⟨first, rfl, standsFor_placeholder a first⟩⟩
    exact (Instruction.stamped_of_operands (i := { address := a, size := 1, mnemonic := "db" })
      rfl).append _

/-- Whatever the engine, an instruction that is decoded stays the same
however many bytes follow, and a window of the longest length shows as
much as any wider one. -/
theorem decode_stable (e : Engine) (he : e.Consuming)
    (h : (e.decoder mode).decode a bytes = .ok i) :
    (∀ extra, (e.decoder mode).decode a (bytes ++ extra) = .ok i)
      ∧ i.address = a
      ∧ 1 ≤ i.size.toNat ∧ i.size.toNat ≤ min 15 bytes.length
      ∧ i.Stamped
      ∧ ((∃ first, bytes.head? = some first ∧ StandsFor i first)
        ∨ (i.flags.contains .invalid = false
          ∧ i.payload.map Payload.backend = some "iced-x86"))
      ∧ ∀ (image : Image) (data : Bytes) (limit : Nat) (b : Address), 15 ≤ limit →
          disassembleAt image data { e.decoder mode with maxLength := limit } b
            = disassembleAt image data (e.decoder mode) b := by
  obtain ⟨haddress, hpos, hle⟩ := (he.sized.measured mode).decoded _ _ _ h
  obtain ⟨hstamped, hkind⟩ := standsFor_or_valid h
  refine ⟨he.decode_append h, haddress, hpos, hle, hstamped, hkind, ?_⟩
  intro image data limit b hlimit
  exact disassembleAt_widen he mode image data hlimit b

/-- A load that is followed by others, and a byte that is no instruction
in 64-bit mode. -/
theorem decode_stable_load :
    subset.Consuming
      ∧ (∀ extra, ((subset.decoder .bits32).decode 0x401000 ([0x8B, 0x43, 0x10] ++ extra)).map
          (fun i => (i.size, i.mnemonic)) = .ok (3, "mov"))
      ∧ ∀ extra, ((subset.decoder .bits64).decode 0x401000 ([0x06, 0x90] ++ extra)).map
          (fun i => (i.size, i.mnemonic)) = .ok (1, "db") := by
  have hload : (subset.decoder .bits32).decode 0x401000 [0x8B, 0x43, 0x10]
      = .ok
        { address := 0x401000, size := 3, mnemonic := "mov",
          operands :=
            #[⟨.register ⟨37, 0⟩, 0⟩, ⟨.displacement ⟨some ⟨40, 0⟩, none, 1, 0x10⟩, 1⟩],
          payload := some (.decoded 3) } := by
    decide +kernel
  have hbyte : (subset.decoder .bits64).decode 0x401000 [0x06, 0x90]
      = .ok (placeholder 0x401000 0x06) := by
    decide +kernel
  refine ⟨consuming_subset, ?_, ?_⟩
  · intro extra
    rw [(decode_stable subset consuming_subset hload).1 extra]
    rfl
  · intro extra
    rw [(decode_stable subset consuming_subset hbyte).1 extra]
    rfl

end Dissect.X86

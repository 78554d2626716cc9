/-
That the engine of the opcode tables meets what is assumed of engines.

# Readers are local

A reader takes some bytes off the front, and would have answered the
same before any other bytes (`Reader.Local`). One byte is local, and a
reader made of local ones is local, so the proof goes along the reading
of an instruction: displacement, reference, operands, body, opcode,
prefixes (`local_instruction`).

# Consumption

What is read of a window of fifteen bytes is what the answer rests on
(`restsOn_of_instruction`). Bytes that end early are the one answer that
rests on more, namely on their end. With fifteen bytes or more they do
not count as such, and the answer rests on the fifteen
(`restsOn_of_none`).
-/
import Dissect.Proofs.X86.Engine
import Dissect.X86.Subset

namespace Dissect

namespace X86

namespace Reader

variable {α β : Type}

/-- The bytes a reader takes stand at the front, and what stands behind
them makes no difference. -/
def Local (r : Reader α) : Prop :=
  ∀ ⦃bytes rest : List UInt8⦄ ⦃a : α⦄, r bytes = some (a, rest) →
    ∃ used, bytes = used ++ rest ∧ ∀ more, r (used ++ more) = some (a, more)

/-- An answer without reading takes nothing. -/
theorem local_pure (a : α) : Local (pure a) := by
  intro bytes rest b h
  cases h
  exact ⟨[], rfl, fun more => rfl⟩

/-- One reader after the other takes the bytes of both. -/
theorem Local.bind {r : Reader α} {f : α → Reader β} (hr : r.Local)
    (hf : ∀ a, (f a).Local) : Local (r >>= f) := by
  intro bytes rest b h
  obtain ⟨⟨a, mid⟩, ha, hb⟩ := Option.bind_eq_some_iff.mp h
  obtain ⟨first, rfl, hfirst⟩ := hr ha
  obtain ⟨second, rfl, hsecond⟩ := hf a hb
  refine ⟨first ++ second, (List.append_assoc ..).symm, ?_⟩
  intro more
  rw [List.append_assoc]
  exact Option.bind_eq_some_iff.mpr ⟨(a, second ++ more), hfirst _, hsecond more⟩

/-- What is made of an answer takes no more bytes. -/
theorem Local.map {r : Reader α} (hr : r.Local) (f : α → β) :
    Local (r >>= fun a => pure (f a)) :=
  hr.bind fun a => local_pure (f a)

/-- A byte is taken off the front. -/
theorem local_byte : Local byte := by
  intro bytes rest b h
  cases bytes with
  | nil => cases h
  | cons first bytes =>
      cases h
      exact ⟨[b], rfl, fun more => rfl⟩

/-- So are any number of bytes. -/
theorem local_take (count : Nat) : Local (take count) := by
  induction count with
  | zero => exact local_pure []
  | succ count ih => exact local_byte.bind fun b => ih.map _

/-- A number is made of its bytes alone. -/
theorem local_unsigned (width : Nat) : Local (unsigned width) := by
  induction width with
  | zero => exact local_pure 0
  | succ width ih => exact local_byte.bind fun b => ih.map _

/-- With a sign it is made of the same bytes. -/
theorem local_signed (width : Nat) : Local (signed width) := (local_unsigned width).map _

end Reader

open Reader

-- ===================================================== memory references

/-- The displacement of 16-bit addressing has a width by its mode. -/
theorem local_wordDisplacement (mod : Nat) : Local (wordDisplacement mod) := by
  unfold wordDisplacement
  split
  · exact (local_signed 1).map _
  · exact (local_unsigned 2).map _
  · exact local_pure 0

/-- A 16-bit reference is a displacement and no more bytes. -/
theorem local_wordReference (m : ModRM) : Local (wordReference m) := by
  unfold wordReference
  split
  · exact (local_unsigned 2).map _
  · exact (local_wordDisplacement m.mod).map _

/-- The displacement beside a base has a width by its mode. -/
theorem local_displacement (mod : Nat) : Local (displacement mod) := by
  unfold displacement
  split
  · exact local_signed 1
  · exact local_signed 4
  · exact local_pure 0

/-- Behind a SIB byte comes the displacement that it asks for. -/
theorem local_scaledReference (c : Context) (mod : Nat) : Local (scaledReference c mod) := by
  unfold scaledReference
  refine local_byte.bind fun sib => ?_
  dsimp only
  split
  · exact (local_signed 4).map _
  · exact (local_displacement mod).map _

/-- A wide reference has a SIB byte, an address or a displacement. -/
theorem local_wideReference (c : Context) (m : ModRM) : Local (wideReference c m) := by
  unfold wideReference
  split
  · exact local_scaledReference c m.mod
  · split
    · refine (local_signed 4).bind fun d => ?_
      split
      · exact local_pure _
      · exact local_pure _
    · exact (local_displacement m.mod).map _

/-- The reference of a ModRM byte is one of the two kinds. -/
theorem local_reference (c : Context) (m : ModRM) : Local (reference c m) := by
  unfold reference
  split
  · exact local_wordReference m
  · exact local_wideReference c m

-- ============================================================== operands

/-- A slot takes the bytes of a number or none at all. -/
theorem local_operand (c : Context) (opcode : Nat) (a : Addressing) (s : Slot) :
    Local (operand c opcode a s) := by
  cases s with
  | registerOrMemory w =>
      rw [operand]
      split
      · exact local_pure _
      · exact local_pure _
  | memoryOnly =>
      rw [operand]
      split
      · exact local_pure _
      · exact local_pure _
  | immediate w => exact (local_unsigned _).map _
  | wideImmediate => exact (local_unsigned _).map _
  | signedByte w => exact (local_unsigned 1).map _
  | secondByte => exact (local_unsigned 1).map _
  | shortBranch => exact (local_signed 1).map _
  | nearBranch => exact (local_signed _).map _
  | directMemory => exact (local_unsigned _).map _
  | farPointer => exact (local_take _).map _
  | register | segmentSource | segmentTarget | opcodeRegister | general | segment | one
  | stringMemory | tableMemory => exact local_pure _

/-- The slots take their bytes one after the other. -/
theorem local_operands (c : Context) (opcode : Nat) (a : Addressing) (slots : List Slot) :
    Local (operands c opcode a slots) := by
  induction slots with
  | nil => exact local_pure []
  | cons s rest ih => exact (local_operand c opcode a s).bind fun o => ih.map _

-- ========================================================== instructions

/-- Refused or not, what follows a reference are the operands. -/
theorem local_afterReference (c : Context) (opcode : Nat) (f : Form) (a : Addressing) :
    Local (afterReference c opcode f a) := by
  unfold afterReference
  split
  · refine (local_operands c opcode a f.slots).bind fun os => ?_
    split
    · exact local_pure _
    · exact local_pure none
  · exact local_pure none

/-- A reference comes before the operands, if the form has one. -/
theorem local_body (c : Context) (opcode : Nat) (m : ModRM) (f : Form) :
    Local (body c opcode m f) := by
  have hrest : ∀ r : Option Reference, Local (afterReference c opcode f ⟨m, r⟩) :=
    fun r => local_afterReference c opcode f ⟨m, r⟩
  unfold body
  split
  · exact local_pure none
  · dsimp only
    split
    · exact (local_reference c m).bind fun r => (local_pure (some r)).bind hrest
    · exact (local_pure none).bind hrest

/-- The ModRM byte is one byte or none. -/
theorem local_modRM (e : Entry) : Local (modRM e) := by
  unfold modRM
  split
  · exact local_byte.map _
  · exact local_pure _

/-- The ModRM byte decides what follows it. -/
theorem local_afterOpcode (c : Context) (opcode : Nat) (e : Entry) :
    Local (afterOpcode c opcode e) := by
  refine (local_modRM e).bind fun m => ?_
  split
  · exact local_body c opcode m _
  · exact local_pure none

/-- Either opcode decides what follows it. -/
theorem local_afterPrefixes (c : Context) (opcode : UInt8) :
    Local (afterPrefixes c opcode) := by
  unfold afterPrefixes
  split
  · exact local_byte.bind fun second => local_afterOpcode c _ _
  · exact local_afterOpcode c _ _

/-- Prefixes are taken one by one, and then the opcode. -/
theorem local_scan? (mode : Mode) (p : Prefixes) :
    Local (α := Prefixes × UInt8) (Prefixes.scan? mode p) := by
  intro bytes rest found h
  induction bytes generalizing p with
  | nil => cases h
  | cons b bytes ih =>
      rw [Prefixes.scan?] at h
      cases hb : p.absorb? mode b with
      | some q =>
          rw [hb] at h
          obtain ⟨used, rfl, hmore⟩ := ih q h
          refine ⟨b :: used, rfl, ?_⟩
          intro more
          rw [List.cons_append, Prefixes.scan?, hb]
          exact hmore more
      | none =>
          rw [hb] at h
          cases h
          refine ⟨[b], rfl, ?_⟩
          intro more
          show Prefixes.scan? mode p (b :: more) = _
          rw [Prefixes.scan?, hb]

/-- An instruction is made of the bytes that it takes. -/
theorem local_instruction (mode : Mode) : Local (instruction mode) := by
  refine (local_scan? mode {}).bind fun found => ?_
  exact (local_afterPrefixes ⟨mode, found.1⟩ found.2).map _

-- =========================================================== consumption

/-- Adding an operand does not change the length. -/
theorem Raw.length_add (c : Context) (next : Address) (r : Raw) (o : Encoded) :
    (r.add c next o).length = r.length := by
  cases o with
  | immediate part value => cases part <;> rfl
  | memory reference => cases reference <;> rfl
  | _ => rfl

/-- The answer for an instruction has the length it was given. -/
theorem Body.length_raw (b : Body) (c : Context) (a : Address) (length : Nat) :
    (b.raw c a length).length = length := by
  unfold raw
  generalize hstart : ({ mnemonic := b.form.mnemonic, length := length, flow := b.form.flow } : Raw)
    = start
  have hlength : start.length = length := by rw [← hstart]
  clear hstart
  induction b.operands generalizing start with
  | nil => exact hlength
  | cons o os ih => exact ih _ (by rw [Raw.length_add, hlength])

variable {mode : Mode} {bytes rest : List UInt8} {answer : Context × Option Body}

/-- The answer of the tables for what was read of a window. -/
def answered (a : Address) (length : Nat) : Context × Option Body → Outcome
  | (c, some body) => .instruction (body.raw c a length)
  | (_, none) => .refused

/-- Where something is read of the window, that decides the answer. -/
theorem read_of_instruction (h : instruction mode (bytes.take maxLength) = some (answer, rest))
    (a : Address) :
    subset.read mode a bytes
      = answered a ((bytes.take maxLength).length - rest.length) answer := by
  obtain ⟨c, body⟩ := answer
  simp only [subset, h]
  cases body with
  | none => rfl
  | some body => rfl

/-- Where nothing is, it is the number of bytes that decides. -/
theorem read_of_none (h : instruction mode (bytes.take maxLength) = none) (a : Address) :
    subset.read mode a bytes = if maxLength ≤ bytes.length then .refused else .short := by
  simp only [subset, h]

/-- An answer about a window rests on the bytes that were read of it. -/
theorem restsOn_of_instruction
    (h : instruction mode (bytes.take maxLength) = some (answer, rest)) (a : Address) :
    subset.RestsOn mode a bytes ((bytes.take maxLength).length - rest.length) := by
  obtain ⟨used, hused, hmore⟩ := local_instruction mode h
  have hlength : (bytes.take maxLength).length = used.length + rest.length := by
    rw [hused, List.length_append]
  have hshort : used.length ≤ maxLength := by
    rw [List.length_take] at hlength
    omega
  have hn : (bytes.take maxLength).length - rest.length = used.length := by omega
  -- the front of a window is the front of the bytes
  have hcut : ∀ l : List UInt8, (l.take maxLength).take used.length = l.take used.length := by
    intro l
    rw [List.take_take, Nat.min_eq_left hshort]
  have hfront : bytes.take used.length = used := by
    rw [← hcut, hused, List.take_left]
  rw [hn]
  refine ⟨?_, hshort, ?_⟩
  · rw [List.length_take] at hlength
    omega
  · intro other hother
    obtain ⟨more, hwindow⟩ : ∃ more, other.take maxLength = used ++ more := by
      have hsplit := List.take_append_drop used.length (other.take maxLength)
      rw [hcut, hother, hfront] at hsplit
      exact ⟨_, hsplit.symm⟩
    have hother' : instruction mode (other.take maxLength) = some (answer, more) := by
      rw [hwindow]
      exact hmore more
    rw [read_of_instruction hother' a, read_of_instruction h a, hn, hwindow,
      List.length_append, Nat.add_sub_cancel]

/-- A window that is not enough for an instruction is refused if it is of
the longest length, and the answer rests on all of it. -/
theorem restsOn_of_none (h : instruction mode (bytes.take maxLength) = none)
    (hlong : maxLength ≤ bytes.length) (a : Address) :
    subset.RestsOn mode a bytes maxLength := by
  refine ⟨hlong, Nat.le_refl _, ?_⟩
  intro other hother
  have hlong' : maxLength ≤ other.length := by
    have hlength := congrArg List.length hother
    rw [List.length_take, List.length_take] at hlength
    omega
  rw [read_of_none h a, read_of_none (by rw [hother, h]) a, if_pos hlong, if_pos hlong']

/-- The engine of the tables consumes at most fifteen bytes, and answers
by them alone. -/
theorem consuming_subset : subset.Consuming where
  instruction := by
    intro mode a bytes r h
    cases hread : instruction mode (bytes.take maxLength) with
    | none =>
        rw [read_of_none hread] at h
        split at h <;> cases h
    | some found =>
        obtain ⟨⟨c, body⟩, rest⟩ := found
        have hrests := restsOn_of_instruction hread a
        rw [read_of_instruction hread a] at h
        cases body with
        | none => cases h
        | some body =>
            cases h
            rw [Body.length_raw]
            exact hrests
  refused := by
    intro mode a bytes h
    cases hread : instruction mode (bytes.take maxLength) with
    -- nothing was read: that is refused only if no more bytes would help
    | none =>
        rw [read_of_none hread] at h
        by_cases hlong : maxLength ≤ bytes.length
        · exact ⟨_, restsOn_of_none hread hlong a⟩
        · rw [if_neg hlong] at h
          cases h
    | some found => exact ⟨_, restsOn_of_instruction hread a⟩
  empty := fun mode a => rfl

end X86

end Dissect

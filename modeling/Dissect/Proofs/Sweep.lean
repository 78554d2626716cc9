/-
Linear sweeps over an image: every step gets on, and every sweep ends.

# One step

An instruction takes at least one byte and at most fifteen
(`Decoder.Measured`), so the address after it is larger, unless the sum
wraps around the address space. Segments that are confined to a range
with fifteen addresses to spare leave no room for that: an instruction
that wraps ends below all segments, where nothing is decoded
(`stop_toNat_of_next`).

# Whole sweeps

`Sweeps` is the run of a sweep without a count: instructions until the
first error. Each step takes the address up towards the end of the
range, so there is such a run from every address (`exists_sweeps`), a
sweep with a count is what the run starts with (`Sweeps.sweep_eq`), and
the run is `Linear`: its instructions follow each other as numbers do.
-/
import Dissect.Proofs.Segment
import Dissect.Proofs.Walk
import Dissect.Sweep
import Mathlib.Algebra.Group.Nat.Defs
import Mathlib.Data.List.Chain

namespace Dissect

/-- What a decoder gives lies at the address asked for, and takes at
least one of the bytes, at most fifteen and no more than there are. -/
structure Decoder.Measured (d : Decoder) : Prop where
  decoded : ∀ (a : Address) (bytes : List UInt8) (i : Instruction), d.decode a bytes = .ok i →
    i.address = a ∧ 1 ≤ i.size.toNat ∧ i.size.toNat ≤ min 15 bytes.length

variable {image : Image} {data : Bytes} {d : Decoder} {a : Address} {i j : Instruction}

-- ============================================================== one step

theorem window_eq_ok {limit : Nat} {bytes : List UInt8}
    (h : window image data limit a = .ok bytes) :
    ∃ o, fileOffset? image.segments a = some o
      ∧ bytes = (data.extract o.toNat (o.toNat + limit)).toList := by
  unfold window at h
  obtain ⟨o, ho, h⟩ := except_bind_eq_ok_iff.mp h
  refine ⟨o, Image.offset_eq_ok_iff.mp ho, ?_⟩
  split at h
  · cases h
  · cases h
    rfl

/-- An instruction of an image is decoded from the bytes behind its
address, and marked with the address's segment. -/
theorem disassembleAt_eq_ok (h : disassembleAt image data d a = .ok i) :
    ∃ o decoded, fileOffset? image.segments a = some o
      ∧ d.decode a (data.extract o.toNat (o.toNat + d.maxLength)).toList = .ok decoded
      ∧ i = { decoded with segment := image.segmentIndex? a } := by
  unfold disassembleAt at h
  obtain ⟨bytes, hbytes, h⟩ := except_bind_eq_ok_iff.mp h
  obtain ⟨o, ho, rfl⟩ := window_eq_ok hbytes
  split at h
  · cases h
  · next decoded hdecode =>
    cases h
    exact ⟨o, decoded, ho, hdecode, rfl⟩

/-- An instruction has the address it was asked for at. -/
theorem Decoder.Measured.address_eq (hd : d.Measured)
    (h : disassembleAt image data d a = .ok i) : i.address = a := by
  obtain ⟨o, decoded, -, hdecode, rfl⟩ := disassembleAt_eq_ok h
  exact (hd.decoded _ _ _ hdecode).1

/-- An instruction has from 1 to 15 bytes. -/
theorem Decoder.Measured.size_mem (hd : d.Measured)
    (h : disassembleAt image data d a = .ok i) :
    1 ≤ i.size.toNat ∧ i.size.toNat ≤ 15 := by
  obtain ⟨o, decoded, -, hdecode, rfl⟩ := disassembleAt_eq_ok h
  obtain ⟨-, hpos, hle⟩ := hd.decoded _ _ _ hdecode
  exact ⟨hpos, Nat.le_trans hle (Nat.min_le_left _ _)⟩

/-- The bytes that an instruction takes are in the file. -/
theorem Decoder.Measured.in_file (hd : d.Measured)
    (h : disassembleAt image data d a = .ok i) {o : UInt64}
    (ho : fileOffset? image.segments a = some o) : o.toNat + i.size.toNat ≤ data.size := by
  obtain ⟨o', decoded, ho', hdecode, rfl⟩ := disassembleAt_eq_ok h
  rw [ho] at ho'
  cases ho'
  obtain ⟨-, hpos, hle⟩ := hd.decoded _ _ _ hdecode
  rw [Array.length_toList, Array.size_extract] at hle
  show o.toNat + decoded.size.toNat ≤ data.size
  omega

/-- The end of an instruction is a sum of two words, and may wrap. -/
theorem Instruction.stop_toNat (i : Instruction) :
    i.stop.toNat = (i.address.toNat + i.size.toNat) % 2 ^ 64 := by
  unfold stop
  rw [UInt64.toNat_add, UInt32.toNat_toUInt64]

/-- All segments lie among the `extent` addresses from `low` on. -/
def Image.Confined (image : Image) (low extent : Nat) : Prop :=
  ∀ g ∈ image.segments, low ≤ g.start.toNat ∧ g.stop.toNat ≤ low + extent

variable {low extent : Nat}

/-- Instructions are found only where the segments are. -/
theorem Image.Confined.bounds (hc : image.Confined low extent)
    (h : disassembleAt image data d a = .ok i) : low ≤ a.toNat ∧ a.toNat < low + extent := by
  obtain ⟨o, decoded, ho, -, -⟩ := disassembleAt_eq_ok h
  obtain ⟨g, hmem, hg⟩ := exists_segment_of_fileOffset? ho
  obtain ⟨hstart, hstop⟩ := Segment.contains_iff.mp hg
  obtain ⟨hlow, hhigh⟩ := hc g hmem
  omega

/-- Between two instructions the address does not wrap: after a wrap it
would lie below the first of them by almost the whole address space, and
segments do not lie that far apart. -/
theorem stop_toNat_of_next (hd : d.Measured) (hc : image.Confined low extent)
    (hroom : extent + 15 ≤ 2 ^ 64) (h : disassembleAt image data d a = .ok i)
    (hnext : disassembleAt image data d i.stop = .ok j) :
    i.stop.toNat = a.toNat + i.size.toNat := by
  obtain ⟨hlow, hhigh⟩ := hc.bounds h
  obtain ⟨hlow', -⟩ := hc.bounds hnext
  obtain ⟨-, hsize⟩ := hd.size_mem h
  have hstop := i.stop_toNat
  have hword := a.toNat_lt
  rw [hd.address_eq h] at hstop
  rw [hstop] at hlow' ⊢
  omega

-- ========================================================== whole sweeps

/-- The instructions of a sweep that nothing but an error ends, and that
error. -/
inductive Sweeps (image : Image) (data : Bytes) (d : Decoder) :
    Address → List Instruction → LoadError → Prop
  | stop {a : Address} {e : LoadError} (h : disassembleAt image data d a = .error e) :
      Sweeps image data d a [] e
  | step {a : Address} {i : Instruction} {is : List Instruction} {e : LoadError}
      (h : disassembleAt image data d a = .ok i) (rest : Sweeps image data d i.stop is e) :
      Sweeps image data d a (i :: is) e

variable {is : List Instruction} {e : LoadError}

/-- A sweep with a count is the front of the run, and ends in its error
when the count goes past it. -/
theorem Sweeps.sweep_eq (h : Sweeps image data d a is e) (count : Nat) :
    sweep image data d count a
      = (is.take count, if is.length < count then some e else none) := by
  induction h generalizing count with
  | stop h =>
      cases count with
      | zero => rfl
      | succ count =>
          rw [sweep, h]
          simp
  | step h rest ih =>
      cases count with
      | zero => rfl
      | succ count =>
          rw [sweep, h]
          simp only [ih count, List.take_succ_cons, List.length_cons,
            Nat.add_lt_add_iff_right]

/-- There is a run from every address. What is left of the range bounds
its length: a step that is followed by another takes the address up. -/
theorem exists_sweeps (hd : d.Measured) (hc : image.Confined low extent)
    (hroom : extent + 15 ≤ 2 ^ 64) (data : Bytes) (a : Address) :
    ∃ is e, Sweeps image data d a is e ∧ is.length ≤ low + extent - a.toNat := by
  induction hleft : low + extent - a.toNat using Nat.strong_induction_on generalizing a with
  | _ left ih =>
    subst hleft
    cases h : disassembleAt image data d a with
    | error e => exact ⟨[], e, .stop h, Nat.zero_le _⟩
    | ok i =>
        obtain ⟨-, hhigh⟩ := hc.bounds h
        -- an address that has wrapped leaves more of the range, not less,
        -- so what comes next is looked at before the induction goes on
        cases hnext : disassembleAt image data d i.stop with
        | error e =>
            refine ⟨[i], e, .step h (.stop hnext), ?_⟩
            rw [List.length_singleton]
            omega
        | ok j =>
            have hstop := stop_toNat_of_next hd hc hroom h hnext
            obtain ⟨hpos, -⟩ := hd.size_mem h
            obtain ⟨is, e, hrest, hlength⟩ := ih _ (by omega) i.stop rfl
            refine ⟨i :: is, e, .step h hrest, ?_⟩
            rw [List.length_cons]
            omega

/-- Instructions that follow each other from an address on, each marked
with the segment it starts in. -/
structure Linear (image : Image) (a : Address) (is : List Instruction) : Prop where
  first : ∀ i ∈ is.head?, i.address = a
  sized : ∀ i ∈ is, 1 ≤ i.size.toNat ∧ i.size.toNat ≤ 15
  /-- Each starts where the one before it ended, and no sum wraps. -/
  follows : is.IsChain fun i j =>
    j.address = i.stop ∧ j.address.toNat = i.address.toNat + i.size.toNat
  attributed : ∀ i ∈ is, ∃ k g, i.segment = some k
    ∧ image.segmentIndex? i.address = some k
    ∧ image.segments[k]? = some g ∧ g.contains i.address = true

/-- An instruction carries the index of the segment that contains its
address. -/
theorem Decoder.Measured.attributed (hd : d.Measured)
    (h : disassembleAt image data d a = .ok i) :
    ∃ k g, i.segment = some k ∧ image.segmentIndex? i.address = some k
      ∧ image.segments[k]? = some g ∧ g.contains i.address = true := by
  have haddress := hd.address_eq h
  obtain ⟨o, decoded, ho, -, hi⟩ := disassembleAt_eq_ok h
  obtain ⟨k, g, hindex, hg, hcontains⟩ := exists_segmentIndex? ho
  rw [haddress]
  refine ⟨k, g, ?_, hindex, hg, hcontains⟩
  rw [hi]
  exact hindex

/-- Where there is room behind the segments, instructions follow each
other without wrapping. The induction is on the sweep. -/
theorem Sweeps.linear (hd : d.Measured) (hc : image.Confined low extent)
    (hroom : extent + 15 ≤ 2 ^ 64) (h : Sweeps image data d a is e) : Linear image a is := by
  induction h with
  | stop h =>
      exact ⟨by simp, by simp, .nil, by simp⟩
  | @step a i is e h rest ih =>
      refine ⟨?_, ?_, ?_, ?_⟩
      · intro j hj
        cases hj
        exact hd.address_eq h
      · rintro j (_ | ⟨_, hj⟩)
        · exact hd.size_mem h
        · exact ih.sized j hj
      · refine List.isChain_cons.mpr ⟨?_, ih.follows⟩
        intro j hj
        have hstart := ih.first j hj
        cases rest with
        | stop _ => cases hj
        | step hnext _ =>
            refine ⟨hstart, ?_⟩
            rw [hstart, hd.address_eq h]
            exact stop_toNat_of_next hd hc hroom h hnext
      · rintro j (_ | ⟨_, hj⟩)
        · exact hd.attributed h
        · exact ih.attributed j hj

/-- The addresses go up. -/
theorem Linear.increasing (h : Linear image a is) :
    (is.map fun i => i.address.toNat).Pairwise (· < ·) := by
  apply List.isChain_iff_pairwise.mp
  rw [List.isChain_map]
  refine h.follows.imp_of_mem_imp ?_
  rintro i j hi - ⟨-, hnext⟩
  obtain ⟨hpos, -⟩ := h.sized i hi
  omega

end Dissect

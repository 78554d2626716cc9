/-
Disassembly of loaded images.

# Where instructions come from

In a loaded image the segment that an instruction is marked with is the
one its bytes were found through (`fileOffset?_of_segmentIndex?`). Only
the first of its addresses is sure to be in it: the bytes are taken from
the file, up to its end and to the longest instruction, and the end of
the segment plays no part. So an instruction can run past the segment,
and it does when the file goes on with its remaining bytes
(`Session.load_attributes`).

# Decoders

Both results hold of every decoder whose sizes are right
(`Decoder.Measured`). For x86 nothing of the kind is assumed of the
decoder: it follows from the lengths that an engine answers
(`X86.Engine.Sized.measured`).

# Sweeps

Everything a section says is 32 bits wide, so the segments of an image
are confined to `reach` from its base on, wherever the base is
(`confined_segmentsOf`). That is less than the address space by far, and
a sweep ends after at most as many instructions (`Session.load_sweeps`).
-/
import Dissect.Proofs.Pe.Resolution
import Dissect.Proofs.X86.Subset

namespace Dissect

/-- Every byte of the instruction has an address, and the segment
contains it. -/
def Segment.Holds (g : Segment) (i : Instruction) : Prop :=
  ∀ n < i.size.toNat, ∃ b : Address, b.toNat = i.address.toNat + n ∧ g.contains b = true

/-- A segment that contains the start of an instruction holds it as far
as its own end. -/
theorem Segment.holds_iff {g : Segment} {i : Instruction} (hpos : 1 ≤ i.size.toNat)
    (h : g.contains i.address = true) :
    g.Holds i ↔ i.address.toNat + i.size.toNat ≤ g.stop.toNat := by
  obtain ⟨hstart, -⟩ := contains_iff.mp h
  constructor
  · intro hholds
    obtain ⟨b, hb, hcontains⟩ := hholds (i.size.toNat - 1) (by omega)
    obtain ⟨-, hstop⟩ := contains_iff.mp hcontains
    omega
  · intro hle n hn
    have hword := g.stop.toNat_lt
    have hb : (UInt64.ofNat (i.address.toNat + n)).toNat = i.address.toNat + n := by
      apply UInt64.toNat_ofNat_of_lt'
      unfold UInt64.size
      omega
    refine ⟨UInt64.ofNat (i.address.toNat + n), hb, contains_iff.mpr ?_⟩
    rw [hb]
    omega

namespace Pe

variable {sections : List Section} {base a : Address}

-- ============================================================== segments

/-- Every segment of an image is backed by a section of its table. -/
theorem exists_backs_of_mem {g : Segment} (h : g ∈ segmentsOf sections base) :
    ∃ s, Backs base s g := by
  obtain ⟨s, -, hs⟩ := List.mem_filterMap.mp h
  obtain ⟨g', hg', hbacks⟩ := exists_backs_of_fits (fits_of_toSegment? hs)
  rw [hs] at hg'
  cases hg'
  exact ⟨s, hbacks⟩

/-- The segments of an image lie within reach above its base. -/
theorem confined_segmentsOf {image : Image} (h : image.segments = segmentsOf sections base) :
    image.Confined base.toNat reach := by
  intro g hg
  rw [h] at hg
  obtain ⟨s, hbacks⟩ := exists_backs_of_mem hg
  have hrva := s.rva.toNat_lt
  have hextent := s.extent_lt
  rw [hbacks.start_eq, hbacks.stop_eq]
  unfold reach
  omega

/-- The segment with the index of an address gives its file offset. -/
theorem fileOffset?_of_segmentIndex? {k : Nat} {g : Segment} {o : UInt64}
    (hindex : segmentIndex? (segmentsOf sections base) a = some k)
    (hg : (segmentsOf sections base)[k]? = some g)
    (ho : fileOffset? (segmentsOf sections base) a = some o) : g.fileOffset? a = some o := by
  obtain ⟨hk, hcontains, hfirst⟩ := List.findIdx?_eq_some_iff_getElem.mp hindex
  rw [List.getElem?_eq_getElem hk] at hg
  cases hg
  obtain ⟨s, hbacks⟩ := exists_backs_of_mem (List.getElem_mem hk)
  obtain ⟨o', ho', -⟩ := hbacks.exists_offset (hbacks.contains_iff.mp hcontains)
  have hresolves := resolves_of_first (List.getElem?_eq_getElem hk) hcontains
    (fun j hj g' hg' => ?_) ho'
  · rw [hresolves.1] at ho
    rw [ho', ho]
  · obtain ⟨hj', rfl⟩ := List.getElem?_eq_some_iff.mp hg'
    simpa using hfirst j hj

-- ================================================== images of one address

/-- An image whose only section has one address, with an instruction of
five bytes behind it in the file, `mov eax, 1`. -/
def straddling (base rva : Nat) : Bytes :=
  List.toArray <| List.flatten
    [ -- DOS header
      [0x4D, 0x5A], blank 58, spell 4 64,
      -- signature and COFF header, one section
      signature.toList, spell 2 0x8664, spell 2 1, blank 12, spell 2 112, blank 2,
      -- optional header: no entry point, image base, no directories
      spell 2 0x20B, blank 22, spell 8 base, blank 80,
      -- section header: one address, in the file from 240 on
      [0x2E, 0x74], blank 6, spell 4 1, spell 4 rva, spell 4 1, spell 4 240, blank 12,
      spell 4 0x60000020,
      [0xB8, 1, 0, 0, 0] ]

/-- One at a usual base. -/
def oneByte : Bytes := straddling 0x140000000 0x1000

/-- One whose address is the last but one that there is. -/
def topmost : Bytes := straddling 0xFFFFFFFFFFFFE000 0x1FFE

theorem oneByte_stages :
    Nonempty (Stages .default OrdinalDatabase.builtin.lookup? oneByte) := by
  apply stages_of_isOk
  decide +kernel

theorem topmost_stages :
    Nonempty (Stages .default OrdinalDatabase.builtin.lookup? topmost) := by
  apply stages_of_isOk
  decide +kernel

-- ========================================================== instructions

namespace Session

/-- The segment that an instruction is marked with, the place in the file
it was decoded from, and how far the two agree. -/
structure Attributes (session : Session) (data : Bytes) (d : Decoder) (i : Instruction)
    (k : Nat) (g : Segment) (o : Nat) : Prop where
  marked : i.segment = some k ∧ session.segments[k]? = some g
  starts : g.contains i.address = true
  offset_eq : o = g.offset.toNat + (i.address.toNat - g.start.toNat)
  /-- The bytes decoded are those of the file. -/
  decoded : ∃ decoded, d.decode i.address (data.extract o (o + d.maxLength)).toList = .ok decoded
    ∧ i = { decoded with segment := some k }
  in_file : o + i.size.toNat ≤ data.size
  /-- The rest of the instruction is in the segment only as far as the
  segment goes. -/
  holds_iff : g.Holds i ↔ i.address.toNat + i.size.toNat ≤ g.stop.toNat
  /-- It goes far enough where there is room for any instruction, and
  where the file ends with the segment. -/
  holds_of_room : i.address.toNat + 15 ≤ g.stop.toNat
    ∨ data.size ≤ o + (g.stop.toNat - i.address.toNat) → g.Holds i

/-- Whatever image was loaded, an instruction is marked with a segment
that it starts in, and its bytes are the file's behind that address. The
x86 decoders over an engine whose lengths are right are among those that
this is about. -/
theorem load_attributes (session : Session) (data : Bytes)
    (h : (session.load data).2.outcome = .ok ()) :
    (∀ e : X86.Engine, e.Sized → ∀ mode, (e.decoder mode).Measured)
      ∧ ∀ d : Decoder, d.Measured → ∀ (bytes : Bytes) (a : Address) (i : Instruction),
          disassembleAt (session.load data).1.toImage bytes d a = .ok i →
            i.address = a ∧ ∃ k g o, (session.load data).1.Attributes bytes d i k g o := by
  refine ⟨fun e he => he.measured, ?_⟩
  intro d hd bytes a i hi
  obtain ⟨st⟩ := stages_of_load h
  rw [(load_of_stages st).1] at hi ⊢
  obtain ⟨hpos, hshort⟩ := hd.size_mem hi
  obtain ⟨k, g, hmark, hindex, hg, hstarts⟩ := hd.attributed hi
  obtain ⟨o, decoded, ho, hdecode, hdecoded⟩ := disassembleAt_eq_ok hi
  have hfile := hd.in_file hi ho
  have haddress := hd.address_eq hi
  -- offset and mark are looked up apart, but both come from the first
  -- segment that contains the address
  rw [haddress] at hindex
  rw [hindex] at hdecoded
  have hoffset := Segment.fileOffset?_eq_some_iff.mp (fileOffset?_of_segmentIndex? hindex hg ho)
  have hholds := Segment.holds_iff hpos hstarts
  rw [← haddress] at hoffset hdecode
  refine ⟨haddress, k, g, o.toNat, ⟨hmark, hg⟩, hstarts, hoffset.2,
    ⟨decoded, hdecode, hdecoded⟩, hfile, hholds, ?_⟩
  intro hroom
  obtain ⟨-, hstop⟩ := Segment.contains_iff.mp hstarts
  rw [hholds]
  omega

/-- All five bytes are decoded at the one address. -/
theorem oneByte_instruction :
    ∃ i, disassembleAt (({} : Session).load oneByte).1.toImage oneByte (X86.subset.decoder .bits64)
        0x140001000 = .ok i
      ∧ i.address = 0x140001000 ∧ i.size = 5 ∧ i.segment = some 0 := by
  have hvalue : (disassembleAt (({} : Session).load oneByte).1.toImage oneByte
      (X86.subset.decoder .bits64) 0x140001000).map (fun i => (i.address, i.size, i.segment))
        = .ok (0x140001000, 5, some 0) := by
    decide +kernel
  cases hi : disassembleAt (({} : Session).load oneByte).1.toImage oneByte
      (X86.subset.decoder .bits64) 0x140001000 with
  | error e =>
      rw [hi] at hvalue
      cases hvalue
  | ok i =>
      rw [hi] at hvalue
      injection hvalue with hvalue
      injection hvalue with haddress hvalue
      injection hvalue with hsize hsegment
      exact ⟨i, rfl, haddress, hsize, hsegment⟩

/-- The one byte of code starts an instruction that is attributed to
it. -/
theorem load_attributes_oneByte :
    (({} : Session).load oneByte).2.outcome = .ok ()
      ∧ (X86.subset.decoder .bits64).Measured
      ∧ ∃ i, disassembleAt (({} : Session).load oneByte).1.toImage oneByte
            (X86.subset.decoder .bits64) 0x140001000 = .ok i
          ∧ i.address = 0x140001000
          ∧ ∃ k g o, (({} : Session).load oneByte).1.Attributes oneByte (X86.subset.decoder .bits64)
              i k g o := by
  obtain ⟨st⟩ := oneByte_stages
  have h : (({} : Session).load oneByte).2.outcome = .ok () := (load_of_stages st).2
  obtain ⟨hmeasured, hattributes⟩ := load_attributes {} oneByte h
  have hd := hmeasured X86.subset X86.consuming_subset.sized .bits64
  obtain ⟨i, hi, -⟩ := oneByte_instruction
  exact ⟨h, hd, i, hi, hattributes _ hd oneByte _ i hi⟩

/-- The segment that the instruction is marked with does not hold it: it
ends after the first byte. -/
theorem oneByte_not_held :
    (({} : Session).load oneByte).2.outcome = .ok ()
      ∧ ∃ i, disassembleAt (({} : Session).load oneByte).1.toImage oneByte
            (X86.subset.decoder .bits64) 0x140001000 = .ok i
          ∧ ¬ ∃ k g, i.segment = some k
              ∧ (({} : Session).load oneByte).1.segments[k]? = some g ∧ g.Holds i := by
  obtain ⟨st⟩ := oneByte_stages
  obtain ⟨i, hi, haddress, hsize, hsegment⟩ := oneByte_instruction
  refine ⟨(load_of_stages st).2, i, hi, ?_⟩
  rintro ⟨k, g, hk, hg, hholds⟩
  rw [hsegment] at hk
  cases hk
  have hstop : (({} : Session).load oneByte).1.segments[0]?.map (fun g => g.stop)
      = some 0x140001001 := by
    decide +kernel
  rw [hg] at hstop
  replace hstop : g.stop = 0x140001001 := Option.some.inj hstop
  obtain ⟨b, hb, hcontains⟩ := hholds 1 (by rw [hsize]; decide)
  obtain ⟨-, hlt⟩ := Segment.contains_iff.mp hcontains
  rw [hstop, hb, haddress] at hlt
  exact absurd hlt (by decide)

-- ================================================================ sweeps

/-- Sweeps over a loaded image end and do not wrap, whatever the file,
the address and the measured decoder; those of x86 are measured if the
lengths of the engine are right. -/
theorem load_sweeps :
    (∀ e : X86.Engine, e.Sized → ∀ mode, (e.decoder mode).Measured)
      ∧ ∀ (session : Session) (data : Bytes), (session.load data).2.outcome = .ok () →
        ∀ d : Decoder, d.Measured → ∀ (bytes : Bytes) (a : Address),
          ∃ is e, (∀ count, sweep (session.load data).1.toImage bytes d count a
              = (is.take count, if is.length < count then some e else none))
            ∧ Linear (session.load data).1.toImage a is
            ∧ (is.map fun i => i.address.toNat).Pairwise (· < ·)
            ∧ is.length ≤ reach := by
  refine ⟨fun e he => he.measured, ?_⟩
  intro session data h d hd bytes a
  obtain ⟨st⟩ := stages_of_load h
  have hsegments : (session.load data).1.toImage.segments
      = segmentsOf st.sections st.headers.optional.imageBase := by
    rw [(load_of_stages st).1]
    rfl
  -- all segments are close behind the base, so an address that has wrapped
  -- past the end is in none of them
  have hconfined := confined_segmentsOf hsegments
  have hroom : reach + 15 ≤ 2 ^ 64 := by decide
  obtain ⟨is, e, hsweeps, hlength⟩ := exists_sweeps hd hconfined hroom bytes a
  have hlinear := hsweeps.linear hd hconfined hroom
  refine ⟨is, e, hsweeps.sweep_eq, hlinear, hlinear.increasing, ?_⟩
  cases hsweeps with
  | stop _ => exact Nat.zero_le _
  | step hstep _ =>
      obtain ⟨hlow, -⟩ := hconfined.bounds hstep
      omega

/-- The sweep of an instruction that wraps: the next address is three,
where nothing is. -/
theorem load_sweeps_topmost :
    (({} : Session).load topmost).2.outcome = .ok ()
      ∧ (sweep (({} : Session).load topmost).1.toImage topmost (X86.subset.decoder .bits64) 2
            0xFFFFFFFFFFFFFFFE).1.map (·.stop) = [3]
      ∧ (X86.subset.decoder .bits64).Measured
      ∧ ∃ is e, (∀ count, sweep (({} : Session).load topmost).1.toImage topmost
              (X86.subset.decoder .bits64) count 0xFFFFFFFFFFFFFFFE
            = (is.take count, if is.length < count then some e else none))
          ∧ Linear (({} : Session).load topmost).1.toImage 0xFFFFFFFFFFFFFFFE is
          ∧ (is.map fun i => i.address.toNat).Pairwise (· < ·)
          ∧ is.length ≤ reach := by
  obtain ⟨st⟩ := topmost_stages
  have h : (({} : Session).load topmost).2.outcome = .ok () := (load_of_stages st).2
  have hd := load_sweeps.1 X86.subset X86.consuming_subset.sized .bits64
  exact ⟨h, by decide +kernel, hd, load_sweeps.2 {} topmost h _ hd topmost _⟩

end Session

end Pe

end Dissect

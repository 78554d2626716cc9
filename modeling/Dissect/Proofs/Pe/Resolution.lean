/-
How a loaded image resolves addresses.

# Two accounts

The section table speaks in numbers: a section covers the addresses from
the image base plus its relative address on, as many as the larger of
its two sizes (`Section.Covers`). The image speaks in segments: a file
offset comes from the first segment that *gives* one, the index is that
of the first segment that *contains* the address, and a segment that
contains an address may still give no offset, namely when the sum is no
word.

# Why they agree

A section becomes a segment exactly when it fits into the address space
(`forall₂_backs_segmentsOf`), so the segments stand at the positions of
the sections that fit. What a section says is 32 bits wide, so its
segment gives an offset for each of its addresses
(`Backs.exists_offset`), and the first segment that gives an offset is the first that contains
the address. Relative addresses are resolved twice, by a session and by
the view that its directories were walked through, over the same
segments and with errors of their own.
-/
import Dissect.Proofs.Pe.Header
import Dissect.Proofs.Pe.Invariant

namespace Dissect

variable {base a : Address}

/-- A sum that is too large is no word. -/
theorem sum?_eq_none {n : Nat} (h : 2 ^ 64 ≤ a.toNat + n) : sum? a n = none := by
  unfold sum?
  apply if_neg
  unfold UInt64.size
  omega

-- ============================================================ first match

/-- A segment gives no offset for an address outside its range. -/
theorem Segment.fileOffset?_eq_none {g : Segment} (h : g.contains a = false) :
    g.fileOffset? a = none := by
  unfold fileOffset?
  rw [h]
  rfl

/-- The first segment that contains an address has its index, and its
offset if it gives one. -/
theorem resolves_of_first {segments : List Segment} {i : Nat} {g : Segment} {o : UInt64}
    (hg : segments[i]? = some g) (hcontains : g.contains a = true)
    (hfirst : ∀ j < i, ∀ g', segments[j]? = some g' → g'.contains a = false)
    (ho : g.fileOffset? a = some o) :
    fileOffset? segments a = some o ∧ segmentIndex? segments a = some i := by
  obtain ⟨hi, rfl⟩ := List.getElem?_eq_some_iff.mp hg
  constructor
  · refine List.findSome?_eq_some_iff.mpr
      ⟨segments.take i, segments[i], segments.drop (i + 1), ?_, ho, ?_⟩
    · rw [← List.drop_eq_getElem_cons hi, List.take_append_drop]
    · intro g' hmem
      obtain ⟨j, hj, rfl⟩ := List.mem_take_iff_getElem.mp hmem
      have hlt : j < i := by omega
      exact Segment.fileOffset?_eq_none (hfirst j hlt _ (List.getElem?_eq_getElem _))
  · refine List.findIdx?_eq_some_iff_getElem.mpr ⟨hi, hcontains, ?_⟩
    intro j hj
    have hout := hfirst j hj _ (List.getElem?_eq_getElem (by omega))
    simp [hout]

/-- An address that no segment contains has neither offset nor index. -/
theorem unresolved_of_outside {segments : List Segment}
    (h : ∀ g ∈ segments, g.contains a = false) :
    fileOffset? segments a = none ∧ segmentIndex? segments a = none :=
  ⟨List.findSome?_eq_none_iff.mpr fun g hg => Segment.fileOffset?_eq_none (h g hg),
    List.findIdx?_eq_none_iff.mpr h⟩

/-- An image refuses an address that its segments do not resolve. -/
theorem Image.offset_eq_error {image : Image} (h : fileOffset? image.segments a = none) :
    image.offset a = .error (.unresolved a) := by
  unfold Image.offset
  rw [h]

namespace Pe

-- ================================================== the sections' account

namespace Section

/-- The number of addresses a section takes up. -/
def extent (s : Section) : Nat := max s.virtualSize.toNat s.fileSize.toNat

/-- The section takes up addresses, and their end is one. -/
def Fits (s : Section) (base : Address) : Prop :=
  s.extent ≠ 0 ∧ base.toNat + s.rva.toNat + s.extent ≤ 2 ^ 64 - 1

instance (s : Section) (base : Address) : Decidable (s.Fits base) :=
  inferInstanceAs (Decidable (_ ∧ _))

/-- The address is one of those the section takes up. -/
def Covers (s : Section) (base a : Address) : Prop :=
  base.toNat + s.rva.toNat ≤ a.toNat ∧ a.toNat < base.toNat + s.rva.toNat + s.extent

/-- The place in the file of an address that the section takes up. -/
def placeOf (s : Section) (base a : Address) : Nat :=
  s.fileOffset.toNat + (a.toNat - base.toNat - s.rva.toNat)

theorem mappedSize_toNat (s : Section) : s.mappedSize.toNat = s.extent := UInt32.toNat_max _ _

theorem extent_lt (s : Section) : s.extent < 2 ^ 32 := by
  rw [← s.mappedSize_toNat]
  exact s.mappedSize.toNat_lt

end Section

/-- The sections that fit, in file order. -/
def kept (sections : List Section) (base : Address) : List Section :=
  sections.filter fun s => s.Fits base

-- ================================================= sections and segments

/-- The segment has the range and the file offset of the section. -/
structure Backs (base : Address) (s : Section) (g : Segment) : Prop where
  offset_eq : g.offset.toNat = s.fileOffset.toNat
  start_eq : g.start.toNat = base.toNat + s.rva.toNat
  stop_eq : g.stop.toNat = base.toNat + s.rva.toNat + s.extent

/-- A section that fits becomes a segment with its range. -/
theorem exists_backs_of_fits {s : Section} (h : s.Fits base) :
    ∃ g, s.toSegment? base = some g ∧ Backs base s g := by
  obtain ⟨hpos, hle⟩ := h
  have hword : ∀ n, n ≤ 2 ^ 64 - 1 → (UInt64.ofNat n).toNat = n := by
    intro n hn
    apply UInt64.toNat_ofNat_of_lt'
    unfold UInt64.size
    omega
  have hstart : sum? base s.rva.toNat = some (UInt64.ofNat (base.toNat + s.rva.toNat)) := by
    rw [sum?_eq_some_iff]
    exact hword _ (by omega)
  have hstop : sum? (UInt64.ofNat (base.toNat + s.rva.toNat)) s.mappedSize.toNat
      = some (UInt64.ofNat (base.toNat + s.rva.toNat + s.extent)) := by
    rw [sum?_eq_some_iff, s.mappedSize_toNat, hword _ hle, hword _ (by omega)]
  have hlt : UInt64.ofNat (base.toNat + s.rva.toNat)
      < UInt64.ofNat (base.toNat + s.rva.toNat + s.extent) := by
    rw [UInt64.lt_iff_toNat_lt, hword _ hle, hword _ (by omega)]
    omega
  refine ⟨⟨s.name, s.fileOffset.toUInt64, _, _, s.flags, hlt⟩, ?_, ?_⟩
  · unfold Section.toSegment? Segment.ofSize?
    simp only [hstart, Option.bind_eq_bind, Option.bind_some, hstop]
    exact dif_pos hlt
  · exact ⟨UInt32.toNat_toUInt64 _, hword _ (by omega), hword _ hle⟩

/-- A section that becomes a segment fits. -/
theorem fits_of_toSegment? {s : Section} {g : Segment} (h : s.toSegment? base = some g) :
    s.Fits base := by
  unfold Section.toSegment? at h
  obtain ⟨start, hstart, h⟩ := Option.bind_eq_some_iff.mp h
  unfold Segment.ofSize? at h
  split at h
  · next stop hstop =>
    split at h
    · next hlt =>
      have hstart' := sum?_eq_some_iff.mp hstart
      have hstop' := sum?_eq_some_iff.mp hstop
      have hlt' := UInt64.lt_iff_toNat_lt.mp hlt
      have hword := stop.toNat_lt
      rw [s.mappedSize_toNat] at hstop'
      constructor
      · omega
      · omega
    · cases h
  · cases h

/-- The segments of an image are those of the sections that fit, at the
same positions. -/
theorem forall₂_backs_segmentsOf (sections : List Section) (base : Address) :
    List.Forall₂ (Backs base) (kept sections base) (segmentsOf sections base) := by
  unfold kept segmentsOf
  induction sections with
  | nil => exact .nil
  | cons s rest ih =>
      by_cases h : s.Fits base
      · obtain ⟨g, hg, hbacks⟩ := exists_backs_of_fits h
        rw [List.filter_cons_of_pos (by simpa using h),
          List.filterMap_cons_some (f := fun s : Section => s.toSegment? base) hg]
        exact .cons hbacks ih
      · have hnone : s.toSegment? base = none := by
          cases hg : s.toSegment? base with
          | none => rfl
          | some g => exact absurd (fits_of_toSegment? hg) h
        rw [List.filter_cons_of_neg (by simpa using h),
          List.filterMap_cons_none (f := fun s : Section => s.toSegment? base) hnone]
        exact ih

namespace Backs

variable {s : Section} {g : Segment}

/-- A segment contains the addresses that its section covers. -/
theorem contains_iff (h : Backs base s g) : g.contains a = true ↔ s.Covers base a := by
  unfold Section.Covers
  rw [Segment.contains_iff, h.start_eq, h.stop_eq]

/-- The segment of a section gives an offset for every address it
contains: offset and distance are both below `2 ^ 32`. -/
theorem exists_offset (h : Backs base s g) (hcovers : s.Covers base a) :
    ∃ o, g.fileOffset? a = some o ∧ o.toNat = s.placeOf base a := by
  have hoffset := s.fileOffset.toNat_lt
  have hextent := s.extent_lt
  obtain ⟨hfrom, hto⟩ := hcovers
  have hplace : s.placeOf base a = g.offset.toNat + (a.toNat - g.start.toNat) := by
    unfold Section.placeOf
    rw [h.offset_eq, h.start_eq]
    omega
  have hlt : s.placeOf base a < UInt64.size := by
    unfold Section.placeOf UInt64.size
    omega
  refine ⟨UInt64.ofNat (s.placeOf base a), ?_, UInt64.toNat_ofNat_of_lt' hlt⟩
  unfold Segment.fileOffset?
  rw [if_pos (h.contains_iff.mpr ⟨hfrom, hto⟩), sum?_eq_some_iff, ← hplace]
  exact UInt64.toNat_ofNat_of_lt' hlt

end Backs

-- =============================================================== sessions

/-- At the first section that fits and covers the address, the segment
with the section's position resolves it. -/
theorem resolves_segmentsOf {i : Nat} {s : Section} (sections : List Section)
    (hs : (kept sections base)[i]? = some s) (hcovers : s.Covers base a)
    (hfirst : ∀ j < i, ∀ t, (kept sections base)[j]? = some t → ¬ t.Covers base a) :
    ∃ o g, o.toNat = s.placeOf base a ∧ fileOffset? (segmentsOf sections base) a = some o
      ∧ segmentIndex? (segmentsOf sections base) a = some i
      ∧ (segmentsOf sections base)[i]? = some g ∧ g.fileOffset? a = some o := by
  have hbacks := forall₂_backs_segmentsOf sections base
  obtain ⟨hlength, hat⟩ := List.forall₂_iff_get.mp hbacks
  obtain ⟨hi, rfl⟩ := List.getElem?_eq_some_iff.mp hs
  have hi' : i < (segmentsOf sections base).length := by omega
  have hback := hat i hi hi'
  obtain ⟨o, ho, hplace⟩ := hback.exists_offset hcovers
  have hresolves := resolves_of_first (List.getElem?_eq_getElem hi')
    (hback.contains_iff.mpr hcovers) (fun j hj g' hg' => ?_) ho
  · exact ⟨o, _, hplace, hresolves.1, hresolves.2, List.getElem?_eq_getElem hi', ho⟩
  · obtain ⟨hj', rfl⟩ := List.getElem?_eq_some_iff.mp hg'
    have hout := hfirst j hj _ (List.getElem?_eq_getElem (by omega))
    have hback' := hat j (by omega) hj'
    rw [Bool.eq_false_iff]
    exact fun hcontains => hout (hback'.contains_iff.mp hcontains)

/-- Outside the sections that fit nothing is resolved. -/
theorem unresolved_segmentsOf (sections : List Section)
    (h : ∀ s ∈ kept sections base, ¬ s.Covers base a) :
    fileOffset? (segmentsOf sections base) a = none
      ∧ segmentIndex? (segmentsOf sections base) a = none := by
  apply unresolved_of_outside
  intro g hg
  obtain ⟨hlength, hat⟩ := List.forall₂_iff_get.mp (forall₂_backs_segmentsOf sections base)
  obtain ⟨i, hi, rfl⟩ := List.getElem_of_mem hg
  have hi' : i < (kept sections base).length := by omega
  rw [Bool.eq_false_iff]
  exact fun hcontains =>
    h _ (List.getElem_mem hi') ((hat i hi' hi).contains_iff.mp hcontains)

/-- A view refuses a relative address that leaves the address space. -/
theorem View.offset_of_overflow {v : View} {rva : Nat} (h : 2 ^ 64 ≤ v.base.toNat + rva) :
    v.offset rva = .error (.unmapped rva) := by
  unfold View.offset View.address
  rw [sum?_eq_none h]
  rfl

namespace Session

/-- A session that resolves addresses as a section table and an image
base say. -/
structure Resolves (session : Session) (sections : List Section) (base : Address) :
    Prop where
  /-- The first section that fits and covers an address resolves it, and
  everything that is asked about the address agrees. -/
  first : ∀ (a : Address) (i : Nat) (s : Section),
    (kept sections base)[i]? = some s → s.Covers base a →
    (∀ j < i, ∀ t, (kept sections base)[j]? = some t → ¬ t.Covers base a) →
    ∃ (o : UInt64) (g : Segment),
      o.toNat = s.fileOffset.toNat + (a.toNat - base.toNat - s.rva.toNat)
      ∧ session.toImage.offset a = .ok o
      ∧ session.toImage.segmentIndex? a = some i
      ∧ session.segments[i]? = some g ∧ g.fileOffset? a = some o
  /-- An address that no such section covers is not resolved. -/
  outside : ∀ a : Address, (∀ s ∈ kept sections base, ¬ s.Covers base a) →
    session.toImage.offset a = .error (.unresolved a)
      ∧ session.toImage.segmentIndex? a = none
  /-- A session and a view of its segments agree on relative addresses. -/
  relative : ∀ (data : Bytes) (rva : UInt64) (n : Nat),
    (⟨data, session.segments, base⟩ : View).offset rva.toNat = .ok n
      ↔ ∃ o, session.rvaToOffset rva = .ok o ∧ o.toNat = n
  /-- Both refuse a relative address that leaves the address space. -/
  overflow : ∀ (data : Bytes) (rva : UInt64), 2 ^ 64 ≤ base.toNat + rva.toNat →
    session.rvaToOffset rva = .error (.unresolved rva)
      ∧ (⟨data, session.segments, base⟩ : View).offset rva.toNat
        = .error (.unmapped rva.toNat)

variable {session : Session} {data : Bytes}

/-- A relative address whose sum with the base is an address is resolved
as that. -/
theorem rvaToOffset_of_sum {rva a : UInt64}
    (h : sum? (session.imageBase?.getD 0) rva.toNat = some a) :
    session.rvaToOffset rva = session.toImage.offset a := by
  rw [rvaToOffset, h]

/-- One whose sum is none is reported unresolved. -/
theorem rvaToOffset_of_overflow {rva : UInt64}
    (h : sum? (session.imageBase?.getD 0) rva.toNat = none) :
    session.rvaToOffset rva = .error (.unresolved rva) := by
  rw [rvaToOffset, h]

/-- After a load, relative addresses are resolved as the view of the
load does. -/
theorem rvaToOffset_eq_ok_iff (st : Stages session.options session.names data)
    {rva o : UInt64} :
    ({ session with image := some st.image } : Session).rvaToOffset rva = .ok o
      ↔ ∃ a, sum? st.headers.optional.imageBase rva.toNat = some a
          ∧ fileOffset? st.view.segments a = some o := by
  cases hsum : sum? st.headers.optional.imageBase rva.toNat with
  | none =>
      have hvalue : ({ session with image := some st.image } : Session).rvaToOffset rva
          = .error (.unresolved rva) := rvaToOffset_of_overflow hsum
      rw [hvalue]
      simp
  | some a =>
      have hvalue : ({ session with image := some st.image } : Session).rvaToOffset rva
          = ({ session with image := some st.image } : Session).toImage.offset a :=
        rvaToOffset_of_sum hsum
      rw [hvalue]
      rw [Image.offset_eq_ok_iff]
      constructor
      · intro h
        exact ⟨a, rfl, h⟩
      · rintro ⟨a', ha', h⟩
        cases ha'
        exact h

/-- A session that holds the image of stages resolves addresses as its
section table says. -/
theorem resolves_of_stages (st : Stages session.options session.names data) :
    ({ session with image := some st.image } : Session).Resolves st.sections
      st.headers.optional.imageBase where
  first := by
    intro a i s hs hcovers hfirst
    obtain ⟨o, g, hplace, hoffset, hindex, hg, ho⟩ :=
      resolves_segmentsOf st.sections hs hcovers hfirst
    exact ⟨o, g, hplace, Image.offset_eq_ok_iff.mpr hoffset, hindex, hg, ho⟩
  outside := by
    intro a h
    obtain ⟨hoffset, hindex⟩ := unresolved_segmentsOf st.sections h
    exact ⟨Image.offset_eq_error hoffset, hindex⟩
  relative := by
    intro data' rva n
    rw [View.offset_eq_ok_iff]
    constructor
    · rintro ⟨a, o, ha, ho, rfl⟩
      exact ⟨o, (rvaToOffset_eq_ok_iff st).mpr ⟨a, ha, ho⟩, rfl⟩
    · rintro ⟨o, ho, rfl⟩
      obtain ⟨a, ha, ho⟩ := (rvaToOffset_eq_ok_iff st).mp ho
      exact ⟨a, o, ha, ho, rfl⟩
  overflow := by
    intro data' rva h
    exact ⟨rvaToOffset_of_overflow (sum?_eq_none h), View.offset_of_overflow h⟩

/-- Every image that a session has loaded resolves addresses as the
section table of its file says. -/
theorem load_resolves (session : Session) (data : Bytes)
    (h : (session.load data).2.outcome = .ok ()) :
    ∃ dos headers sections,
      ReadsTo data session.options.maxSections.toNat dos headers sections
      ∧ (session.load data).1.headers? = some headers
      ∧ (session.load data).1.Resolves sections headers.optional.imageBase := by
  obtain ⟨st⟩ := stages_of_load h
  rw [(load_of_stages st).1]
  exact ⟨st.dos, st.headers, st.sections, ⟨st.dos_eq, st.headers_eq, st.sections_eq⟩, rfl,
    resolves_of_stages st⟩

/-- The sample resolves as its section table says. -/
theorem load_resolves_sample :
    (({} : Session).load sample).2.outcome = .ok ()
      ∧ ∃ dos headers sections,
          ReadsTo sample 96 dos headers sections
          ∧ (({} : Session).load sample).1.headers? = some headers
          ∧ (({} : Session).load sample).1.Resolves sections headers.optional.imageBase := by
  obtain ⟨st⟩ := sample_stages
  have h : (({} : Session).load sample).2.outcome = .ok () := (load_of_stages st).2
  exact ⟨h, load_resolves {} sample h⟩

end Session

end Pe

end Dissect

/-
How much of an export header is mapped.

# What is looked at

A read resolves its first address and takes its bytes from the file.
The header of an export directory is read once as a whole and then word
by word, so eight of its forty addresses are resolved, and the bytes
behind each of these have to be in the file. `ExportHeader.exists_read_iff`
says so exactly.

# What follows for the rest

A segment resolves a range of addresses, and from one address of it to
the next there is either more of the range or its end
(`View.maps_succ_or`). So the first address of a header that is not
mapped is an end of some segment, and a header that was read is mapped
as a whole exactly if no segment ends in it before an address that
nothing maps.
-/
import Dissect.Proofs.Pe.Stages
import Dissect.Proofs.Words

namespace Dissect

-- ============================================================== segments

/-- One past the last address that the segment resolves: its range ends
there, or the file offsets behind it do. -/
def Segment.limit (s : Segment) : Nat :=
  min s.stop.toNat (s.start.toNat + (UInt64.size - s.offset.toNat))

/-- The addresses that a segment resolves are those of a range. -/
theorem Segment.exists_fileOffset?_iff {s : Segment} {a : Address} :
    (∃ o, s.fileOffset? a = some o) ↔ s.start.toNat ≤ a.toNat ∧ a.toNat < s.limit := by
  simp only [fileOffset?_eq_some_iff, contains_iff]
  unfold limit
  have hoffset := s.offset.toNat_lt_size
  constructor
  · rintro ⟨o, ⟨hstart, hstop⟩, ho⟩
    have hsize := o.toNat_lt_size
    omega
  · intro h
    have hsum : s.offset.toNat + (a.toNat - s.start.toNat) < UInt64.size := by omega
    exact ⟨.ofNat (s.offset.toNat + (a.toNat - s.start.toNat)), by omega,
      UInt64.toNat_ofNat_of_lt' hsum⟩

namespace Pe

variable {v : View} {rva : Nat}

-- ================================================================= views

namespace View

/-- Some segment maps the relative address. -/
def Maps (v : View) (rva : Nat) : Prop := ∃ a, v.mappedAddress rva = .ok a

/-- The file has so many bytes behind the relative address. -/
def Backs (v : View) (rva count : Nat) : Prop :=
  ∃ n, v.offset rva = .ok n ∧ n + count ≤ v.data.size

/-- An address is mapped when it is in the range that some segment
resolves. -/
theorem maps_iff :
    v.Maps rva
      ↔ ∃ s ∈ v.segments, s.start.toNat ≤ v.base.toNat + rva ∧ v.base.toNat + rva < s.limit := by
  unfold Maps
  simp only [mappedAddress_eq_ok_iff, sum?_eq_some_iff]
  constructor
  · rintro ⟨a, ha, o, ho⟩
    obtain ⟨s, hmem, hs⟩ := List.exists_of_findSome?_eq_some ho
    rw [← ha]
    exact ⟨s, hmem, Segment.exists_fileOffset?_iff.mp ⟨o, hs⟩⟩
  · rintro ⟨s, hmem, hstart, hlimit⟩
    have hstop : s.limit ≤ s.stop.toNat := Nat.min_le_left _ _
    have hsize := s.stop.toNat_lt_size
    have ha : (UInt64.ofNat (v.base.toNat + rva)).toNat = v.base.toNat + rva :=
      UInt64.toNat_ofNat_of_lt' (by omega)
    obtain ⟨o, ho⟩ := Segment.exists_fileOffset?_iff.mpr (by rw [ha]; exact ⟨hstart, hlimit⟩)
    have hsome : (fileOffset? v.segments (.ofNat (v.base.toNat + rva))).isSome = true :=
      List.findSome?_isSome_iff.mpr ⟨s, hmem, by rw [ho]; rfl⟩
    exact ⟨_, ha, Option.isSome_iff_exists.mp hsome⟩

/-- What has bytes behind it is mapped. -/
theorem Backs.maps {count : Nat} (h : v.Backs rva count) : v.Maps rva := by
  obtain ⟨n, hn, -⟩ := h
  obtain ⟨a, o, hsum, ho, -⟩ := offset_eq_ok_iff.mp hn
  exact ⟨a, mappedAddress_eq_ok_iff.mpr ⟨hsum, o, ho⟩⟩

theorem exists_bytes_iff {count : Nat} :
    (∃ part, v.bytes rva count = .ok part) ↔ v.Backs rva count := by
  unfold bytes Backs Bytes.slice?
  simp only [readAt_eq_ok_iff]
  constructor
  · rintro ⟨part, n, hn, hpart⟩
    split at hpart
    · next hle => exact ⟨n, hn, hle⟩
    · cases hpart
  · rintro ⟨n, hn, hle⟩
    exact ⟨_, n, hn, if_pos hle⟩

/-- A word is read where the file backs four bytes. -/
theorem exists_word32_iff : (∃ w, v.word32 rva = .ok w) ↔ v.Backs rva 4 := by
  unfold word32 Backs
  simp only [readAt_eq_ok_iff]
  constructor
  · rintro ⟨w, n, hn, hw⟩
    exact ⟨n, hn, (Bytes.word32?_eq_some_iff.mp hw).1⟩
  · rintro ⟨n, hn, hle⟩
    obtain ⟨w, hw⟩ := Bytes.exists_word32? v.data n hle
    exact ⟨w, n, hn, hw⟩

/-- Behind a mapped address there is another, or the end of a
segment. -/
theorem maps_succ_or (h : v.Maps rva) :
    v.Maps (rva + 1) ∨ ∃ s ∈ v.segments, s.limit = v.base.toNat + (rva + 1) := by
  obtain ⟨s, hmem, hstart, hlimit⟩ := maps_iff.mp h
  by_cases hnext : v.base.toNat + (rva + 1) < s.limit
  · exact .inl (maps_iff.mpr ⟨s, hmem, by omega, hnext⟩)
  · exact .inr ⟨s, hmem, by omega⟩

/-- A run of addresses whose first is mapped is mapped if the ends of
segments in it are. -/
theorem maps_of_ends (h : v.Maps rva) {count : Nat}
    (hends : ∀ s ∈ v.segments, ∀ k < count, s.limit = v.base.toNat + (rva + k) →
      v.Maps (rva + k)) :
    ∀ k < count, v.Maps (rva + k) := by
  intro k
  induction k with
  | zero => exact fun _ => h
  | succ k ih =>
      intro hk
      rcases maps_succ_or (ih (by omega)) with hnext | ⟨s, hmem, hlimit⟩
      · exact hnext
      · exact hends s hmem (k + 1) hk hlimit

end View

-- ================================================================ header

namespace ExportHeader

/-- Where the words of a header stand that are read. -/
def wordPlaces : List Nat := [12, 16, 20, 24, 28, 32, 36]

/-- A header is read if the file has forty bytes behind its first
address and four behind the address of each word. -/
theorem exists_read_iff :
    (∃ h, ExportHeader.read v rva = .ok h)
      ↔ v.Backs rva exportHeaderSize ∧ ∀ place ∈ wordPlaces, v.Backs (rva + place) 4 := by
  have hword : ∀ place, (∃ w, v.word32 (rva + place) = .ok w) ↔ v.Backs (rva + place) 4 :=
    fun place => View.exists_word32_iff
  rw [← View.exists_bytes_iff]
  simp only [wordPlaces, List.forall_mem_cons, ← hword]
  unfold ExportHeader.read
  simp only [except_bind_eq_ok_iff]
  constructor
  · rintro ⟨h, part, hpart, name, hname, base, hbase, functions, hfunctions, names, hnames,
      functionsRva, hfunctionsRva, namesRva, hnamesRva, indicesRva, hindicesRva, -⟩
    exact ⟨⟨part, hpart⟩, ⟨name, hname⟩, ⟨base, hbase⟩, ⟨functions, hfunctions⟩,
      ⟨names, hnames⟩, ⟨functionsRva, hfunctionsRva⟩, ⟨namesRva, hnamesRva⟩,
      ⟨indicesRva, hindicesRva⟩, by simp⟩
  · rintro ⟨⟨part, hpart⟩, ⟨name, hname⟩, ⟨base, hbase⟩, ⟨functions, hfunctions⟩,
      ⟨names, hnames⟩, ⟨functionsRva, hfunctionsRva⟩, ⟨namesRva, hnamesRva⟩,
      ⟨indicesRva, hindicesRva⟩, -⟩
    exact ⟨_, part, hpart, name, hname, base, hbase, functions, hfunctions, names, hnames,
      functionsRva, hfunctionsRva, namesRva, hnamesRva, indicesRva, hindicesRva, rfl⟩

end ExportHeader

/-- A header that is read is mapped where it starts and where each of its
words does. All of it is mapped exactly if no segment ends in it before
an address that nothing maps.
Relative addresses are natural numbers here, and so are the sums that
give the addresses of fields. A machine adds the place of a field in
words of 64 bits, so relative addresses within forty of `2 ^ 64`, where
that sum wraps or faults, are left out. The address of a directory is a
word of 32 bits and is never one of them. -/
theorem exportHeader_maps_iff (v : View) (rva : Nat) :
    ((∃ h, ExportHeader.read v rva = .ok h)
        ↔ v.Backs rva 40
          ∧ ∀ place ∈ ExportHeader.wordPlaces, v.Backs (rva + place) 4)
      ∧ ∀ h, ExportHeader.read v rva = .ok h →
          (∀ place ∈ 0 :: ExportHeader.wordPlaces, v.Maps (rva + place))
          ∧ ((∀ k < 40, v.Maps (rva + k))
            ↔ ∀ s ∈ v.segments, ∀ k < 40, s.limit = v.base.toNat + (rva + k) →
                v.Maps (rva + k)) := by
  refine ⟨ExportHeader.exists_read_iff, fun h hread => ?_⟩
  obtain ⟨hheader, hwords⟩ := ExportHeader.exists_read_iff.mp ⟨h, hread⟩
  refine ⟨?_, fun hall s _ k hk _ => hall k hk, View.maps_of_ends hheader.maps⟩
  intro place hplace
  rcases List.mem_cons.mp hplace with rfl | hword
  · exact hheader.maps
  · exact (hwords place hword).maps

-- =============================================================== samples

/-- A header in two segments, the second from inside the last word on. -/
def splitHeader : View where
  data := List.toArray (blank 40)
  segments :=
    [ ⟨".edata", 0, 0x401000, 0x401025, .empty, by decide⟩,
      ⟨".rdata", 37, 0x401025, 0x401030, .empty, by decide⟩ ]
  base := 0x400000

/-- The header is read, and where the first segment ends the second one
goes on. -/
theorem exportHeader_maps_split :
    (∃ h, ExportHeader.read splitHeader 0x1000 = .ok h)
      ∧ ∀ k < 40, splitHeader.Maps (0x1000 + k) := by
  have hread : ExportHeader.read splitHeader 0x1000 = .ok ⟨0, 0, 0, 0, 0, 0, 0⟩ := by
    decide +kernel
  have hsecond : splitHeader.mappedAddress (0x1000 + 37) = .ok 0x401025 := by decide +kernel
  have hends : ∀ s ∈ splitHeader.segments, s.limit = 0x401025 ∨ s.limit = 0x401030 := by
    decide +kernel
  have hbase : splitHeader.base.toNat = 0x400000 := by decide
  obtain ⟨-, hmaps⟩ := exportHeader_maps_iff splitHeader 0x1000
  refine ⟨⟨_, hread⟩, (hmaps _ hread).2.mpr fun s hs k hk hlimit => ?_⟩
  have hend := hends s hs
  obtain rfl : k = 37 := by omega
  exact ⟨_, hsecond⟩

/-- A header in a segment that ends inside its last word. -/
def clippedHeader : View where
  data := List.toArray (blank 40)
  segments := [⟨".edata", 0, 0x401000, 0x401025, .empty, by decide⟩]
  base := 0x400000

/-- The header is read, and its last three addresses are in no
segment. -/
theorem clippedHeader_read :
    ExportHeader.read clippedHeader 0x1000 = .ok ⟨0, 0, 0, 0, 0, 0, 0⟩
      ∧ (∀ s ∈ clippedHeader.segments, s.contains 0x401025 = false)
      ∧ clippedHeader.mappedAddress (0x1000 + 37) = .error (.unmapped 0x1025)
      ∧ ¬ ∀ k < 40, clippedHeader.Maps (0x1000 + k) := by
  have hunmapped : clippedHeader.mappedAddress (0x1000 + 37) = .error (.unmapped 0x1025) := by
    decide +kernel
  refine ⟨by decide +kernel, by decide +kernel, hunmapped, fun hall => ?_⟩
  obtain ⟨a, ha⟩ := hall 37 (by decide)
  rw [hunmapped] at ha
  cases ha

end Pe

end Dissect

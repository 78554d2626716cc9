/-
Which files have readable headers, and what the headers say.

# The grammar

`Grammar` says in terms of byte positions alone when a file has a DOS
header, `PE` headers and a section table: lengths, the two signatures,
the machine, the kind and the size of the optional header, and the
number of sections. Words are spelled out of their bytes, so the grammar
shares no reader with the code it describes.

# The readers

Four readers share the work, and each refuses in several places. For
each of them there are two lemmas: when it answers, and what the words
of its answer are. Put one behind the other, the only tie between them
is that each reader starts, and takes its length, at a word that the one
before has read (`places_of_headers`).
-/
import Dissect.Proofs.Pe.Stages
import Dissect.Proofs.Pe.Header
import Dissect.Proofs.Words

namespace Dissect.Pe

variable {data : Bytes}

-- ========================================================== the grammar

/-- Where the `PE` signature is. -/
def peAt (data : Bytes) : Nat := data.u32 60

/-- Where the optional header is, behind signature and COFF header. -/
def optionalAt (data : Bytes) : Nat := peAt data + 24

/-- How many bytes the optional header is declared to have. -/
def optionalLength (data : Bytes) : Nat := data.u16 (peAt data + 20)

/-- Where the section table is. -/
def tableAt (data : Bytes) : Nat := optionalAt data + optionalLength data

/-- How many section headers the table is declared to have. -/
def tableLength (data : Bytes) : Nat := data.u16 (peAt data + 6)

/-- The machines that images are loaded for. -/
def supportedMachines : List Nat := [0x014C, 0x8664, 0x01C0, 0x01C4, 0xAA64]

/-- The file has headers and a section table that can be read. -/
structure Grammar (data : Bytes) (limit : Nat) : Prop where
  dos_le : 64 ≤ data.size
  dos_signature : data[0]? = some 0x4D ∧ data[1]? = some 0x5A
  coff_le : peAt data + 24 ≤ data.size
  pe_signature :
    data[peAt data]? = some 0x50 ∧ data[peAt data + 1]? = some 0x45
      ∧ data[peAt data + 2]? = some 0 ∧ data[peAt data + 3]? = some 0
  machine : data.u16 (peAt data + 4) ∈ supportedMachines
  optional_le : optionalAt data + optionalLength data ≤ data.size
  kind :
    data.u16 (optionalAt data) = 0x10B ∧ 96 ≤ optionalLength data
      ∨ data.u16 (optionalAt data) = 0x20B ∧ 112 ≤ optionalLength data
  table_limit : tableLength data ≤ limit
  table_le : tableLength data = 0 ∨ tableAt data + 40 * tableLength data ≤ data.size

/-- The section header that the bytes at a place spell. -/
structure SpellsSection (data : Bytes) (place : Nat) (s : Section) : Prop where
  name_length : s.rawName.length = 8
  name_eq : ∀ k < 8, s.rawName[k]? = data[place + k]?
  virtualSize_eq : s.virtualSize.toNat = data.u32 (place + 8)
  rva_eq : s.rva.toNat = data.u32 (place + 12)
  fileSize_eq : s.fileSize.toNat = data.u32 (place + 16)
  fileOffset_eq : s.fileOffset.toNat = data.u32 (place + 20)
  characteristics_eq : s.characteristics.toNat = data.u32 (place + 36)

/-- The image base and the section table that a file spells. -/
structure SpellsTable (data : Bytes) (headers : Headers) (sections : List Section) :
    Prop where
  narrow_base : data.u16 (optionalAt data) = 0x10B →
    headers.optional.imageBase.toNat = data.u32 (peAt data + 52)
  wide_base : data.u16 (optionalAt data) = 0x20B →
    headers.optional.imageBase.toNat = data.u64 (peAt data + 48)
  length_eq : sections.length = tableLength data
  sections_eq : ∀ i s, sections[i]? = some s → SpellsSection data (tableAt data + 40 * i) s

-- =========================================================== DOS header

/-- The DOS header is read when its 64 bytes are there and start with
`MZ`. -/
theorem exists_readDosHeader_iff :
    (∃ dos, readDosHeader data = .ok dos)
      ↔ 64 ≤ data.size ∧ data[0]? = some 0x4D ∧ data[1]? = some 0x5A := by
  -- The two bytes are the word `0x5A4D`, and no other bytes are.
  have hbytes : 64 ≤ data.size →
      (data.u16 0 = 0x5A4D ↔ data[0]? = some 0x4D ∧ data[1]? = some 0x5A) := by
    intro hsize
    have h₀ := data.byte_lt 0
    have h₁ := data.byte_lt 1
    rw [Bytes.getElem?_eq_some_iff_byte (by omega), Bytes.getElem?_eq_some_iff_byte (by omega)]
    show data.byte 0 + 2 ^ 8 * data.byte 1 = 0x5A4D ↔ data.byte 0 = 0x4D ∧ data.byte 1 = 0x5A
    omega
  constructor
  · rintro ⟨dos, h⟩
    obtain ⟨hsize, hmagic, hvalue, -⟩ := readDosHeader_eq_ok_iff.mp h
    obtain ⟨-, hword⟩ := Bytes.word16?_eq_some_iff.mp hmagic
    rw [hvalue] at hword
    exact ⟨hsize, (hbytes hsize).mp hword.symm⟩
  · rintro ⟨hsize, hstart⟩
    obtain ⟨peOffset, hoffset⟩ := Bytes.exists_word32? data 60 hsize
    have hmagic : data.word16? 0 = some 0x5A4D :=
      Bytes.word16?_eq_some_iff.mpr ⟨by omega, ((hbytes hsize).mpr hstart).symm⟩
    exact ⟨⟨0x5A4D, peOffset⟩, readDosHeader_eq_ok_iff.mpr ⟨hsize, hmagic, rfl, hoffset⟩⟩

/-- The DOS header gives the place of the `PE` signature. -/
theorem peOffset_eq {dos : DosHeader} (h : readDosHeader data = .ok dos) :
    dos.peOffset.toNat = peAt data :=
  (Bytes.word32?_eq_some_iff.mp (readDosHeader_eq_ok_iff.mp h).2.2.2).2

-- =========================================================== PE headers

theorem slice?_eq_signature_iff {place : Nat} :
    data.slice? place 4 = some signature
      ↔ place + 4 ≤ data.size ∧ data[place]? = some 0x50 ∧ data[place + 1]? = some 0x45
        ∧ data[place + 2]? = some 0 ∧ data[place + 3]? = some 0 := by
  unfold Bytes.slice?
  split
  · next hle =>
    have hget : ∀ k < 4, (data.extract place (place + 4))[k]? = data[place + k]? := by
      intro k hk
      rw [Array.getElem?_extract, if_pos (by omega)]
    have hsize : (data.extract place (place + 4)).size = 4 := by
      rw [Array.size_extract]
      omega
    rw [Option.some.injEq]
    constructor
    · intro h
      rw [h] at hget
      exact ⟨hle, (hget 0 (by decide)).symm, (hget 1 (by decide)).symm,
        (hget 2 (by decide)).symm, (hget 3 (by decide)).symm⟩
    · rintro ⟨-, h₀, h₁, h₂, h₃⟩
      apply Array.ext_getElem?
      intro k
      match k with
      | 0 => exact (hget 0 (by decide)).trans h₀
      | 1 => exact (hget 1 (by decide)).trans h₁
      | 2 => exact (hget 2 (by decide)).trans h₂
      | 3 => exact (hget 3 (by decide)).trans h₃
      | k + 4 =>
          rw [Array.getElem?_eq_none (by omega)]
          rfl
  · next hle => simp [hle]

/-- The COFF header is read when its twenty bytes are there. -/
theorem exists_readCoffHeader_iff {place : Nat} :
    (∃ coff, readCoffHeader data place = .ok coff) ↔ place + 20 ≤ data.size := by
  constructor
  · rintro ⟨coff, h⟩
    obtain ⟨-, -, -, -, hlast⟩ := readCoffHeader_eq_ok_iff.mp h
    exact (Bytes.word16?_eq_some_iff.mp hlast).1
  · intro h
    obtain ⟨raw, hraw⟩ := Bytes.exists_word16? data place (by omega)
    obtain ⟨count, hcount⟩ := Bytes.exists_word16? data (place + 2) (by omega)
    obtain ⟨time, htime⟩ := Bytes.exists_word32? data (place + 4) (by omega)
    obtain ⟨size, hsize⟩ := Bytes.exists_word16? data (place + 16) (by omega)
    obtain ⟨flags, hflags⟩ := Bytes.exists_word16? data (place + 18) (by omega)
    exact ⟨⟨.ofRaw raw, count, time, size, flags⟩,
      readCoffHeader_eq_ok_iff.mpr ⟨⟨raw, hraw, rfl⟩, hcount, htime, hsize, hflags⟩⟩

/-- The machine is the one that the first word of the COFF header
numbers. -/
theorem machine_eq {place : Nat} {coff : CoffHeader}
    (h : readCoffHeader data place = .ok coff) :
    ∃ raw : UInt16, coff.machine = .ofRaw raw ∧ raw.toNat = data.u16 place := by
  obtain ⟨⟨raw, hraw, hmachine⟩, -⟩ := readCoffHeader_eq_ok_iff.mp h
  exact ⟨raw, hmachine, (Bytes.word16?_eq_some_iff.mp hraw).2⟩

theorem sectionCount_eq {place : Nat} {coff : CoffHeader}
    (h : readCoffHeader data place = .ok coff) :
    coff.sectionCount.toNat = data.u16 (place + 2) :=
  (Bytes.word16?_eq_some_iff.mp (readCoffHeader_eq_ok_iff.mp h).2.1).2

/-- The word at 16 of the COFF header is the size of the optional
header. -/
theorem optionalSize_eq {place : Nat} {coff : CoffHeader}
    (h : readCoffHeader data place = .ok coff) :
    coff.optionalSize.toNat = data.u16 (place + 16) :=
  (Bytes.word16?_eq_some_iff.mp (readCoffHeader_eq_ok_iff.mp h).2.2.2.1).2

/-- A machine is supported when its number is one of the list. -/
theorem isSupported_ofRaw_iff (raw : UInt16) :
    (Machine.ofRaw raw).isSupported = true ↔ raw.toNat ∈ supportedMachines := by
  unfold Machine.ofRaw
  split <;> simp_all [Machine.isSupported, supportedMachines]

-- ======================================================== optional header

/-- Headers with a 32-bit image base start with `0x10B`. -/
theorem ofMagic?_eq_pe32_iff {magic : UInt16} :
    Kind.ofMagic? magic = some .pe32 ↔ magic.toNat = 0x10B := by
  unfold Kind.ofMagic?
  rw [show magic.toNat = 0x10B ↔ magic = 0x10B from UInt16.toNat_inj (b := 0x10B)]
  split
  · next h => simp [h]
  · next h =>
    simp only [h, iff_false]
    split
    · simp
    · simp

theorem ofMagic?_eq_pe32Plus_iff {magic : UInt16} :
    Kind.ofMagic? magic = some .pe32Plus ↔ magic.toNat = 0x20B := by
  unfold Kind.ofMagic?
  rw [show magic.toNat = 0x20B ↔ magic = 0x20B from UInt16.toNat_inj (b := 0x20B)]
  split
  · next h => simp [h]
  · split
    · next h => simp [h]
    · next h => simp [h]

/-- The declared bytes of a header that are enough for its kind hold all
of its fields. -/
theorem exists_readFields? (header : Bytes) (magic : UInt16) (kind : Kind)
    (h : kind.directoriesAt ≤ header.size) : ∃ r, readFields? header magic kind = some r := by
  have hleast : 96 ≤ kind.directoriesAt := by
    cases kind with
    | pe32 => exact Nat.le_refl 96
    | pe32Plus => decide
  obtain ⟨base, hbase⟩ : ∃ base, readImageBase? header kind = some base := by
    cases kind with
    | pe32 =>
        obtain ⟨w, hw⟩ := Bytes.exists_word32? header 28 (by omega)
        exact ⟨w.toUInt64, Option.map_eq_some_iff.mpr ⟨w, hw, rfl⟩⟩
    | pe32Plus => exact Bytes.exists_word64? header 24 (by omega)
  obtain ⟨entry, hentry⟩ := Bytes.exists_word32? header 16 (by omega)
  obtain ⟨unit, hunit⟩ := Bytes.exists_word32? header 32 (by omega)
  obtain ⟨block, hblock⟩ := Bytes.exists_word32? header 36 (by omega)
  obtain ⟨size, hsize⟩ := Bytes.exists_word32? header 56 (by omega)
  obtain ⟨count, hcount⟩ :=
    Bytes.exists_word32? header (kind.directoriesAt - 4) (by omega)
  unfold readFields?
  rw [hbase, hentry, hunit, hblock, hsize, hcount]
  exact ⟨_, rfl⟩

/-- Of the fields, the image base is the one that is read by kind. -/
theorem imageBase_of_readFields? {header : Bytes} {magic : UInt16} {kind : Kind}
    {r : OptionalHeader × List DataDirectory} (h : readFields? header magic kind = some r) :
    readImageBase? header kind = some r.1.imageBase := by
  unfold readFields? at h
  simp only [Option.bind_eq_bind, Option.bind_eq_some_iff, Option.some.injEq] at h
  obtain ⟨base, hbase, entry, -, unit, -, block, -, size, -, count, -, rfl⟩ := h
  exact hbase

/-- The optional header is read when its declared bytes are there, are
of one of the two kinds, and are enough for the kind. -/
theorem exists_readOptionalHeader_iff {place size : Nat} :
    (∃ r, readOptionalHeader data place size = .ok r)
      ↔ place + size ≤ data.size
        ∧ (data.u16 place = 0x10B ∧ 96 ≤ size ∨ data.u16 place = 0x20B ∧ 112 ≤ size) := by
  constructor
  · rintro ⟨r, h⟩
    obtain ⟨-, hle, magic, kind, hmagic, hkind, hroom, -⟩ := readOptionalHeader_eq_ok_iff.mp h
    obtain ⟨-, hword⟩ := Bytes.word16?_eq_some_iff.mp hmagic
    refine ⟨hle, ?_⟩
    cases kind with
    | pe32 =>
        rw [ofMagic?_eq_pe32_iff] at hkind
        exact .inl ⟨hword ▸ hkind, hroom⟩
    | pe32Plus =>
        rw [ofMagic?_eq_pe32Plus_iff] at hkind
        exact .inr ⟨hword ▸ hkind, hroom⟩
  · rintro ⟨hle, hkinds⟩
    have htwo : 2 ≤ size := by omega
    obtain ⟨magic, hmagic⟩ := Bytes.exists_word16? data place (by omega)
    obtain ⟨-, hword⟩ := Bytes.word16?_eq_some_iff.mp hmagic
    obtain ⟨kind, hkind, hroom⟩ :
        ∃ kind, Kind.ofMagic? magic = some kind ∧ kind.directoriesAt ≤ size := by
      rcases hkinds with ⟨hvalue, hroom⟩ | ⟨hvalue, hroom⟩
      · exact ⟨.pe32, ofMagic?_eq_pe32_iff.mpr (hword.trans hvalue), hroom⟩
      · exact ⟨.pe32Plus, ofMagic?_eq_pe32Plus_iff.mpr (hword.trans hvalue), hroom⟩
    obtain ⟨r, hr⟩ := exists_readFields? (data.extract place (place + size)) magic kind (by
      rw [Array.size_extract]
      omega)
    exact ⟨r, readOptionalHeader_eq_ok_iff.mpr
      ⟨htwo, hle, magic, kind, hmagic, hkind, hroom, hr⟩⟩

/-- The image base is 32 or 64 bits wide, by the first word of the
header. -/
theorem imageBase_eq {place size : Nat} {r : OptionalHeader × List DataDirectory}
    (h : readOptionalHeader data place size = .ok r) :
    (data.u16 place = 0x10B → r.1.imageBase.toNat = data.u32 (place + 28))
      ∧ (data.u16 place = 0x20B → r.1.imageBase.toNat = data.u64 (place + 24)) := by
  obtain ⟨-, hle, magic, kind, hmagic, hkind, hroom, hfields⟩ :=
    readOptionalHeader_eq_ok_iff.mp h
  obtain ⟨-, hword⟩ := Bytes.word16?_eq_some_iff.mp hmagic
  have hbase := imageBase_of_readFields? hfields
  cases kind with
  | pe32 =>
      have hvalue := ofMagic?_eq_pe32_iff.mp hkind
      have hroom' : 96 ≤ size := hroom
      obtain ⟨w, hw, hwide⟩ := Option.map_eq_some_iff.mp hbase
      obtain ⟨-, hnumber⟩ := Bytes.word32?_eq_some_iff.mp hw
      rw [Bytes.u32_extract (by omega) hle] at hnumber
      refine ⟨fun _ => ?_, fun hother => by omega⟩
      rw [← hwide, UInt32.toNat_toUInt64, hnumber]
  | pe32Plus =>
      have hvalue := ofMagic?_eq_pe32Plus_iff.mp hkind
      have hroom' : 112 ≤ size := hroom
      obtain ⟨-, hnumber⟩ := Bytes.word64?_eq_some_iff.mp hbase
      rw [Bytes.u64_extract (by omega) hle] at hnumber
      exact ⟨fun hother => by omega, fun _ => hnumber⟩

-- ======================================================== section table

theorem exists_readSection {place : Nat} (h : place + 40 ≤ data.size) :
    ∃ s, readSection data place = .ok s := by
  have hslice : data.slice? place sectionHeaderSize
      = some (data.extract place (place + sectionHeaderSize)) := if_pos h
  unfold readSection
  rw [hslice]
  exact ⟨_, rfl⟩

/-- A field of a section header is the word at its place in the file. -/
theorem fieldOf_extract {place i : Nat} (h : place + 40 ≤ data.size) (hi : i + 4 ≤ 40) :
    (fieldOf (data.extract place (place + 40)) i).toNat = data.u32 (place + i) := by
  have hsize : (data.extract place (place + 40)).size = 40 := by
    rw [Array.size_extract]
    omega
  obtain ⟨w, hw⟩ :=
    Bytes.exists_word32? (data.extract place (place + 40)) i (by omega)
  unfold fieldOf
  rw [hw, Option.getD_some, (Bytes.word32?_eq_some_iff.mp hw).2,
    Bytes.u32_extract (by omega) h]

/-- A section header that is read has its forty bytes in the file and is
what they spell. -/
theorem spellsSection_of_readSection {place : Nat} {s : Section}
    (h : readSection data place = .ok s) :
    place + 40 ≤ data.size ∧ SpellsSection data place s := by
  unfold readSection at h
  obtain ⟨raw, hraw, h⟩ := except_bind_eq_ok_iff.mp h
  rw [orTruncated_eq_ok_iff] at hraw
  unfold Bytes.slice? at hraw
  split at hraw
  · next hle =>
    have hle' : place + 40 ≤ data.size := hle
    cases hraw
    cases h
    refine ⟨hle', ⟨?_, ?_, fieldOf_extract hle' (by decide), fieldOf_extract hle' (by decide),
      fieldOf_extract hle' (by decide), fieldOf_extract hle' (by decide),
      fieldOf_extract hle' (by decide)⟩⟩
    · show ((data.extract place (place + 40)).extract 0 8).toList.length = 8
      rw [Array.length_toList, Array.size_extract, Array.size_extract]
      omega
    · intro k hk
      show ((data.extract place (place + 40)).extract 0 8).toList[k]? = _
      rw [Array.getElem?_toList, Array.getElem?_extract, if_pos (by
        rw [Array.size_extract]
        omega), Array.getElem?_extract, if_pos (by omega), Nat.zero_add]
  · cases hraw

/-- Reads that each answer answer as a list. -/
theorem exists_forall₂_of_forall {α β : Type} {f : α → Except ImageError β} {xs : List α}
    (h : ∀ x ∈ xs, ∃ y, f x = .ok y) : ∃ ys, List.Forall₂ (fun x y => f x = .ok y) xs ys := by
  induction xs with
  | nil => exact ⟨[], .nil⟩
  | cons x xs ih =>
      obtain ⟨y, hy⟩ := h x List.mem_cons_self
      obtain ⟨ys, hys⟩ := ih fun x' hx' => h x' (List.mem_cons_of_mem x hx')
      exact ⟨y :: ys, .cons hy hys⟩

/-- The section table is read when it is within the limit and its last
header, if any, ends in the file. -/
theorem exists_readSections_iff {place count limit : Nat} :
    (∃ sections, readSections data place count limit = .ok sections)
      ↔ count ≤ limit ∧ (count = 0 ∨ place + 40 * count ≤ data.size) := by
  simp only [readSections_eq_ok_iff, exists_and_left]
  refine and_congr_right fun _ => ⟨?_, ?_⟩
  · rintro ⟨sections, hall⟩
    by_cases hzero : count = 0
    · exact .inl hzero
    · -- The last header of the table is in the file, and so is the table.
      obtain ⟨hlength, hat⟩ := List.forall₂_iff_get.mp hall
      rw [List.length_range] at hlength
      have hlast := hat (count - 1) (by rw [List.length_range]; omega) (by omega)
      obtain ⟨hle, -⟩ := spellsSection_of_readSection hlast
      simp only [List.get_eq_getElem, List.getElem_range, sectionHeaderSize] at hle
      right
      omega
  · intro htable
    apply exists_forall₂_of_forall
    intro i hi
    have hlt : i < count := List.mem_range.mp hi
    apply exists_readSection
    show place + i * 40 + 40 ≤ data.size
    omega

/-- A table that is read has the declared length, and its headers are
what the file spells at multiples of forty. -/
theorem spellsSection_of_readSections {place count limit : Nat} {sections : List Section}
    (h : readSections data place count limit = .ok sections) :
    sections.length = count
      ∧ ∀ i s, sections[i]? = some s → SpellsSection data (place + 40 * i) s := by
  obtain ⟨-, hall⟩ := readSections_eq_ok_iff.mp h
  obtain ⟨hlength, hat⟩ := List.forall₂_iff_get.mp hall
  rw [List.length_range] at hlength
  refine ⟨hlength.symm, ?_⟩
  intro i s hs
  obtain ⟨hi, rfl⟩ := List.getElem?_eq_some_iff.mp hs
  obtain ⟨-, hspells⟩ := spellsSection_of_readSection
    (hat i (by rw [List.length_range]; omega) hi)
  simpa only [List.get_eq_getElem, List.getElem_range, sectionHeaderSize, Nat.mul_comm]
    using hspells

-- ========================================================== all together

/-- The places that headers give are the places of the grammar. -/
theorem places_of_headers {dos : DosHeader} {headers : Headers}
    (hdos : readDosHeader data = .ok dos)
    (hheaders : readHeaders data dos.peOffset.toNat = .ok headers) :
    headers.coff.optionalSize.toNat = optionalLength data
      ∧ headers.coff.sectionCount.toNat = tableLength data
      ∧ sectionTableOffset dos headers = tableAt data
      ∧ readOptionalHeader data (optionalAt data) (optionalLength data)
        = .ok (headers.optional, headers.directories) := by
  obtain ⟨-, hcoff, -, hoptional⟩ := readHeaders_eq_ok_iff.mp hheaders
  have hsize := optionalSize_eq hcoff
  have hcount := sectionCount_eq hcoff
  rw [peOffset_eq hdos] at hcoff hoptional hsize hcount
  rw [show optionalLength data = headers.coff.optionalSize.toNat from hsize.symm]
  refine ⟨rfl, hcount, ?_, hoptional⟩
  unfold sectionTableOffset tableAt optionalAt optionalLength
  rw [peOffset_eq hdos, hsize]
  rfl

/-- A file whose headers are read keeps to the grammar: each reader
gives the clauses about the bytes it looks at. -/
theorem grammar_of_readsTo {limit : Nat} {dos : DosHeader} {headers : Headers}
    {sections : List Section} (h : ReadsTo data limit dos headers sections) :
    Grammar data limit := by
  obtain ⟨hdos, hheaders, hsections⟩ := h
  obtain ⟨-, hcount, htable, hoptional⟩ := places_of_headers hdos hheaders
  obtain ⟨hsize, hstart⟩ := exists_readDosHeader_iff.mp ⟨dos, hdos⟩
  rw [peOffset_eq hdos] at hheaders
  obtain ⟨hsignature, hcoff, hmachine, -⟩ := readHeaders_eq_ok_iff.mp hheaders
  obtain ⟨raw, hraw, hvalue⟩ := machine_eq hcoff
  obtain ⟨hle, hkind⟩ := exists_readOptionalHeader_iff.mp ⟨_, hoptional⟩
  rw [hcount, htable] at hsections
  obtain ⟨hlimit, hfits⟩ := exists_readSections_iff.mp ⟨sections, hsections⟩
  rw [hraw, isSupported_ofRaw_iff, hvalue] at hmachine
  exact
    { dos_le := hsize
      dos_signature := hstart
      coff_le := exists_readCoffHeader_iff.mp ⟨_, hcoff⟩
      pe_signature := (slice?_eq_signature_iff.mp hsignature).2
      machine := hmachine
      optional_le := hle
      kind := hkind
      table_limit := hlimit
      table_le := hfits }

/-- The headers of a file that keeps to the grammar are read, one reader
behind the other. -/
theorem exists_readsTo_of_grammar {limit : Nat} (h : Grammar data limit) :
    ∃ dos headers sections, ReadsTo data limit dos headers sections := by
  obtain ⟨dos, hdos⟩ := exists_readDosHeader_iff.mpr ⟨h.dos_le, h.dos_signature⟩
  have hcoff_le := h.coff_le
  obtain ⟨coff, hcoff⟩ := exists_readCoffHeader_iff.mpr
    (show peAt data + 4 + 20 ≤ data.size by omega)
  obtain ⟨⟨optional, directories⟩, hoptional⟩ :=
    exists_readOptionalHeader_iff.mpr ⟨h.optional_le, h.kind⟩
  obtain ⟨raw, hraw, hvalue⟩ := machine_eq hcoff
  have hheaders : readHeaders data dos.peOffset.toNat = .ok ⟨coff, optional, directories⟩ := by
    rw [peOffset_eq hdos, readHeaders_eq_ok_iff]
    refine ⟨slice?_eq_signature_iff.mpr ⟨by omega, h.pe_signature⟩, hcoff, ?_, ?_⟩
    · rw [hraw, isSupported_ofRaw_iff, hvalue]
      exact h.machine
    · rw [optionalSize_eq hcoff]
      exact hoptional
  obtain ⟨-, hcount, htable, -⟩ := places_of_headers hdos hheaders
  obtain ⟨sections, hsections⟩ := exists_readSections_iff.mpr ⟨h.table_limit, h.table_le⟩
  refine ⟨dos, _, sections, hdos, hheaders, ?_⟩
  rw [hcount, htable]
  exact hsections

/-- Headers that are read are what the bytes spell. -/
theorem spellsTable_of_readsTo {limit : Nat} {dos : DosHeader} {headers : Headers}
    {sections : List Section} (h : ReadsTo data limit dos headers sections) :
    SpellsTable data headers sections := by
  obtain ⟨hdos, hheaders, hsections⟩ := h
  obtain ⟨-, hcount, htable, hoptional⟩ := places_of_headers hdos hheaders
  obtain ⟨hnarrow, hwide⟩ := imageBase_eq hoptional
  rw [hcount, htable] at hsections
  obtain ⟨hlength, hspells⟩ := spellsSection_of_readSections hsections
  exact ⟨hnarrow, hwide, hlength, hspells⟩

/-- The headers and the section table of a file are read exactly when
the file keeps to the grammar, and they are what its bytes spell. -/
theorem headers_accepted_iff (data : Bytes) (limit : Nat) :
    ((∃ dos headers sections, ReadsTo data limit dos headers sections) ↔ Grammar data limit)
      ∧ ∀ dos headers sections, ReadsTo data limit dos headers sections →
          SpellsTable data headers sections := by
  refine ⟨⟨?_, exists_readsTo_of_grammar⟩, fun _ _ _ => spellsTable_of_readsTo⟩
  rintro ⟨dos, headers, sections, h⟩
  exact grammar_of_readsTo h

theorem headers_accepted_sample :
    Grammar sample 96
      ∧ ∃ dos headers sections, ReadsTo sample 96 dos headers sections
          ∧ SpellsTable sample headers sections := by
  obtain ⟨st⟩ := sample_stages
  obtain ⟨haccepted, hspells⟩ := headers_accepted_iff sample 96
  have h : ReadsTo sample 96 st.dos st.headers st.sections :=
    ⟨st.dos_eq, st.headers_eq, st.sections_eq⟩
  exact ⟨haccepted.mp ⟨_, _, _, h⟩, _, _, _, h, hspells _ _ _ h⟩

end Dissect.Pe

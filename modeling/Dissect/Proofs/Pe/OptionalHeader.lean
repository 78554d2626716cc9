/-
What an optional header is read from.

# The declared bytes

The section table stands right behind the optional header, so a read
past the declared size would find numbers that look like directories.
No read goes there: the declared bytes are cut out of the file first,
and two files that agree on them have the same cut (`Agree.extract_eq`)
and therefore the same header, wherever in the file it is.

# The directories

Three bounds meet in the list of directories: the declared number, the
sixteen that there always are, and the declared bytes.
`getElem?_readDirectoriesFrom` says what the loop makes of them entry by
entry. The loop ends at the first entry that is not wholly there, and
that is no loss, since the entries behind it are not there either.
-/
import Dissect.Proofs.Pe.Grammar

namespace Dissect

-- ========================================================= equal windows

namespace Bytes

variable {data data' : Bytes} {place place' size : Nat}

/-- Two files have the same bytes in a window, each at a place of its
own. -/
def Agree (data : Bytes) (place : Nat) (data' : Bytes) (place' size : Nat) : Prop :=
  ∀ k < size, data'[place' + k]? = data[place + k]?

/-- A file that agrees on bytes that are there is long enough. -/
theorem Agree.le_size (h : data.Agree place data' place' size) (hpos : 0 < size)
    (hle : place + size ≤ data.size) : place' + size ≤ data'.size := by
  have hlt : place + (size - 1) < data.size := by omega
  have hlast : data'[place' + (size - 1)]? = some data[place + (size - 1)] := by
    rw [h (size - 1) (by omega), Array.getElem?_eq_getElem hlt]
  obtain ⟨hlt', -⟩ := Array.getElem?_eq_some_iff.mp hlast
  omega

/-- Files that agree on a part have the same part, each at its own
place. -/
theorem Agree.extract_eq (h : data.Agree place data' place' size)
    (hle : place + size ≤ data.size) (hle' : place' + size ≤ data'.size) :
    data'.extract place' (place' + size) = data.extract place (place + size) := by
  apply Array.ext_getElem?
  intro k
  rw [Array.getElem?_extract, Array.getElem?_extract]
  by_cases hk : k < size
  · rw [if_pos (by omega), if_pos (by omega)]
    exact h k hk
  · rw [if_neg (by omega), if_neg (by omega)]

end Bytes

namespace Pe

variable {data header : Bytes} {place size offset declared : Nat}

-- =========================================================== directories

theorem readDirectory?_eq_some_iff {d : DataDirectory} :
    readDirectory? header offset = some d
      ↔ offset + 8 ≤ header.size ∧ d.rva.toNat = header.u32 offset
        ∧ d.size.toNat = header.u32 (offset + 4) := by
  unfold readDirectory?
  simp only [Option.bind_eq_bind, Option.bind_eq_some_iff, Option.some.injEq,
    Bytes.word32?_eq_some_iff]
  constructor
  · intro h
    obtain ⟨rva, ⟨-, hrva⟩, size, ⟨hle, hsize⟩, rfl⟩ := h
    exact ⟨by omega, hrva, hsize⟩
  · intro h
    obtain ⟨hle, hrva, hsize⟩ := h
    exact ⟨d.rva, ⟨by omega, hrva⟩, d.size, ⟨by omega, hsize⟩, rfl⟩

/-- A directory is read where its eight bytes are. -/
theorem readDirectory?_eq_none_iff :
    readDirectory? header offset = none ↔ header.size < offset + 8 := by
  constructor
  · intro hnone
    by_contra hroom
    obtain ⟨rva, hrva⟩ := Bytes.exists_word32? header offset (by omega)
    obtain ⟨size, hsize⟩ := Bytes.exists_word32? header (offset + 4) (by omega)
    rw [readDirectory?, hrva, hsize] at hnone
    cases hnone
  · intro hshort
    refine Option.eq_none_iff_forall_ne_some.mpr fun d hd => ?_
    have hroom := (readDirectory?_eq_some_iff.mp hd).1
    omega

theorem length_readDirectoriesFrom_le (header : Bytes) (offset count : Nat) :
    (readDirectoriesFrom header offset count).length ≤ count := by
  induction count generalizing offset with
  | zero => exact Nat.le_refl 0
  | succ count ih =>
      rw [readDirectoriesFrom]
      split
      · exact Nat.succ_le_succ (ih _)
      · exact Nat.zero_le _

/-- The loop reads the entries below the number that are wholly there. -/
theorem getElem?_readDirectoriesFrom (header : Bytes) (offset count i : Nat) :
    (readDirectoriesFrom header offset count)[i]?
      = if i < count then readDirectory? header (offset + 8 * i) else none := by
  induction count generalizing offset i with
  | zero => simp [readDirectoriesFrom]
  | succ count ih =>
      rw [readDirectoriesFrom]
      cases hfirst : readDirectory? header offset with
      | none =>
          -- the entries behind one that is cut short are cut short too
          have hshort := readDirectory?_eq_none_iff.mp hfirst
          have hbehind : readDirectory? header (offset + 8 * i) = none :=
            readDirectory?_eq_none_iff.mpr (by omega)
          simp [hbehind]
      | some d =>
          cases i with
          | zero => simp [hfirst]
          | succ i =>
              have hplace : offset + 8 + 8 * i = offset + 8 * (i + 1) := by omega
              simp [ih, hplace]

/-- There are always as many as an image can have. -/
theorem length_readDirectories (header : Bytes) (offset declared : Nat) :
    (readDirectories header offset declared).length = directoryLimit := by
  have hle := length_readDirectoriesFrom_le header offset (min declared directoryLimit)
  unfold readDirectories
  rw [List.length_append, List.length_replicate]
  omega

/-- The directories one by one: declared and wholly there, or absent. -/
theorem getElem?_readDirectories (header : Bytes) (offset declared : Nat) {i : Nat}
    (hi : i < directoryLimit) :
    (readDirectories header offset declared)[i]?
      = some (if i < declared then (readDirectory? header (offset + 8 * i)).getD absentDirectory
          else absentDirectory) := by
  have hheld := getElem?_readDirectoriesFrom header offset (min declared directoryLimit) i
  unfold readDirectories
  dsimp only
  generalize readDirectoriesFrom header offset (min declared directoryLimit) = held at hheld
  by_cases hlt : i < held.length
  · rw [List.getElem?_append_left hlt, hheld]
    rw [List.getElem?_eq_getElem hlt] at hheld
    split at hheld
    · next hcount =>
      rw [if_pos hcount, if_pos (by omega), ← hheld]
      rfl
    · cases hheld
  · rw [List.getElem?_append_right (by omega), List.getElem?_replicate, if_pos (by omega)]
    rw [List.getElem?_eq_none (by omega)] at hheld
    split at hheld
    · rw [← hheld]
      simp
    · rw [if_neg (by omega)]

-- ====================================================== the whole header

/-- Which directories a header of `size` bytes at a place declares: it
has a list of them from `start` on, and `count` is their number. -/
structure DeclaresDirectories (data : Bytes) (place size start count : Nat)
    (directories : List DataDirectory) : Prop where
  length_eq : directories.length = 16
  present : ∀ i < 16, i < count → start + 8 * i + 8 ≤ size →
    ∃ d, directories[i]? = some d ∧ d.rva.toNat = data.u32 (place + start + 8 * i)
      ∧ d.size.toNat = data.u32 (place + start + 8 * i + 4)
  absent : ∀ i < 16, ¬ (i < count ∧ start + 8 * i + 8 ≤ size) → directories[i]? = some ⟨0, 0⟩

/-- Directories are read by the count that the header declares. -/
theorem directories_of_readFields? {magic : UInt16} {kind : Kind}
    {r : OptionalHeader × List DataDirectory} (h : readFields? header magic kind = some r) :
    header.word32? (kind.directoriesAt - 4) = some r.1.directoryCount
      ∧ r.2 = readDirectories header kind.directoriesAt r.1.directoryCount.toNat := by
  unfold readFields? at h
  simp only [Option.bind_eq_bind, Option.bind_eq_some_iff, Option.some.injEq] at h
  obtain ⟨base, -, entry, -, unit, -, block, -, image, -, count, hcount, rfl⟩ := h
  exact ⟨hcount, rfl⟩

/-- The directories in the cut are those that the declared bytes of the
file spell. -/
theorem declaresDirectories_extract (start count : Nat) (hle : place + size ≤ data.size) :
    DeclaresDirectories data place size start count
      (readDirectories (data.extract place (place + size)) start count) := by
  have hsize : (data.extract place (place + size)).size = size := by
    rw [Array.size_extract]
    omega
  refine ⟨length_readDirectories _ _ _, ?_, ?_⟩
  · intro i hi hcount hroom
    rw [getElem?_readDirectories _ _ _ hi, if_pos hcount]
    cases hread : readDirectory? (data.extract place (place + size)) (start + 8 * i) with
    | none =>
        have hshort := readDirectory?_eq_none_iff.mp hread
        omega
    | some d =>
        obtain ⟨-, hrva, hlength⟩ := readDirectory?_eq_some_iff.mp hread
        rw [Bytes.u32_extract (by omega) hle] at hrva hlength
        refine ⟨d, rfl, ?_, ?_⟩
        · rw [hrva, Nat.add_assoc]
        · rw [hlength, Nat.add_assoc, Nat.add_assoc, Nat.add_assoc]
  · intro i hi hout
    rw [getElem?_readDirectories _ _ _ hi]
    by_cases hcount : i < count
    · have hnone : readDirectory? (data.extract place (place + size)) (start + 8 * i) = none :=
        readDirectory?_eq_none_iff.mpr (by omega)
      rw [if_pos hcount, hnone]
      rfl
    · rw [if_neg hcount]
      rfl

/-- The first word of a header says where its directories start. -/
theorem directoriesAt_of_ofMagic? {magic : UInt16} {kind : Kind}
    (h : Kind.ofMagic? magic = some kind) :
    magic.toNat = 0x10B ∧ kind.directoriesAt = 96
      ∨ magic.toNat = 0x20B ∧ kind.directoriesAt = 112 := by
  cases kind with
  | pe32 => exact .inl ⟨ofMagic?_eq_pe32_iff.mp h, rfl⟩
  | pe32Plus => exact .inr ⟨ofMagic?_eq_pe32Plus_iff.mp h, rfl⟩

/-- Files that agree on the declared bytes have the same header. -/
theorem readOptionalHeader_of_agree {data' : Bytes} {place' : Nat}
    {r : OptionalHeader × List DataDirectory} (h : readOptionalHeader data place size = .ok r)
    (hagree : data.Agree place data' place' size) :
    readOptionalHeader data' place' size = .ok r := by
  rw [readOptionalHeader_eq_ok_iff] at h ⊢
  obtain ⟨htwo, hle, magic, kind, hmagic, hkind, hroom, hfields⟩ := h
  have hle' := hagree.le_size (by omega) hle
  have hcut := hagree.extract_eq hle hle'
  -- the first word is read before the cut is made, but lies in it
  have hfirst : data'.u16 place' = data.u16 place := by
    rw [← Nat.add_zero place', ← Bytes.u16_extract (by omega) hle', hcut,
      Bytes.u16_extract (by omega) hle, Nat.add_zero]
  obtain ⟨-, hvalue⟩ := Bytes.word16?_eq_some_iff.mp hmagic
  refine ⟨htwo, hle', magic, kind, ?_, hkind, hroom, ?_⟩
  · exact Bytes.word16?_eq_some_iff.mpr ⟨by omega, by rw [hfirst, hvalue]⟩
  · rw [hcut]
    exact hfields

/-- A header is read from its declared bytes alone: every file that has
these bytes somewhere has this header there, and the directories are the
declared ones that the declared bytes hold. -/
theorem readOptionalHeader_declared {r : OptionalHeader × List DataDirectory}
    (h : readOptionalHeader data place size = .ok r) :
    (∀ data' place', data.Agree place data' place' size →
        readOptionalHeader data' place' size = .ok r)
      ∧ ∃ start,
          (data.u16 place = 0x10B ∧ start = 96 ∨ data.u16 place = 0x20B ∧ start = 112)
          ∧ r.1.directoryCount.toNat = data.u32 (place + (start - 4))
          ∧ DeclaresDirectories data place size start r.1.directoryCount.toNat r.2 := by
  refine ⟨fun data' place' => readOptionalHeader_of_agree h, ?_⟩
  obtain ⟨-, hle, magic, kind, hmagic, hkind, hroom, hfields⟩ := readOptionalHeader_eq_ok_iff.mp h
  obtain ⟨-, hvalue⟩ := Bytes.word16?_eq_some_iff.mp hmagic
  obtain ⟨hcount, hdirectories⟩ := directories_of_readFields? hfields
  obtain ⟨-, hnumber⟩ := Bytes.word32?_eq_some_iff.mp hcount
  have hstart := directoriesAt_of_ofMagic? hkind
  rw [hvalue] at hstart
  rw [Bytes.u32_extract (by omega) hle] at hnumber
  refine ⟨kind.directoriesAt, hstart, hnumber, ?_⟩
  rw [hdirectories]
  exact declaresDirectories_extract _ _ hle

-- ============================================================== a sample

/-- A header that declares more directories than any, with room for one,
and the bytes of a section behind it. -/
def overdeclared : Bytes :=
  List.toArray <| List.flatten
    [ -- 104 bytes of header, the last eight of them a directory
      spell 2 0x10B, blank 90, spell 4 0xFFFFFFFF, spell 4 0x1000, spell 4 40,
      -- the section table
      [0x2E, 0x74], blank 6, spell 4 256, spell 4 0x2000, spell 4 256, spell 4 240, blank 16 ]

/-- What is behind the header is not taken for a directory, and the same
bytes elsewhere and without a section table are the same header. -/
theorem readOptionalHeader_declared_overdeclared :
    overdeclared.u32 112 = 0x100
      ∧ ∃ r, readOptionalHeader overdeclared 0 104 = .ok r
          ∧ r.2 = ⟨0x1000, 40⟩ :: List.replicate 15 ⟨0, 0⟩
          ∧ readOptionalHeader (#[0xFF] ++ overdeclared.extract 0 104) 1 104 = .ok r
          ∧ DeclaresDirectories overdeclared 0 104 96 0xFFFFFFFF r.2 := by
  have hread : readOptionalHeader overdeclared 0 104
      = .ok (⟨0x10B, 0, 0, 0, 0, 0, 0xFFFFFFFF⟩,
          ⟨0x1000, 40⟩ :: List.replicate 15 ⟨0, 0⟩) := by
    decide +kernel
  have hkind : overdeclared.u16 0 = 0x10B := by decide +kernel
  have hagree : overdeclared.Agree 0 (#[0xFF] ++ overdeclared.extract 0 104) 1 104 := by
    have hsize : overdeclared.size = 144 := by decide +kernel
    intro k hk
    have hbehind : 1 + k - #[(0xFF : UInt8)].size = k := by
      show 1 + k - 1 = k
      omega
    rw [Array.getElem?_append_right (Nat.le_add_right 1 k), hbehind, Array.getElem?_extract,
      if_pos (by omega)]
  obtain ⟨hsame, start, hstart, -, hdirectories⟩ := readOptionalHeader_declared hread
  obtain rfl : start = 96 := by omega
  exact ⟨by decide +kernel, _, hread, rfl, hsame _ _ hagree, hdirectories⟩

end Pe

end Dissect

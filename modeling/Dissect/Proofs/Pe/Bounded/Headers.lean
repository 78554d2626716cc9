/-
Headers with bounded arithmetic.

The readers here are those of the loader with every plain sum and
product as an operation that may fault, in the order in which a machine
computes them. The length that a refusal reports is a sum too, computed
only when the header is refused.

Headers start at a 32-bit offset, declare their lengths in 16 bits and
have at most `2 ^ 16` sections of 40 bytes, so no position comes near
the end of the words, and the declared bytes of the optional header are
cut out only after they were found in the file.
-/
import Dissect.Proofs.Pe.Bounded.Reads
import Dissect.Proofs.Pe.Header

namespace Dissect.Pe.Bounded

variable {α : Type}

/-- What a read answers, or an error that says how much was needed. -/
def orTruncated (expected : Guarded Nat) (actual : Nat) : Option α → Guarded α
  | some a => pure a
  | none => do
    let needed ← expected
    fail (.truncated needed actual)

/-- The DOS header. All of its positions are constants. -/
def readDosHeader (data : Bytes) : Guarded DosHeader :=
  if data.size < dosHeaderSize then fail (.truncated dosHeaderSize data.size)
  else do
    let magic ← orTruncated (pure 2) data.size (word16? data 0)
    if magic ≠ 0x5A4D then fail .dosSignature
    else do
      let peOffset ← orTruncated (pure dosHeaderSize) data.size (word32? data 60)
      pure ⟨magic, peOffset⟩

/-- A word of the COFF header at an offset. -/
def coffField (read? : Bytes → Nat → Option α) (data : Bytes) (offset needed place : Nat) :
    Guarded α := do
  let position ← add offset place
  orTruncated (pure needed) data.size (read? data position)

/-- The COFF header at an offset. Its end is computed first, since every
field may have to report it. -/
def readCoffHeader (data : Bytes) (offset : Nat) : Guarded CoffHeader := do
  let needed ← add offset coffHeaderSize
  let machine ← coffField word16? data offset needed 0
  let sectionCount ← coffField word16? data offset needed 2
  let timestamp ← coffField word32? data offset needed 4
  let optionalSize ← coffField word16? data offset needed 16
  let characteristics ← coffField word16? data offset needed 18
  pure ⟨.ofRaw machine, sectionCount, timestamp, optionalSize, characteristics⟩

/-- Up to `count` directories from an index on, as far as the bytes hold
them. -/
def readDirectoriesFrom (header : Bytes) (offset : Nat) :
    (count index : Nat) → Guarded (List DataDirectory)
  | 0, _ => pure []
  | count + 1, index => do
    let place ← entryAt offset index 8
    let second ← add place 4
    match word32? header place, word32? header second with
    | some rva, some size => do
      let following ← add index 1
      let rest ← readDirectoriesFrom header offset count following
      pure (⟨rva, size⟩ :: rest)
    | _, _ => pure []

/-- The directories of an image, filled up to `directoryLimit` with
absent ones. -/
def readDirectories (header : Bytes) (offset declared : Nat) : Guarded (List DataDirectory) := do
  let held ← readDirectoriesFrom header offset (min declared directoryLimit) 0
  pure (held ++ List.replicate (directoryLimit - held.length) absentDirectory)

/-- A word of the optional header at an offset, among its own bytes. -/
def optionalField (header : Bytes) (offset stop place : Nat) : Guarded UInt32 :=
  orTruncated (do
    let position ← add offset place
    add position 4) stop (word32? header place)

/-- The image base, wide or narrow; a wide one is reported up to its own
end. -/
def readImageBase (header : Bytes) (offset stop : Nat) : Kind → Guarded UInt64
  | .pe32Plus => orTruncated (add offset 32) stop (word64? header 24)
  | .pe32 => do
    let low ← optionalField header offset stop 28
    pure low.toUInt64

/-- The optional header of a declared size. Its bytes are cut out once
they are known to be in the file, and fields are read among them. -/
def readOptionalHeader (data : Bytes) (offset size : Nat) :
    Guarded (OptionalHeader × List DataDirectory) := do
  let stop ← add offset size
  if size < 2 ∨ data.size < stop then do
    let least ← add offset 2
    fail (.truncated (max stop least) data.size)
  else do
    let magic ← orTruncated (add offset 2) data.size (word16? data offset)
    match Kind.ofMagic? magic with
    | none => fail (.magic magic)
    | some kind =>
      if size < kind.directoriesAt then do
        let needed ← add offset kind.directoriesAt
        fail (.truncated needed stop)
      else do
        let header ← cut data offset stop
        let imageBase ← readImageBase header offset stop kind
        let entryRva ← optionalField header offset stop 16
        let sectionAlignment ← optionalField header offset stop 32
        let fileAlignment ← optionalField header offset stop 36
        let imageSize ← optionalField header offset stop 56
        let last ← sub kind.directoriesAt 4
        let directoryCount ← optionalField header offset stop last
        let directories ← readDirectories header kind.directoriesAt directoryCount.toNat
        pure
          ( ⟨magic, entryRva, imageBase, sectionAlignment, fileAlignment, imageSize,
              directoryCount⟩, directories )

/-- Signature, COFF header and optional header, from the offset of the
signature on. The positions behind the signature are computed anew for
each of them. -/
def readHeaders (data : Bytes) (offset : Nat) : Guarded Headers := do
  let stop ← add offset 4
  let found ← orTruncated (add offset 4) data.size (range? data offset stop)
  if found ≠ signature then fail .peSignature
  else do
    let coffAt ← add offset 4
    let coff ← readCoffHeader data coffAt
    if !coff.machine.isSupported then fail (.machine coff.machine.raw)
    else do
      let behind ← add offset 4
      let optionalAt ← add behind coffHeaderSize
      let (optional, directories) ←
        readOptionalHeader data optionalAt coff.optionalSize.toNat
      pure ⟨coff, optional, directories⟩

/-- Where the section table starts. -/
def sectionTableOffset (dos : DosHeader) (h : Headers) : Guarded Nat := do
  let coffAt ← add dos.peOffset.toNat 4
  let optionalAt ← add coffAt coffHeaderSize
  add optionalAt h.coff.optionalSize.toNat

/-- The section header at an offset. Its fields are within the forty
bytes that were found, so they need no sums. -/
def readSection (data : Bytes) (offset : Nat) : Guarded Section := do
  let stop ← add offset sectionHeaderSize
  let raw ← orTruncated (add offset sectionHeaderSize) data.size (range? data offset stop)
  let rawName ← cut raw 0 8
  let field (place : Nat) : UInt32 := (word32? raw place).getD 0
  pure
    { rawName := rawName.toList
      virtualSize := field 8
      rva := field 12
      fileSize := field 16
      fileOffset := field 20
      characteristics := field 36 }

/-- So many section headers from an index on. -/
def readSectionsFrom (data : Bytes) (offset : Nat) :
    (count index : Nat) → Guarded (List Section)
  | 0, _ => pure []
  | count + 1, index => do
    let position ← entryAt offset index sectionHeaderSize
    let s ← readSection data position
    let following ← add index 1
    let rest ← readSectionsFrom data offset count following
    pure (s :: rest)

/-- The section table, if it is within the limit. -/
def readSections (data : Bytes) (offset count limit : Nat) : Guarded (List Section) :=
  if limit < count then fail (.sectionCount count limit)
  else readSectionsFrom data offset count 0

-- ============================================================== agreement

/-- A report whose length is in range is the unbounded one; if the read
answers, the length is not computed at all. -/
theorem orTruncated_eq {expected : Guarded Nat} {needed : Nat} (h : expected = pure needed)
    (actual : Nat) (o : Option α) :
    orTruncated expected actual o = read (Pe.orTruncated needed actual o) := by
  cases o with
  | some a => rfl
  | none =>
      rw [h]
      rfl

/-- A reader that refuses under a condition agrees where it goes on. -/
theorem refuse_eq {c : Prop} [Decidable c] {e : ImageError} {g : Guarded α}
    {next : Unit → Except ImageError α} {r : Except ImageError α} (h : ¬ c → g = read r) :
    (if c then fail e else g) = read (if c then throw e >>= next else r) := by
  by_cases hc : c
  · rw [if_pos hc, if_pos hc]
    rfl
  · rw [if_neg hc, if_neg hc]
    exact h hc

theorem coffField_eq {data : Bytes} {read? read?' : Bytes → Nat → Option α}
    (hread : ∀ start, read? data start = read?' data start) {offset place : Nat}
    (h : offset + place < 2 ^ 64) (needed : Nat) :
    coffField read? data offset needed place
      = read (Pe.orTruncated needed data.size (read?' data (offset + place))) := by
  unfold coffField
  rw [add_bind h, hread]
  exact orTruncated_eq rfl _ _

section Agreement

variable {data : Bytes} (hsize : data.size < sizeLimit)
include hsize

theorem readDosHeader_eq : readDosHeader data = read (Pe.readDosHeader data) := by
  unfold readDosHeader Pe.readDosHeader
  dsimp only
  refine refuse_eq fun _ => ?_
  rw [word16?_eq hsize, word32?_eq hsize]
  refine read_bind (orTruncated_eq rfl _ _) fun magic _ => refuse_eq fun _ => ?_
  exact read_bind (orTruncated_eq rfl _ _) fun peOffset _ => rfl

/-- The COFF header is read without a fault where its end is a word. -/
theorem readCoffHeader_eq {offset : Nat} (h : offset + coffHeaderSize < 2 ^ 64) :
    readCoffHeader data offset = read (Pe.readCoffHeader data offset) := by
  unfold coffHeaderSize at h
  unfold readCoffHeader Pe.readCoffHeader coffHeaderSize
  rw [add_bind h]
  refine read_bind (coffField_eq (word16?_eq hsize) (by omega) _) fun machine _ => ?_
  refine read_bind (coffField_eq (word16?_eq hsize) (by omega) _) fun count _ => ?_
  refine read_bind (coffField_eq (word32?_eq hsize) (by omega) _) fun timestamp _ => ?_
  refine read_bind (coffField_eq (word16?_eq hsize) (by omega) _) fun size _ => ?_
  exact read_bind (coffField_eq (word16?_eq hsize) (by omega) _) fun flags _ => rfl

/-- Directories are read one after the other, eight bytes apart. -/
theorem readDirectoriesFrom_eq {offset count index : Nat}
    (h : offset + (index + count) * 8 + 4 < 2 ^ 64) :
    readDirectoriesFrom data offset count index
      = pure (Pe.readDirectoriesFrom data (offset + index * 8) count) := by
  induction count generalizing index with
  | zero => rfl
  | succ count ih =>
      unfold readDirectoriesFrom Pe.readDirectoriesFrom readDirectory?
      rw [entryAt_bind (by omega), add_bind (by omega), word32?_eq hsize, word32?_eq hsize]
      cases data.word32? (offset + index * 8) with
      | none => rfl
      | some rva =>
          cases data.word32? (offset + index * 8 + 4) with
          | none => rfl
          | some size =>
              dsimp only
              rw [add_bind (by omega), ih (by omega), pure_bind, Nat.add_one_mul, ← Nat.add_assoc]
              rfl

/-- There are at most 16 directories, so none of them is far behind the
first. -/
theorem readDirectories_eq {offset declared : Nat} (h : offset < 2 ^ 32) :
    readDirectories data offset declared = pure (Pe.readDirectories data offset declared) := by
  unfold readDirectories Pe.readDirectories
  have hcount : min declared directoryLimit ≤ 16 := Nat.min_le_right _ _
  rw [readDirectoriesFrom_eq hsize (by omega), pure_bind, Nat.zero_mul, Nat.add_zero]

/-- A field of the optional header is read among its bytes; only the
report computes where it would end in the file. -/
theorem optionalField_eq {offset place : Nat} (h : offset + place + 4 < 2 ^ 64) (stop : Nat) :
    optionalField data offset stop place
      = read (Pe.orTruncated (offset + place + 4) stop (data.word32? place)) := by
  unfold optionalField
  rw [word32?_eq hsize]
  refine orTruncated_eq ?_ _ _
  rw [add_bind (by omega), add_eq h]

/-- Both widths of the image base report the same end. -/
theorem readImageBase_eq {offset : Nat} (h : offset < 2 ^ 33) (stop : Nat) (kind : Kind) :
    readImageBase data offset stop kind
      = read (Pe.orTruncated (offset + 32) stop (readImageBase? data kind)) := by
  cases kind with
  | pe32Plus =>
      unfold readImageBase readImageBase?
      rw [word64?_eq hsize]
      exact orTruncated_eq (add_eq (by omega)) _ _
  | pe32 =>
      unfold readImageBase readImageBase?
      rw [optionalField_eq hsize (by omega)]
      cases data.word32? 28 with
      | none => rfl
      | some low => rfl

/-- The declared bytes of the optional header are cut out of a file that
was found to hold them. -/
theorem readOptionalHeader_eq {offset size : Nat} (hoffset : offset < 2 ^ 33)
    (hdeclared : size < 2 ^ 16) :
    readOptionalHeader data offset size = read (Pe.readOptionalHeader data offset size) := by
  unfold readOptionalHeader Pe.readOptionalHeader
  dsimp only
  rw [add_bind (by omega), add_bind (by omega)]
  refine refuse_eq fun hheld => ?_
  -- not refused, so the declared bytes are in the file and can be cut out
  obtain ⟨-, hstop⟩ := not_or.mp hheld
  have hle : offset + size ≤ data.size := Nat.not_lt.mp hstop
  rw [word16?_eq hsize]
  refine read_bind (orTruncated_eq (add_eq (by omega)) _ _) fun magic _ => ?_
  cases Kind.ofMagic? magic with
  | none => rfl
  | some kind =>
      -- the last field ends where the directories start
      have hplace : 96 ≤ kind.directoriesAt ∧ kind.directoriesAt ≤ 112 := by
        cases kind <;> decide
      dsimp only
      rw [add_bind (by omega)]
      refine refuse_eq fun _ => ?_
      rw [cut_bind (by omega) hle]
      have hheader : (data.extract offset (offset + size)).size < sizeLimit := by
        rw [Array.size_extract]
        omega
      refine read_bind (readImageBase_eq hheader hoffset _ _) fun imageBase _ => ?_
      refine read_bind (optionalField_eq hheader (by omega) _) fun entryRva _ => ?_
      refine read_bind (optionalField_eq hheader (by omega) _) fun sectionAlignment _ => ?_
      refine read_bind (optionalField_eq hheader (by omega) _) fun fileAlignment _ => ?_
      refine read_bind (optionalField_eq hheader (by omega) _) fun imageSize _ => ?_
      rw [sub_bind (by omega)]
      refine read_bind (optionalField_eq hheader (by omega) _) fun directoryCount _ => ?_
      rw [readDirectories_eq hheader (by omega), pure_bind]
      rfl

/-- Headers at a 32-bit offset are read without a fault. -/
theorem readHeaders_eq {offset : Nat} (h : offset < 2 ^ 32) :
    readHeaders data offset = read (Pe.readHeaders data offset) := by
  unfold readHeaders Pe.readHeaders
  dsimp only
  rw [add_bind (by omega), range?_eq]
  refine read_bind (orTruncated_eq (add_eq (by omega)) _ _) fun found _ => ?_
  refine refuse_eq fun _ => ?_
  rw [add_bind (by omega)]
  refine read_bind (readCoffHeader_eq hsize (by unfold coffHeaderSize; omega)) fun coff _ => ?_
  refine refuse_eq fun _ => ?_
  unfold coffHeaderSize
  rw [add_bind (by omega), add_bind (by omega)]
  exact read_bind (readOptionalHeader_eq hsize (by omega) coff.optionalSize.toNat_lt)
    fun _ _ => rfl

end Agreement

-- =============================================================== sections

/-- The table starts at most `2 ^ 32 + 2 ^ 16 + 24` bytes into the
file. -/
theorem sectionTableOffset_eq (dos : DosHeader) (h : Headers) :
    sectionTableOffset dos h = pure (Pe.sectionTableOffset dos h) := by
  have hpe := dos.peOffset.toNat_lt
  have hoptional := h.coff.optionalSize.toNat_lt
  unfold sectionTableOffset Pe.sectionTableOffset coffHeaderSize
  rw [add_bind (by omega), add_bind (by omega), add_eq (by omega)]

/-- The eight bytes of a name are cut out of a whole section header. -/
theorem readSection_eq (data : Bytes) {offset : Nat} (h : offset + sectionHeaderSize < 2 ^ 64) :
    readSection data offset = read (Pe.readSection data offset) := by
  unfold readSection Pe.readSection
  rw [add_bind h, range?_eq]
  refine read_bind (orTruncated_eq (add_eq h) _ _) fun raw hraw => ?_
  have hwhole : raw.size = 40 := Bytes.size_of_slice? (orTruncated_eq_ok_iff.mp hraw)
  rw [cut_bind (Nat.zero_le _) (by omega)]
  have hfits : raw.size < sizeLimit := by
    rw [hwhole]
    decide
  simp only [word32?_eq hfits]
  rfl

/-- Section headers are read one after the other, in the order of their
numbers. -/
theorem readSectionsFrom_eq (data : Bytes) {offset count index : Nat}
    (h : offset + (index + count) * sectionHeaderSize < 2 ^ 64) :
    readSectionsFrom data offset count index
      = read ((List.range' index count).mapM fun i =>
          Pe.readSection data (offset + i * sectionHeaderSize)) := by
  induction count generalizing index with
  | zero => rfl
  | succ count ih =>
      have hstep : offset + (index + 1 + count) * sectionHeaderSize < 2 ^ 64 := by
        rw [Nat.add_right_comm, Nat.add_assoc]
        exact h
      have hentry : offset + index * sectionHeaderSize + sectionHeaderSize < 2 ^ 64 := by
        unfold sectionHeaderSize at h ⊢
        omega
      unfold readSectionsFrom
      rw [entryAt_bind (by omega), List.range'_succ, List.mapM_cons]
      refine read_bind (readSection_eq data hentry) fun s _ => ?_
      rw [add_bind (by unfold sectionHeaderSize at h; omega)]
      exact read_bind (ih hstep) fun rest _ => rfl

/-- A table of at most `2 ^ 16` headers behind a 33-bit offset has no
position that is not a word. -/
theorem readSections_eq (data : Bytes) {offset count : Nat} (hoffset : offset < 2 ^ 33)
    (hcount : count < 2 ^ 16) (limit : Nat) :
    readSections data offset count limit = read (Pe.readSections data offset count limit) := by
  unfold readSections Pe.readSections
  split
  · rfl
  · rw [readSectionsFrom_eq data (by unfold sectionHeaderSize; omega), List.range_eq_range']

end Dissect.Pe.Bounded

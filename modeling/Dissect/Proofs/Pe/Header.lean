/-
When headers are read, and what they are.

A reader of a header refuses in many places and answers in one. The
lemmas here turn each reader around: it answers exactly when the words
it needs are there and have the values it asks for, and the answer is
made of these words. Everything else about headers is a matter of words
in the file, or, behind the optional header's first word, of the bytes
that the header declares as its own.
-/
import Dissect.Pe.Section
import Dissect.Proofs.Walk
import Mathlib.Data.List.Forall2

namespace Dissect.Pe

variable {α β : Type}

-- ============================================================== readers

/-- A read in place of an error answers what was read. -/
@[simp] theorem orTruncated_eq_ok_iff {expected actual : Nat} {o : Option α} {a : α} :
    orTruncated expected actual o = .ok a ↔ o = some a := by
  cases o with
  | none => simp [orTruncated]
  | some b => simp [orTruncated]

/-- What is at hand is answered. -/
theorem pure_eq_ok_iff {a b : α} : (pure a : Except ImageError α) = .ok b ↔ a = b := by
  simp [pure, Except.pure]

/-- A reader that refuses under a condition answers only without it. -/
theorem refuse_eq_ok_iff {c : Prop} [Decidable c] {e : ImageError}
    {next : Unit → Except ImageError α} {r : Except ImageError α} {a : α} :
    (if c then throw e >>= next else r) = .ok a ↔ ¬ c ∧ r = .ok a := by
  by_cases h : c
  · rw [if_pos h]
    exact ⟨fun hok => (nomatch hok), fun hok => absurd h hok.1⟩
  · rw [if_neg h]
    exact ⟨fun hok => ⟨h, hok⟩, fun hok => hok.2⟩

/-- A list of reads answers when each of them does. -/
theorem mapM_eq_ok_iff {f : α → Except ImageError β} {xs : List α} {ys : List β} :
    xs.mapM f = .ok ys ↔ List.Forall₂ (fun x y => f x = .ok y) xs ys := by
  induction xs generalizing ys with
  | nil =>
      rw [List.mapM_nil, List.forall₂_nil_left_iff]
      exact ⟨fun h => (Except.ok.inj h).symm, fun h => h ▸ rfl⟩
  | cons x xs ih =>
      rw [List.mapM_cons, List.forall₂_cons_left_iff, except_bind_eq_ok_iff]
      constructor
      · rintro ⟨y, hy, h⟩
        obtain ⟨ys', hys', h⟩ := except_bind_eq_ok_iff.mp h
        exact ⟨y, ys', hy, ih.mp hys', (Except.ok.inj h).symm⟩
      · rintro ⟨y, ys', hy, hys', rfl⟩
        exact ⟨y, hy, except_bind_eq_ok_iff.mpr ⟨ys', ih.mpr hys', rfl⟩⟩

-- ============================================================== headers

/-- A file has a DOS header when it is long enough and starts with
`MZ`. -/
theorem readDosHeader_eq_ok_iff {data : Bytes} {dos : DosHeader} :
    readDosHeader data = .ok dos
      ↔ dosHeaderSize ≤ data.size ∧ data.word16? 0 = some dos.magic ∧ dos.magic = 0x5A4D
        ∧ data.word32? 60 = some dos.peOffset := by
  unfold readDosHeader
  dsimp only
  rw [refuse_eq_ok_iff, except_bind_eq_ok_iff, Nat.not_lt]
  refine and_congr_right fun _ => ⟨?_, ?_⟩
  · rintro ⟨magic, hmagic, h⟩
    obtain ⟨hvalue, h⟩ := refuse_eq_ok_iff.mp h
    obtain ⟨peOffset, hoffset, h⟩ := except_bind_eq_ok_iff.mp h
    cases h
    exact ⟨orTruncated_eq_ok_iff.mp hmagic, Decidable.not_not.mp hvalue,
      orTruncated_eq_ok_iff.mp hoffset⟩
  · rintro ⟨hmagic, hvalue, hoffset⟩
    refine ⟨dos.magic, orTruncated_eq_ok_iff.mpr hmagic,
      refuse_eq_ok_iff.mpr ⟨not_not_intro hvalue, ?_⟩⟩
    exact except_bind_eq_ok_iff.mpr ⟨dos.peOffset, orTruncated_eq_ok_iff.mpr hoffset, rfl⟩

/-- A COFF header is made of five words. -/
theorem readCoffHeader_eq_ok_iff {data : Bytes} {offset : Nat} {coff : CoffHeader} :
    readCoffHeader data offset = .ok coff
      ↔ (∃ raw, data.word16? offset = some raw ∧ coff.machine = .ofRaw raw)
        ∧ data.word16? (offset + 2) = some coff.sectionCount
        ∧ data.word32? (offset + 4) = some coff.timestamp
        ∧ data.word16? (offset + 16) = some coff.optionalSize
        ∧ data.word16? (offset + 18) = some coff.characteristics := by
  unfold readCoffHeader
  simp only [except_bind_eq_ok_iff, orTruncated_eq_ok_iff]
  constructor
  · rintro ⟨raw, hraw, count, hcount, timestamp, htimestamp, size, hsize, characteristics,
      hcharacteristics, h⟩
    cases h
    exact ⟨⟨raw, hraw, rfl⟩, hcount, htimestamp, hsize, hcharacteristics⟩
  · rintro ⟨⟨raw, hraw, hmachine⟩, hcount, htimestamp, hsize, hcharacteristics⟩
    refine ⟨raw, hraw, _, hcount, _, htimestamp, _, hsize, _, hcharacteristics, ?_⟩
    rw [← hmachine]
    rfl

/-- The optional header and the directories that some bytes hold. -/
def readFields? (header : Bytes) (magic : UInt16) (kind : Kind) :
    Option (OptionalHeader × List DataDirectory) := do
  let imageBase ← readImageBase? header kind
  let entryRva ← header.word32? 16
  let sectionAlignment ← header.word32? 32
  let fileAlignment ← header.word32? 36
  let imageSize ← header.word32? 56
  let directoryCount ← header.word32? (kind.directoriesAt - 4)
  some
    ( ⟨magic, entryRva, imageBase, sectionAlignment, fileAlignment, imageSize, directoryCount⟩,
      readDirectories header kind.directoriesAt directoryCount.toNat )

/-- An optional header is read when its declared bytes are in the file
and are enough for its kind; it is read from these bytes alone. -/
theorem readOptionalHeader_eq_ok_iff {data : Bytes} {offset size : Nat}
    {r : OptionalHeader × List DataDirectory} :
    readOptionalHeader data offset size = .ok r
      ↔ 2 ≤ size ∧ offset + size ≤ data.size
        ∧ ∃ magic kind, data.word16? offset = some magic ∧ Kind.ofMagic? magic = some kind
          ∧ kind.directoriesAt ≤ size
          ∧ readFields? (data.extract offset (offset + size)) magic kind = some r := by
  unfold readOptionalHeader
  dsimp only
  rw [refuse_eq_ok_iff, not_or, Nat.not_lt, Nat.not_lt, and_assoc, except_bind_eq_ok_iff]
  refine and_congr_right fun _ => and_congr_right fun _ => exists_congr fun magic => ?_
  rw [orTruncated_eq_ok_iff]
  cases hkind : Kind.ofMagic? magic with
  | none => simp [throw, throwThe, MonadExceptOf.throw]
  | some kind =>
      simp only [refuse_eq_ok_iff, Nat.not_lt, except_bind_eq_ok_iff, orTruncated_eq_ok_iff,
        pure_eq_ok_iff, readFields?, Option.bind_eq_bind, Option.bind_eq_some_iff,
        Option.some.injEq, exists_and_left, exists_eq_left']

/-- Headers are read behind a signature, for a supported machine. -/
theorem readHeaders_eq_ok_iff {data : Bytes} {offset : Nat} {h : Headers} :
    readHeaders data offset = .ok h
      ↔ data.slice? offset 4 = some signature
        ∧ readCoffHeader data (offset + 4) = .ok h.coff
        ∧ h.coff.machine.isSupported = true
        ∧ readOptionalHeader data (offset + 4 + coffHeaderSize) h.coff.optionalSize.toNat
          = .ok (h.optional, h.directories) := by
  unfold readHeaders
  simp only [except_bind_eq_ok_iff, orTruncated_eq_ok_iff, refuse_eq_ok_iff,
    Decidable.not_not, Bool.not_eq_true', Bool.not_eq_false]
  constructor
  · rintro ⟨found, hfound, rfl, coff, hcoff, hmachine, ⟨optional, directories⟩, hoptional, h⟩
    cases h
    exact ⟨hfound, hcoff, hmachine, hoptional⟩
  · rintro ⟨hfound, hcoff, hmachine, hoptional⟩
    exact ⟨signature, hfound, rfl, h.coff, hcoff, hmachine, (h.optional, h.directories),
      hoptional, rfl⟩

-- ============================================================= sections

/-- A section table is read when it is not too long and each header is
there. -/
theorem readSections_eq_ok_iff {data : Bytes} {offset count limit : Nat}
    {sections : List Section} :
    readSections data offset count limit = .ok sections
      ↔ count ≤ limit
        ∧ List.Forall₂ (fun i s => readSection data (offset + i * sectionHeaderSize) = .ok s)
            (List.range count) sections := by
  unfold readSections
  split
  · next h =>
    simp only [reduceCtorEq, false_iff, not_and]
    omega
  · next h =>
    rw [mapM_eq_ok_iff]
    exact ⟨fun hall => ⟨Nat.not_lt.mp h, hall⟩, fun hall => hall.2⟩

/-- The headers of a file and the section table behind them, each read
where the one before says. -/
structure ReadsTo (data : Bytes) (limit : Nat) (dos : DosHeader) (headers : Headers)
    (sections : List Section) : Prop where
  dos_eq : readDosHeader data = .ok dos
  headers_eq : readHeaders data dos.peOffset.toNat = .ok headers
  sections_eq :
    readSections data (sectionTableOffset dos headers) headers.coff.sectionCount.toNat limit
      = .ok sections

end Dissect.Pe

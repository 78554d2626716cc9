/-
Words, as their bytes spell them.

`Bytes.u16`, `u32` and `u64` spell a word out of the bytes at a place,
least significant first, one doubling of the width at a time. A read
answers exactly when all bytes of the word are there, with the number
that they spell (`word16?_eq_some_iff` and its like), and a part of a
file spells the words of the file (`u32_extract` and its like). Where
a statement is about the bytes of a file and not about reads, it is
about these.
-/
import Dissect.Proofs.Bytes
import Mathlib.Algebra.Group.Nat.Defs

namespace Dissect.Bytes

variable {data : Bytes} {i width : Nat}

/-- The value of a byte; there are zeros past the end. -/
def byte (data : Bytes) (i : Nat) : Nat := (data.getD i 0).toNat

/-- The number that two bytes spell. -/
def u16 (data : Bytes) (i : Nat) : Nat := data.byte i + 2 ^ 8 * data.byte (i + 1)

/-- The number that four bytes spell, as two words of two bytes. -/
def u32 (data : Bytes) (i : Nat) : Nat := data.u16 i + 2 ^ 16 * data.u16 (i + 2)

/-- The number that eight bytes spell, as two words of four bytes. -/
def u64 (data : Bytes) (i : Nat) : Nat := data.u32 i + 2 ^ 32 * data.u32 (i + 4)

/-- A byte is less than 256, also past the end. -/
theorem byte_lt (data : Bytes) (i : Nat) : data.byte i < 2 ^ 8 := (data.getD i 0).toNat_lt

/-- A byte that is there has its value. -/
theorem getElem?_eq_some_iff_byte (h : i < data.size) {b : UInt8} :
    data[i]? = some b ↔ data.byte i = b.toNat := by
  unfold byte
  rw [Array.getD_eq_getD_getElem?, Array.getElem?_eq_getElem h, Option.some.injEq,
    Option.getD_some, UInt8.toNat_inj]

-- ============================================================== numbers

/-- A number is less than the bytes it is read from can spell. -/
theorem numberAt_lt (data : Bytes) (i width : Nat) : numberAt data i width < 256 ^ width := by
  induction width generalizing i with
  | zero => exact Nat.one_pos
  | succ width ih =>
      have hbyte := data.byte_lt i
      have hrest := ih (i + 1)
      unfold byte at hbyte
      rw [numberAt, Nat.pow_succ]
      omega

/-- The number of two bytes is the word they spell, as are those of four
and of eight below. -/
theorem numberAt_two (data : Bytes) (i : Nat) : numberAt data i 2 = data.u16 i := by
  simp only [numberAt, u16, byte]
  omega

theorem numberAt_four (data : Bytes) (i : Nat) : numberAt data i 4 = data.u32 i := by
  simp only [numberAt, u32, u16, byte, Nat.add_assoc, Nat.reduceAdd]
  omega

theorem numberAt_eight (data : Bytes) (i : Nat) : numberAt data i 8 = data.u64 i := by
  simp only [numberAt, u64, u32, u16, byte, Nat.add_assoc, Nat.reduceAdd]
  omega

-- ================================================================ reads

/-- A number is read where its bytes are there. -/
theorem word?_eq_some_iff {n : Nat} :
    data.word? width i = some n ↔ i + width ≤ data.size ∧ numberAt data i width = n := by
  unfold word?
  split
  · next h => simp [h]
  · next h => simp [h]

/-- A word of any type is read where its bytes are there, and has their
value. -/
theorem map_word?_eq_some_iff {α : Type} {ofNat : Nat → α} {toNat : α → Nat} {w : α}
    (hleft : ∀ n < 256 ^ width, toNat (ofNat n) = n) (hright : ∀ w, ofNat (toNat w) = w) :
    (data.word? width i).map ofNat = some w
      ↔ i + width ≤ data.size ∧ toNat w = numberAt data i width := by
  rw [Option.map_eq_some_iff]
  constructor
  · rintro ⟨n, hn, rfl⟩
    obtain ⟨hle, rfl⟩ := word?_eq_some_iff.mp hn
    exact ⟨hle, hleft _ (data.numberAt_lt i width)⟩
  · rintro ⟨hle, hw⟩
    refine ⟨numberAt data i width, word?_eq_some_iff.mpr ⟨hle, rfl⟩, ?_⟩
    rw [← hw, hright]

/-- A word of two bytes is read exactly where they are there, as what
they spell. -/
theorem word16?_eq_some_iff {w : UInt16} :
    data.word16? i = some w ↔ i + 2 ≤ data.size ∧ w.toNat = data.u16 i := by
  rw [← numberAt_two]
  exact map_word?_eq_some_iff (fun n hn => UInt16.toNat_ofNat_of_lt' hn)
    fun _ => UInt16.ofNat_toNat

/-- A word of four bytes is read exactly where they are there, as what
they spell. -/
theorem word32?_eq_some_iff {w : UInt32} :
    data.word32? i = some w ↔ i + 4 ≤ data.size ∧ w.toNat = data.u32 i := by
  rw [← numberAt_four]
  exact map_word?_eq_some_iff (fun n hn => UInt32.toNat_ofNat_of_lt' hn)
    fun _ => UInt32.ofNat_toNat

/-- A word of eight bytes is read exactly where they are there, as what
they spell. -/
theorem word64?_eq_some_iff {w : UInt64} :
    data.word64? i = some w ↔ i + 8 ≤ data.size ∧ w.toNat = data.u64 i := by
  rw [← numberAt_eight]
  exact map_word?_eq_some_iff (fun n hn => UInt64.toNat_ofNat_of_lt' hn)
    fun _ => UInt64.ofNat_toNat

/-- A word is read when its bytes are there. -/
theorem exists_map_word? {α : Type} (ofNat : Nat → α) (h : i + width ≤ data.size) :
    ∃ w, (data.word? width i).map ofNat = some w :=
  ⟨_, Option.map_eq_some_iff.mpr ⟨_, word?_eq_some_iff.mpr ⟨h, rfl⟩, rfl⟩⟩

theorem exists_word16? (data : Bytes) (i : Nat) (h : i + 2 ≤ data.size) :
    ∃ w, data.word16? i = some w :=
  exists_map_word? UInt16.ofNat h

/-- A word of four bytes is read where its end is in the file. -/
theorem exists_word32? (data : Bytes) (i : Nat) (h : i + 4 ≤ data.size) :
    ∃ w, data.word32? i = some w :=
  exists_map_word? UInt32.ofNat h

theorem exists_word64? (data : Bytes) (i : Nat) (h : i + 8 ≤ data.size) :
    ∃ w, data.word64? i = some w :=
  exists_map_word? UInt64.ofNat h

-- ================================================================ parts

/-- A part of a file spells the words of the file that are within the
part. -/
theorem u16_extract {start stop : Nat} (h : start + i + 2 ≤ stop) (hstop : stop ≤ data.size) :
    u16 (data.extract start stop) i = data.u16 (start + i) := by
  rw [← numberAt_two, ← numberAt_two, numberAt_extract h hstop]

/-- A part of a file spells its words of four bytes. -/
theorem u32_extract {start stop : Nat} (h : start + i + 4 ≤ stop) (hstop : stop ≤ data.size) :
    u32 (data.extract start stop) i = data.u32 (start + i) := by
  rw [← numberAt_four, ← numberAt_four, numberAt_extract h hstop]

theorem u64_extract {start stop : Nat} (h : start + i + 8 ≤ stop) (hstop : stop ≤ data.size) :
    u64 (data.extract start stop) i = data.u64 (start + i) := by
  rw [← numberAt_eight, ← numberAt_eight, numberAt_extract h hstop]

end Dissect.Bytes

/-
Reads with bounded arithmetic.

Here and in the modules behind this one a function has the name of the
function of the loader that it follows.

# Three kinds of sums

The end of a word is a checked sum: a word whose end is no word is not
there. The end of a string and of a slice is a saturating sum: it stops
at the last word, which is behind every file. Everything else is a plain
sum, which faults.

# Agreement

A file is shorter than `sizeLimit`, so every end that a checked sum
refuses or a saturating sum moves lies behind the file, and the read is
answered as if positions had no end. The one plain operation is the
distance of an address from the start of its segment, and the segment
contains the address.
-/
import Dissect.Proofs.Bytes
import Dissect.Proofs.Pe.Bounded.Arithmetic
import Dissect.Proofs.Pe.View

namespace Dissect.Pe.Bounded

variable {α : Type}

/-- Files are shorter than this. -/
def sizeLimit : Nat := 2 ^ 63

/-- The sum of two words, when it is a word. -/
def checkedSum? (a b : Nat) : Option Nat := if a + b < 2 ^ 64 then some (a + b) else none

/-- The sum of two words, or the last word. -/
def saturatingSum (a b : Nat) : Nat := min (a + b) (2 ^ 64 - 1)

-- ================================================================= files

/-- The bytes from `start` up to `stop`, if they are there. -/
def range? (data : Bytes) (start stop : Nat) : Option Bytes :=
  if start ≤ stop ∧ stop ≤ data.size then some (data.extract start stop) else none

/-- The number that so many bytes spell, if the end of them is a word
and in the file. -/
def word? (data : Bytes) (width start : Nat) : Option Nat := do
  let stop ← checkedSum? start width
  let part ← range? data start stop
  some (part.numberAt 0 width)

/-- The word of two bytes at a position. -/
def word16? (data : Bytes) (start : Nat) : Option UInt16 :=
  (word? data 2 start).map UInt16.ofNat

/-- The word of four bytes at a position. -/
def word32? (data : Bytes) (start : Nat) : Option UInt32 :=
  (word? data 4 start).map UInt32.ofNat

/-- The word of eight bytes at a position. -/
def word64? (data : Bytes) (start : Nat) : Option UInt64 :=
  (word? data 8 start).map UInt64.ofNat

/-- The text up to a terminator at most `limit` bytes behind the start.
Both sums of its end saturate; the text is cut out of the bytes that
were looked at. -/
def string? (data : Bytes) (start limit : Nat) : Guarded (Option String) :=
  let stop := min (saturatingSum start (saturatingSum limit 1)) data.size
  match range? data start stop with
  | none => pure none
  | some part =>
    match part.toList.findIdx? (· = 0) with
    | none => pure none
    | some length => do
      let text ← cut part 0 length
      pure (some (Utf8.decodeLossy text.toList))

/-- A range whose end is computed without bounds is a slice. -/
theorem range?_eq (data : Bytes) (start count : Nat) :
    range? data start (start + count) = data.slice? start count := by
  unfold range? Bytes.slice?
  refine ite_congr ?_ (fun _ => rfl) (fun _ => rfl)
  simp

section Files

variable {data : Bytes} (hsize : data.size < sizeLimit)
include hsize

/-- An end that is no word is behind every file, so the checked sum
refuses nothing that is there. -/
theorem word?_eq (width start : Nat) : word? data width start = data.word? width start := by
  unfold sizeLimit at hsize
  unfold word? checkedSum? Bytes.word?
  by_cases hle : start + width ≤ data.size
  · rw [if_pos hle, if_pos (by omega)]
    show (range? data start (start + width)).bind _ = _
    rw [range?, if_pos ⟨by omega, hle⟩]
    exact congrArg some (Bytes.numberAt_extract (Nat.le_refl _) hle)
  · rw [if_neg hle]
    split
    · show (range? data start (start + width)).bind _ = _
      rw [range?, if_neg (by omega)]
      rfl
    · rfl

theorem word16?_eq (start : Nat) : word16? data start = data.word16? start := by
  rw [word16?, word?_eq hsize, Bytes.word16?]

/-- Words of four bytes are those of the unbounded reads. -/
theorem word32?_eq (start : Nat) : word32? data start = data.word32? start := by
  rw [word32?, word?_eq hsize, Bytes.word32?]

theorem word64?_eq (start : Nat) : word64? data start = data.word64? start := by
  rw [word64?, word?_eq hsize, Bytes.word64?]

/-- A slice whose end saturates is not there, and neither is one whose
end is behind the file. -/
theorem range?_saturatingSum (start count : Nat) :
    range? data start (saturatingSum start count) = data.slice? start count := by
  unfold sizeLimit at hsize
  unfold range? saturatingSum Bytes.slice?
  by_cases hle : start + count ≤ data.size
  · rw [if_pos hle, Nat.min_eq_left (by omega), if_pos ⟨by omega, hle⟩]
  · rw [if_neg hle, if_neg (by omega)]

end Files

/-- The terminator of a string is looked for up to the limit or the end
of the file, and the text in front of it is cut in range. -/
theorem string?_eq {data : Bytes} (hsize : data.size < 2 ^ 64) (start limit : Nat) :
    string? data start limit = pure (data.string? start limit) := by
  unfold string? saturatingSum Bytes.string?
  dsimp only
  by_cases hstart : start ≤ data.size
  · -- Whether or not the sums saturate, the scan ends at the limit or at
    -- the end of the file.
    have hstop : min (min (start + min (limit + 1) (2 ^ 64 - 1)) (2 ^ 64 - 1)) data.size
        = start + min (limit + 1) (data.size - start) := by omega
    rw [hstop, range?, if_pos ⟨by omega, by omega⟩, Bytes.nulFrom?_eq_findIdx? (by omega)]
    dsimp only
    generalize hpart : data.extract start (start + min (limit + 1) (data.size - start)) = part
    cases hfound : part.toList.findIdx? (· = 0) with
    | none => rfl
    | some length =>
        have hlength : length < part.size := by
          simpa using (List.findIdx?_eq_some_iff_findIdx_eq.mp hfound).1
        have hpart' : part.size = min (limit + 1) (data.size - start) := by
          rw [← hpart, Array.size_extract]
          omega
        dsimp only
        rw [cut_bind (Nat.zero_le _) (Nat.le_of_lt hlength), ← hpart, Array.extract_extract]
        simp only [Option.map_some, Nat.add_zero]
        rw [Nat.min_eq_left (by omega)]
  · rw [range?, if_neg (by omega), Nat.sub_eq_zero_of_le (by omega), Nat.min_zero]
    rfl

-- ============================================================== segments

/-- The number of addresses of a segment. -/
def segmentSize (s : Segment) : Guarded Nat := sub s.stop.toNat s.start.toNat

/-- The file offset behind an address of a segment. -/
def offsetIn? (s : Segment) (a : Address) : Guarded (Option UInt64) :=
  if s.contains a then do
    let distance ← sub a.toNat s.start.toNat
    pure (sum? s.offset distance)
  else pure none

/-- The file offset behind an address, from the first segment that gives
one. -/
def offset? : List Segment → Address → Guarded (Option UInt64)
  | [], _ => pure none
  | s :: rest, a => do
    match ← offsetIn? s a with
    | some o => pure (some o)
    | none => offset? rest a

/-- A segment ends behind its start. -/
theorem segmentSize_eq (s : Segment) : segmentSize s = pure s.size.toNat := by
  have hle : s.start ≤ s.stop := UInt64.le_of_lt s.nonempty
  rw [segmentSize, sub_eq (UInt64.le_iff_toNat_le.mp hle), Segment.size,
    UInt64.toNat_sub_of_le _ _ hle]

/-- An address of a segment is not before its start. -/
theorem offsetIn?_eq (s : Segment) (a : Address) : offsetIn? s a = pure (s.fileOffset? a) := by
  unfold offsetIn? Segment.fileOffset?
  split
  · next hcontains =>
    simp only [Segment.contains, Bool.and_eq_true, decide_eq_true_eq] at hcontains
    rw [sub_bind (UInt64.le_iff_toNat_le.mp hcontains.1)]
  · rfl

/-- Segments are asked in the same order, and none of them faults. -/
theorem offset?_eq (segments : List Segment) (a : Address) :
    offset? segments a = pure (fileOffset? segments a) := by
  induction segments with
  | nil => rfl
  | cons s rest ih =>
      unfold offset?
      rw [offsetIn?_eq, pure_bind, fileOffset?, List.findSome?_cons]
      cases s.fileOffset? a with
      | none => exact ih
      | some o => rfl

-- ================================================================= views

/-- The address of a relative address that some segment maps. -/
def mappedAddress (v : View) (rva : Nat) : Guarded Address := do
  let a ← read (v.address rva)
  match ← offset? v.segments a with
  | some _ => pure a
  | none => fail (.unmapped rva)

/-- The file offset behind a relative address. -/
def offset (v : View) (rva : Nat) : Guarded Nat := do
  let a ← read (v.address rva)
  match ← offset? v.segments a with
  | some o => pure o.toNat
  | none => fail (.unmapped rva)

/-- What a read answers at the file offset behind a relative address. -/
def readAt (v : View) (read? : Nat → Option α) (rva : Nat) : Guarded α := do
  let position ← offset v rva
  match read? position with
  | some a => pure a
  | none => fail (.outOfFile position)

/-- The word of two bytes at a relative address. -/
def word16 (v : View) (rva : Nat) : Guarded UInt16 := readAt v (word16? v.data) rva

/-- The word of four bytes at a relative address. -/
def word32 (v : View) (rva : Nat) : Guarded UInt32 := readAt v (word32? v.data) rva

/-- The word of eight bytes at a relative address. -/
def word64 (v : View) (rva : Nat) : Guarded UInt64 := readAt v (word64? v.data) rva

/-- So many bytes at a relative address; their end saturates. -/
def bytes (v : View) (rva count : Nat) : Guarded Bytes :=
  readAt v (fun position => range? v.data position (saturatingSum position count)) rva

/-- The 32-bit word of a structure at a relative address. -/
def fieldAt (v : View) (rva place : Nat) : Guarded UInt32 := do
  let position ← add rva place
  word32 v position

/-- The string at a relative address. -/
def string (v : View) (rva limit : Nat) : Guarded String := do
  let position ← offset v rva
  match ← string? v.data position limit with
  | some s => pure s
  | none => fail (.unterminated rva)

/-- Looking an address up faults nowhere. -/
theorem mappedAddress_eq (v : View) (rva : Nat) :
    mappedAddress v rva = read (v.mappedAddress rva) := by
  refine read_bind rfl fun a _ => ?_
  rw [offset?_eq, pure_bind, View.offset?]
  cases fileOffset? v.segments a with
  | none => rfl
  | some o => rfl

/-- Looking up a file offset faults nowhere. -/
theorem offset_eq (v : View) (rva : Nat) : offset v rva = read (v.offset rva) := by
  refine read_bind rfl fun a _ => ?_
  rw [offset?_eq, pure_bind, View.offset?]
  cases fileOffset? v.segments a with
  | none => rfl
  | some o => rfl

/-- A read through the segments agrees if what it reads with is the
same. -/
theorem readAt_eq (v : View) (read? : Nat → Option α) (rva : Nat) :
    readAt v read? rva = read (v.readAt read? rva) := by
  refine read_bind (offset_eq v rva) fun position _ => ?_
  cases read? position with
  | none => rfl
  | some a => rfl

section Views

variable {v : View} (hsize : v.data.size < sizeLimit)
include hsize

theorem word16_eq (rva : Nat) : word16 v rva = read (v.word16 rva) := by
  rw [word16, funext (word16?_eq hsize), readAt_eq, View.word16]

/-- Words of four bytes through the segments are those of the unbounded
reads. -/
theorem word32_eq (rva : Nat) : word32 v rva = read (v.word32 rva) := by
  rw [word32, funext (word32?_eq hsize), readAt_eq, View.word32]

/-- A field of a structure is the word at its own address, which is a
word. -/
theorem fieldAt_eq {rva place : Nat} (h : rva + place < 2 ^ 64) :
    fieldAt v rva place = read (v.word32 (rva + place)) := by
  rw [fieldAt, add_bind h, word32_eq hsize]

theorem word64_eq (rva : Nat) : word64 v rva = read (v.word64 rva) := by
  rw [word64, funext (word64?_eq hsize), readAt_eq, View.word64]

/-- A saturated end is behind the file, as the end it stands for. -/
theorem bytes_eq (rva count : Nat) : bytes v rva count = read (v.bytes rva count) := by
  rw [bytes, funext fun position => range?_saturatingSum hsize position count, readAt_eq,
    View.bytes]

/-- Strings through the segments are those of the file. -/
theorem string_eq (rva limit : Nat) : string v rva limit = read (v.string rva limit) := by
  refine read_bind (offset_eq v rva) fun position _ => ?_
  have hword : v.data.size < 2 ^ 64 := Nat.lt_trans hsize (by decide)
  rw [string?_eq hword, pure_bind]
  cases v.data.string? position limit with
  | none => rfl
  | some s => rfl

end Views

end Dissect.Pe.Bounded

/-
Which strings are read.

# The terminator

A string is what stands between its start and the first NUL behind it
(`Terminated`). The search looks at one byte after another, so a NUL is
the first one of a longer search exactly if the byte in front of the
search is none (`terminated_succ_iff`), and the search finds the first
NUL that is near enough (`nulFrom?_eq_some_iff`).

Nothing behind the terminator is looked at, and there is one first NUL.
So a string that is read stays what it is, whatever the limit and the
bytes behind it.

# Words

With words for positions the end of the search is a saturating sum of
the start and the limit, cut at the end of the file. No file reaches the
last word, so the search ends where it does with natural numbers.
-/
import Dissect.Proofs.Pe.Bounded.Reads

namespace Dissect.Bytes

variable {data other : Bytes} {start length : Nat}

/-- The bytes from the start on are `length` bytes of text and then a
NUL, the first one. -/
structure Terminated (data : Bytes) (start length : Nat) : Prop where
  text : ∀ i < length, ∃ b, data[start + i]? = some b ∧ b ≠ 0
  nul : data[start + length]? = some 0

-- ============================================================== one byte

theorem terminated_zero_iff : data.Terminated start 0 ↔ data[start]? = some 0 := by
  constructor
  · exact fun h => h.nul
  · exact fun h => ⟨fun i hi => absurd hi (Nat.not_lt_zero i), h⟩

/-- One byte further on the string is one byte shorter. -/
theorem terminated_succ_iff :
    data.Terminated start (length + 1)
      ↔ (∃ b, data[start]? = some b ∧ b ≠ 0) ∧ data.Terminated (start + 1) length := by
  have hnext : ∀ i, start + 1 + i = start + (i + 1) := fun i => by omega
  constructor
  · intro h
    refine ⟨h.text 0 (Nat.succ_pos _), fun i hi => ?_, ?_⟩
    · rw [hnext]
      exact h.text (i + 1) (Nat.succ_lt_succ hi)
    · rw [hnext]
      exact h.nul
  · intro h
    obtain ⟨hfirst, hrest⟩ := h
    refine ⟨fun i hi => ?_, ?_⟩
    · cases i with
      | zero => exact hfirst
      | succ i =>
          rw [← hnext]
          exact hrest.text i (Nat.lt_of_succ_lt_succ hi)
    · rw [← hnext]
      exact hrest.nul

-- ============================================================ the search

/-- The first NUL is here, or there is none here and it is the first one
further on. -/
theorem exists_terminated_succ_iff {count stop : Nat} :
    (∃ n < count + 1, stop = start + n ∧ data.Terminated start n)
      ↔ data[start]? = some 0 ∧ stop = start
        ∨ (∃ b, data[start]? = some b ∧ b ≠ 0)
          ∧ ∃ n < count, stop = start + 1 + n ∧ data.Terminated (start + 1) n := by
  constructor
  · intro h
    obtain ⟨n, hlt, rfl, hn⟩ := h
    cases n with
    | zero => exact .inl ⟨terminated_zero_iff.mp hn, rfl⟩
    | succ n =>
        obtain ⟨hfirst, hrest⟩ := terminated_succ_iff.mp hn
        exact .inr ⟨hfirst, n, Nat.lt_of_succ_lt_succ hlt, by omega, hrest⟩
  · intro h
    rcases h with ⟨hnul, rfl⟩ | ⟨hfirst, n, hlt, rfl, hrest⟩
    · exact ⟨0, Nat.succ_pos _, rfl, terminated_zero_iff.mpr hnul⟩
    · exact ⟨n + 1, Nat.succ_lt_succ hlt, by omega, terminated_succ_iff.mpr ⟨hfirst, hrest⟩⟩

/-- The search finds the first NUL, if it comes soon enough. -/
theorem nulFrom?_eq_some_iff {count stop : Nat} :
    nulFrom? data count start = some stop
      ↔ ∃ n < count, stop = start + n ∧ data.Terminated start n := by
  induction count generalizing start with
  | zero => simp [nulFrom?]
  | succ count ih =>
      rw [exists_terminated_succ_iff, ← ih, nulFrom?]
      split
      · next hlt =>
        have hbyte : data[start]? = some data[start] := Array.getElem?_eq_getElem hlt
        split
        · next hnul => simp [hbyte, hnul, eq_comm]
        · next hnul => simp [hbyte, hnul]
      · next hend =>
        have hbyte : data[start]? = none := Array.getElem?_eq_none (Nat.le_of_not_lt hend)
        simp [hbyte]

/-- The terminator is in the file. -/
theorem Terminated.lt_size (h : data.Terminated start length) : start + length < data.size :=
  (Array.getElem?_eq_some_iff.mp h.nul).1

/-- A string is read exactly if it is terminated within the limit. -/
theorem string?_eq_some_iff {limit : Nat} {s : String} :
    data.string? start limit = some s
      ↔ ∃ n ≤ limit, data.Terminated start n
        ∧ s = Utf8.decodeLossy (data.extract start (start + n)).toList := by
  unfold string?
  rw [Option.map_eq_some_iff]
  constructor
  · intro h
    obtain ⟨stop, hstop, rfl⟩ := h
    obtain ⟨n, hn, rfl, hterminated⟩ := nulFrom?_eq_some_iff.mp hstop
    exact ⟨n, by omega, hterminated, rfl⟩
  · intro h
    obtain ⟨n, hn, hterminated, rfl⟩ := h
    have hsize := hterminated.lt_size
    exact ⟨start + n, nulFrom?_eq_some_iff.mpr ⟨n, by omega, rfl, hterminated⟩, rfl⟩

-- ================================================== behind the terminator

/-- A string ends at the same place in all bytes that agree up to its
terminator. -/
theorem Terminated.of_agree (h : data.Terminated start length)
    (hagree : ∀ i ≤ length, other[start + i]? = data[start + i]?) :
    other.Terminated start length := by
  refine ⟨fun i hi => ?_, ?_⟩
  · rw [hagree i (Nat.le_of_lt hi)]
    exact h.text i hi
  · rw [hagree length (Nat.le_refl _)]
    exact h.nul

/-- Files that agree on a string and its terminator have the same
string. -/
theorem Terminated.extract_of_agree (h : data.Terminated start length)
    (hagree : ∀ i ≤ length, other[start + i]? = data[start + i]?) :
    other.extract start (start + length) = data.extract start (start + length) := by
  have hsize := h.lt_size
  have hsize' := (h.of_agree hagree).lt_size
  refine Array.ext_getElem? fun i => ?_
  rw [Array.getElem?_extract, Array.getElem?_extract]
  by_cases hi : i < length
  · rw [if_pos (by omega), if_pos (by omega), hagree i (Nat.le_of_lt hi)]
  · rw [if_neg (by omega), if_neg (by omega)]

/-- A string that is terminated is read alike under every limit that
reaches its terminator, and in all bytes that agree up to there. -/
theorem Terminated.string?_of_agree (h : data.Terminated start length)
    (hagree : ∀ i ≤ length, other[start + i]? = data[start + i]?) {limit : Nat}
    (hlimit : length ≤ limit) :
    other.string? start limit
      = some (Utf8.decodeLossy (data.extract start (start + length)).toList) := by
  rw [string?_eq_some_iff]
  refine ⟨length, hlimit, h.of_agree hagree, ?_⟩
  rw [h.extract_of_agree hagree]

/-- A string that is terminated in time is the same in a longer file and
under a larger limit. -/
theorem string?_append {extra : Bytes} {limit limit' : Nat} {s : String}
    (h : data.string? start limit = some s) (hlimit : limit ≤ limit') :
    (data ++ extra).string? start limit' = some s := by
  obtain ⟨n, hn, hterminated, rfl⟩ := string?_eq_some_iff.mp h
  have hsize := hterminated.lt_size
  refine hterminated.string?_of_agree (fun i hi => ?_) (Nat.le_trans hn hlimit)
  exact Array.getElem?_append_left (by omega)

-- ======================================================== whole account

/-- A read of a string is answered exactly if a NUL stands at most
`limit` bytes behind the start and in the file, and then with the text of
the bytes in front of the first one. The saturating sums of the bounded
read lose nothing of that, and no cut in it faults. An answer stays the
same under every limit that reaches the terminator, and whatever stands
behind it. -/
theorem reads_terminated (data : Bytes) (hsize : data.size < 2 ^ 64) (start limit : Nat) :
    Pe.Bounded.string? data start limit = pure (data.string? start limit)
    ∧ (∀ s, data.string? start limit = some s
        ↔ ∃ n ≤ limit, data.Terminated start n
          ∧ s = Utf8.decodeLossy (data.extract start (start + n)).toList)
    ∧ ∀ n ≤ limit, data.Terminated start n →
        ∀ limit' ≥ n, ∀ other : Bytes, (∀ i ≤ n, other[start + i]? = data[start + i]?) →
          other.string? start limit' = data.string? start limit := by
  refine ⟨Pe.Bounded.string?_eq hsize start limit, fun s => string?_eq_some_iff, ?_⟩
  intro n hn hterminated limit' hlimit other hagree
  rw [hterminated.string?_of_agree hagree hlimit,
    hterminated.string?_of_agree (fun _ _ => rfl) hn]

/-- A name whose second byte starts a character that its terminator
cuts short. -/
def cutName : Bytes := #[0x61, 0xC3, 0x00, 0x62]

/-- Read with the largest limit, so that the sum of start and limit is no
word. -/
theorem reads_terminated_lastWord :
    cutName.size < 2 ^ 64 ∧ cutName.Terminated 1 1
      ∧ Pe.Bounded.string? cutName 1 (2 ^ 64 - 1) = pure (some "\uFFFD") := by
  have hsize : cutName.size < 2 ^ 64 := by decide
  have hterminated : cutName.Terminated 1 1 := ⟨by decide, by decide⟩
  obtain ⟨hbounded, hread, -⟩ := reads_terminated cutName hsize 1 (2 ^ 64 - 1)
  refine ⟨hsize, hterminated, ?_⟩
  rw [hbounded, (hread "\uFFFD").mpr ⟨1, by decide, hterminated, by decide +kernel⟩]

end Dissect.Bytes

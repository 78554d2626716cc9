/-
Reads on a longer file, and in a part of one.

# More bytes

A word or a slice that is answered keeps its answer when bytes are put
behind the file, because all of its bytes were there.

# Parts

A word and a terminator may be looked for in a part of the file that was
cut out first (`numberAt_extract`, `nulFrom?_eq_findIdx?`).
-/
import Dissect.Bytes

namespace Dissect.Bytes

variable {data extra : Bytes}

/-- A part of the file is the same part of a longer one. -/
theorem extract_append_of_le {start stop : Nat} (h : stop ≤ data.size) :
    (data ++ extra).extract start stop = data.extract start stop := by
  rw [Array.extract_append, Nat.sub_eq_zero_of_le h,
    Array.extract_empty_of_stop_le_start (Nat.zero_le _), Array.append_empty]

/-- A slice that is there is there in a longer file. -/
theorem slice?_append {start count : Nat} {part : Bytes}
    (h : data.slice? start count = some part) :
    (data ++ extra).slice? start count = some part := by
  unfold slice? at h ⊢
  split at h
  · next hle =>
    have hle' : start + count ≤ (data ++ extra).size := by
      rw [Array.size_append]
      omega
    rw [if_pos hle', extract_append_of_le hle]
    exact h
  · cases h

/-- Bytes that are there spell the same number in a longer file. -/
theorem numberAt_append {start width : Nat} (h : start + width ≤ data.size) :
    numberAt (data ++ extra) start width = numberAt data start width := by
  induction width generalizing start with
  | zero => rfl
  | succ width ih =>
      have hbyte : (data ++ extra).getD start 0 = data.getD start 0 := by
        rw [Array.getD_eq_getD_getElem?, Array.getD_eq_getD_getElem?,
          Array.getElem?_append_left (by omega)]
      rw [numberAt, numberAt, hbyte, ih (by omega)]

/-- A word that is there is there in a longer file. -/
theorem word?_append {width start n : Nat} (h : data.word? width start = some n) :
    (data ++ extra).word? width start = some n := by
  unfold word? at h ⊢
  split at h
  · next hle =>
    have hle' : start + width ≤ (data ++ extra).size := by
      rw [Array.size_append]
      omega
    rw [if_pos hle', numberAt_append hle]
    exact h
  · cases h

theorem word16?_append {start : Nat} {w : UInt16} (h : data.word16? start = some w) :
    (data ++ extra).word16? start = some w := by
  obtain ⟨n, hn, rfl⟩ := Option.map_eq_some_iff.mp h
  exact Option.map_eq_some_iff.mpr ⟨n, word?_append hn, rfl⟩

theorem word32?_append {start : Nat} {w : UInt32} (h : data.word32? start = some w) :
    (data ++ extra).word32? start = some w := by
  obtain ⟨n, hn, rfl⟩ := Option.map_eq_some_iff.mp h
  exact Option.map_eq_some_iff.mpr ⟨n, word?_append hn, rfl⟩

theorem word64?_append {start : Nat} {w : UInt64} (h : data.word64? start = some w) :
    (data ++ extra).word64? start = some w := by
  obtain ⟨n, hn, rfl⟩ := Option.map_eq_some_iff.mp h
  exact Option.map_eq_some_iff.mpr ⟨n, word?_append hn, rfl⟩

-- ======================================================= parts of a file

/-- A slice has as many bytes as were asked for. -/
theorem size_of_slice? {start count : Nat} {part : Bytes}
    (h : data.slice? start count = some part) : part.size = count := by
  unfold slice? at h
  split at h
  · cases h
    rw [Array.size_extract]
    omega
  · cases h

/-- Bytes spell the same number in a part of the file as in the file. -/
theorem numberAt_extract {start stop place width : Nat} (h : start + place + width ≤ stop)
    (hstop : stop ≤ data.size) :
    numberAt (data.extract start stop) place width = numberAt data (start + place) width := by
  induction width generalizing place with
  | zero => rfl
  | succ width ih =>
      have hbyte : (data.extract start stop).getD place 0 = data.getD (start + place) 0 := by
        rw [Array.getD_eq_getD_getElem?, Array.getD_eq_getD_getElem?, Array.getElem?_extract,
          if_pos (by omega)]
      rw [numberAt, numberAt, hbyte, ih (by omega), Nat.add_assoc]

/-- A terminator is looked for in a part of the file. -/
theorem nulFrom?_eq_findIdx? {count start : Nat} (h : start + count ≤ data.size) :
    nulFrom? data count start
      = ((data.extract start (start + count)).toList.findIdx? (· = 0)).map (start + ·) := by
  induction count generalizing start with
  | zero => simp [nulFrom?]
  | succ count ih =>
      have hlt : start < data.size := by omega
      have hpart : (data.extract start (start + (count + 1))).toList
          = data[start] :: (data.extract (start + 1) (start + 1 + count)).toList := by
        simp only [Array.toList_extract, List.extract_eq_take_drop]
        rw [List.drop_eq_getElem_cons (by simpa using hlt),
          show start + (count + 1) - start = count + 1 by omega,
          show start + 1 + count - (start + 1) = count by omega]
        rfl
      rw [nulFrom?, dif_pos hlt, hpart, List.findIdx?_cons, ih (by omega)]
      by_cases hnul : data[start] = 0
      · simp [hnul]
      · simp [hnul, Function.comp_def, Nat.add_comm, Nat.add_left_comm]

end Dissect.Bytes

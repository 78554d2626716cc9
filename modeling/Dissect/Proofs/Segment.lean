/-
Segments and lists of them, in numbers.

A segment contains an address exactly when it lies between the numbers
of its ends, and the file offset behind it is a sum of numbers
(`Segment.contains_iff`, `Segment.fileOffset?_eq_some_iff`). An address
that a list resolves has a segment of the list around it, and one that
the list's index names (`exists_segmentIndex?`).
-/
import Dissect.Image

namespace Dissect

variable {segments : List Segment} {g : Segment} {a : Address} {o : UInt64}

theorem Segment.contains_iff :
    g.contains a = true ↔ g.start.toNat ≤ a.toNat ∧ a.toNat < g.stop.toNat := by
  unfold contains
  rw [Bool.and_eq_true, decide_eq_true_eq, decide_eq_true_eq, UInt64.le_iff_toNat_le,
    UInt64.lt_iff_toNat_lt]

/-- An offset is as far behind that of the segment as the address is
behind its start. -/
theorem Segment.fileOffset?_eq_some_iff :
    g.fileOffset? a = some o
      ↔ g.contains a = true ∧ o.toNat = g.offset.toNat + (a.toNat - g.start.toNat) := by
  unfold fileOffset?
  split
  · next h =>
    rw [sum?_eq_some_iff]
    simp [h]
  · next h => simp [h]

/-- A file offset comes from a segment that contains the address. -/
theorem exists_segment_of_fileOffset? (h : fileOffset? segments a = some o) :
    ∃ g ∈ segments, g.contains a := by
  obtain ⟨g, hmem, hg⟩ := List.exists_of_findSome?_eq_some h
  exact ⟨g, hmem, (Segment.fileOffset?_eq_some_iff.mp hg).1⟩

/-- An address with a file offset has an index, and the segment there
contains it. -/
theorem exists_segmentIndex? (h : fileOffset? segments a = some o) :
    ∃ k g, segmentIndex? segments a = some k ∧ segments[k]? = some g
      ∧ g.contains a = true := by
  obtain ⟨g, hmem, hg⟩ := exists_segment_of_fileOffset? h
  cases hindex : segmentIndex? segments a with
  | none =>
      have hout := List.findIdx?_eq_none_iff.mp hindex g hmem
      rw [hg] at hout
      cases hout
  | some k =>
      obtain ⟨hk, hcontains, -⟩ := List.findIdx?_eq_some_iff_getElem.mp hindex
      exact ⟨k, segments[k], rfl, List.getElem?_eq_getElem hk, hcontains⟩

/-- An image resolves an address when its segments do. -/
theorem Image.offset_eq_ok_iff {image : Image} :
    image.offset a = .ok o ↔ fileOffset? image.segments a = some o := by
  unfold offset
  cases fileOffset? image.segments a with
  | none => simp
  | some o' => simp

end Dissect

/-
What reads through a view rest on.

# Mapped addresses

An address that a walk is given is the image base plus a relative
address, and some segment resolves it (`mappedAddress_eq_ok_iff`).

# Reach

Sections have 32-bit addresses and sizes, so every segment of an image
ends within `reach` of the image base (`near_segmentsOf`). A relative
address that can be read is therefore small (`offset_lt_reach`), however
far a walk has gone to get to it: this is the only bound that loops over
tables of unknown length have.
-/
import Dissect.Pe.View
import Dissect.Proofs.Segment
import Dissect.Proofs.Walk
import Mathlib.Algebra.Group.Nat.Defs

namespace Dissect.Pe

-- ============================================================== segments

/-- How far the segments of an image can extend from its base. -/
def reach : Nat := 2 ^ 33

/-- The segment of a section ends within reach. -/
theorem stop_lt_of_toSegment? {s : Section} {base : Address} {segment : Segment}
    (h : s.toSegment? base = some segment) :
    segment.stop.toNat < base.toNat + reach := by
  unfold Section.toSegment? at h
  obtain ⟨start, hstart, h⟩ := Option.bind_eq_some_iff.mp h
  unfold Segment.ofSize? at h
  split at h
  · next stop hstop =>
    split at h
    · cases h
      have hstart' := sum?_eq_some_iff.mp hstart
      have hstop' := sum?_eq_some_iff.mp hstop
      have hrva := s.rva.toNat_lt
      have hsize := s.mappedSize.toNat_lt
      show stop.toNat < _
      unfold reach
      omega
    · cases h
  · cases h

namespace View

/-- All segments of the view end within reach of its base. -/
def Near (v : View) : Prop := ∀ s ∈ v.segments, s.stop.toNat < v.base.toNat + reach

/-- The view of a section table is near, whatever the table says. -/
theorem near_segmentsOf (data : Bytes) (sections : List Section) (base : Address) :
    (⟨data, segmentsOf sections base, base⟩ : View).Near := by
  intro segment hmem
  obtain ⟨s, -, hs⟩ := List.mem_filterMap.mp hmem
  exact stop_lt_of_toSegment? hs

-- ============================================================ resolution

theorem address_eq_ok_iff {v : View} {rva : Nat} {a : Address} :
    v.address rva = .ok a ↔ sum? v.base rva = some a := by
  unfold address
  cases sum? v.base rva with
  | none => simp
  | some b => simp

/-- A mapped address is the base plus the relative address, and a segment
resolves it. -/
theorem mappedAddress_eq_ok_iff {v : View} {rva : Nat} {a : Address} :
    v.mappedAddress rva = .ok a
      ↔ sum? v.base rva = some a ∧ ∃ o, fileOffset? v.segments a = some o := by
  unfold mappedAddress
  rw [except_bind_eq_ok_iff]
  constructor
  · rintro ⟨b, hb, h⟩
    split at h
    · next o ho =>
      cases h
      exact ⟨address_eq_ok_iff.mp hb, o, ho⟩
    · cases h
  · rintro ⟨hsum, o, ho⟩
    refine ⟨a, address_eq_ok_iff.mpr hsum, ?_⟩
    rw [show v.offset? a = some o from ho]
    rfl

/-- A symbol of a kind, at an address that the view maps. -/
def Places (v : View) (k : SymbolKind) (s : Symbol) : Prop :=
  s.kind = k ∧ ∃ rva, v.mappedAddress rva = .ok s.address

/-- A file offset is found where a segment resolves the base plus the
relative address. -/
theorem offset_eq_ok_iff {v : View} {rva n : Nat} :
    v.offset rva = .ok n
      ↔ ∃ a o, sum? v.base rva = some a ∧ fileOffset? v.segments a = some o ∧ o.toNat = n := by
  unfold offset
  rw [except_bind_eq_ok_iff]
  constructor
  · rintro ⟨a, ha, h⟩
    split at h
    · next o ho =>
      cases h
      exact ⟨a, o, address_eq_ok_iff.mp ha, ho, rfl⟩
    · cases h
  · rintro ⟨a, o, hsum, ho, rfl⟩
    refine ⟨a, address_eq_ok_iff.mpr hsum, ?_⟩
    rw [show v.offset? a = some o from ho]
    rfl

/-- What is behind a segment of a near view is behind a small relative
address. -/
theorem offset_lt_reach {v : View} (hnear : v.Near) {rva n : Nat}
    (h : v.offset rva = .ok n) : rva < reach := by
  obtain ⟨a, o, hsum, ho, -⟩ := offset_eq_ok_iff.mp h
  obtain ⟨s, hmem, hcontains⟩ := exists_segment_of_fileOffset? ho
  have hstop := hnear s hmem
  have haddress := sum?_eq_some_iff.mp hsum
  obtain ⟨-, hlt⟩ := Segment.contains_iff.mp hcontains
  omega

/-- A read answers what the file has at the offset. -/
theorem readAt_eq_ok_iff {α : Type} {v : View} {read? : Nat → Option α} {rva : Nat} {a : α} :
    v.readAt read? rva = .ok a ↔ ∃ n, v.offset rva = .ok n ∧ read? n = some a := by
  unfold readAt
  rw [except_bind_eq_ok_iff]
  refine exists_congr fun n => and_congr_right fun _ => ?_
  cases read? n with
  | none => simp [throw, throwThe, MonadExceptOf.throw]
  | some b => simp [pure, Except.pure]

/-- A string is what the file has at the offset. -/
theorem string_eq_ok_iff {v : View} {rva limit : Nat} {s : String} :
    v.string rva limit = .ok s
      ↔ ∃ n, v.offset rva = .ok n ∧ v.data.string? n limit = some s := by
  unfold string
  rw [except_bind_eq_ok_iff]
  refine exists_congr fun n => and_congr_right fun _ => ?_
  cases v.data.string? n limit with
  | none => simp [throw, throwThe, MonadExceptOf.throw]
  | some b => simp [pure, Except.pure]

end View

end Dissect.Pe

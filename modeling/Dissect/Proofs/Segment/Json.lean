/-
That segments survive being written and read.

# Ranges

A segment of some size ends that many addresses behind its start, and
there is one unless the size is zero or the end is no address
(`Segment.ofSize?_eq_some_iff`). From the fields of a record the size is
the distance from the start to the end, nothing if the end does not come
after the start, so that the segment has exactly the fields of the
record or there is none (`Segment.ofFields_eq`).

# Records

The five fields are found under their names, each as it was written
(`Segment.Fields.ofJson?_toJson`), and the whole text is read as the
record it was written for. Reading accepts nothing else: what it makes a
segment of is the text of a record with the segment's fields
(`Segment.parse_eq_ok_iff`).
-/
import Dissect.Proofs.Json.RoundTrip
import Dissect.Proofs.Segment.Flags
import Dissect.Segment.Json

namespace Dissect

-- ================================================================ values

@[simp] theorem SegmentFlags.ofJson?_toJson (f : SegmentFlags) : ofJson? f.toJson = some f := by
  unfold ofJson? toJson
  rw [Json.string?_ofText, Option.bind_some, ofText?_text]

namespace Segment

variable {s : Segment} {f : Fields}

-- ================================================================ ranges

/-- A segment is its fields. -/
theorem fields_inj {t : Segment} (h : s.fields = t.fields) : s = t := by
  cases s
  cases t
  cases h
  rfl

/-- A segment of some size ends that many addresses behind its start. -/
theorem ofSize?_eq_some_iff {name : String} {offset : UInt64} {start : Address} {size : Nat}
    {flags : SegmentFlags} :
    ofSize? name offset start size flags = some s
      ↔ 0 < size ∧ s.stop.toNat = start.toNat + size
        ∧ s.fields = ⟨name, offset, start, s.stop, flags⟩ := by
  unfold ofSize?
  constructor
  · intro h
    split at h
    · next stop hstop =>
      have hsum := sum?_eq_some_iff.mp hstop
      split at h
      · next hrange =>
        cases h
        rw [UInt64.lt_iff_toNat_lt] at hrange
        exact ⟨by omega, hsum, rfl⟩
      · cases h
    · cases h
  · intro h
    obtain ⟨hpos, hstop, hfields⟩ := h
    have hrange : start < s.stop := by
      rw [UInt64.lt_iff_toNat_lt]
      omega
    rw [sum?_eq_some_iff.mpr hstop]
    dsimp only
    rw [dif_pos hrange]
    exact congrArg some (fields_inj hfields.symm)

/-- The size is the distance from the start to the end, and not zero. -/
theorem size_toNat (s : Segment) :
    s.size.toNat = s.stop.toNat - s.start.toNat ∧ 1 ≤ s.size.toNat := by
  have hrange := s.nonempty
  have hsize : s.size.toNat = s.stop.toNat - s.start.toNat :=
    UInt64.toNat_sub_of_le _ _ (UInt64.le_of_lt hrange)
  rw [UInt64.lt_iff_toNat_lt] at hrange
  omega

/-- The fields of a segment make it again. -/
theorem ofFields_fields (s : Segment) : ofFields s.fields = .ok s := by
  have hrange := s.nonempty
  rw [UInt64.lt_iff_toNat_lt] at hrange
  have hsome : ofSize? s.fields.name s.fields.offset s.fields.start
      (s.fields.stop.toNat - s.fields.start.toNat) s.fields.flags = some s :=
    ofSize?_eq_some_iff.mpr ⟨Nat.sub_pos_of_lt hrange, (Nat.add_sub_of_le hrange.le).symm, rfl⟩
  unfold ofFields
  rw [hsome]

/-- A record is a segment with its fields unless its range is empty. -/
theorem ofFields_eq (f : Fields) :
    ofFields f
      = if h : f.start < f.stop then .ok ⟨f.name, f.offset, f.start, f.stop, f.flags, h⟩
        else .error (.emptyRange f.start f.stop) := by
  split
  · next hrange => exact ofFields_fields ⟨f.name, f.offset, f.start, f.stop, f.flags, hrange⟩
  · next hrange =>
    have hnone : ofSize? f.name f.offset f.start (f.stop.toNat - f.start.toNat) f.flags = none := by
      apply Option.eq_none_iff_forall_ne_some.mpr
      intro s hs
      obtain ⟨hpos, -, -⟩ := ofSize?_eq_some_iff.mp hs
      rw [UInt64.lt_iff_toNat_lt] at hrange
      omega
    unfold ofFields
    rw [hnone]

/-- No other fields than its own make a segment. -/
theorem ofFields_eq_ok_iff : ofFields f = .ok s ↔ f = s.fields := by
  constructor
  · intro h
    rw [ofFields_eq] at h
    split at h
    · cases h
      rfl
    · cases h
  · intro h
    rw [h, ofFields_fields]

-- =============================================================== records

theorem Fields.written_toJson (f : Fields) : f.toJson.Written := by
  apply Json.Written.object
  intro m hm
  simp only [List.mem_cons, List.not_mem_nil, or_false] at hm
  rcases hm with rfl | rfl | rfl | rfl | rfl
  · exact .text f.name
  · exact .word f.offset.toNat_lt_size
  · exact .word f.start.toNat_lt_size
  · exact .word f.stop.toNat_lt_size
  · exact .text f.flags.text

/-- Fields are found in their record. -/
theorem Fields.ofJson?_toJson (f : Fields) : Fields.ofJson? f.toJson = some f := by
  have hnodup : ["name", "offset", "address", "end_address", "flags"].Nodup := by decide
  have hrecord : Json.record? fieldNames f.toJson
      = some [some (.ofText f.name), some (.ofNat f.offset.toNat), some (.ofNat f.start.toNat),
          some (.ofNat f.stop.toNat), some f.flags.toJson] :=
    Json.record?_ofMembers (by exact hnodup) fieldNames
  unfold Fields.ofJson?
  rw [hrecord]
  simp

/-- Whatever the layout of its record, fields with a range are read as a
segment with these fields. -/
theorem parse_of_spells {cs : List Char} (h : Json.Spells cs f.toJson) :
    parse (String.ofList cs) = ofFields f := by
  unfold parse
  rw [h.first?]
  dsimp only
  rw [Fields.ofJson?_toJson]
  dsimp only
  cases ofFields f with
  | error e => rfl
  | ok s => rfl

/-- The compact text of a record is accepted or refused as the record
is. -/
theorem parse_compact (f : Fields) : parse f.toJson.compact = ofFields f :=
  parse_of_spells f.written_toJson.spells_compact

theorem parse_indented (f : Fields) : parse f.toJson.indented = ofFields f :=
  parse_of_spells (f.written_toJson.spells_indented 0)

/-- Reading makes a segment of the text of a record with its fields, and
of nothing else. -/
theorem parse_eq_ok_iff {text : String} :
    parse text = .ok s ↔ (Json.parse? text).bind Fields.ofJson? = some s.fields := by
  rw [Option.bind_eq_some_iff]
  constructor
  · intro h
    unfold parse at h
    split at h
    · cases h
    · next j rest hfirst =>
      split at h
      · cases h
      · next f hfields =>
        split at h
        · cases h
        · next t hof =>
          split at h
          · next hend =>
            cases h
            refine ⟨j, Json.parse?_eq_some_iff.mpr ⟨rest, hfirst, hend⟩, ?_⟩
            rw [hfields, ofFields_eq_ok_iff.mp hof]
          · cases h
  · intro h
    obtain ⟨j, hparse, hfields⟩ := h
    obtain ⟨rest, hfirst, hend⟩ := Json.parse?_eq_some_iff.mp hparse
    unfold parse
    simp only [hfirst, hfields, ofFields_fields, hend, if_true]

-- ======================================================= the round trip

/-- Segments keep their range through writing and reading. They are made
of a size that is not zero and does not lead beyond the last address, and
have that size. They are read back from the compact and from the
indented text of their record. The text of a record with any five fields
is read as the segment with these fields, or refused if its range is
empty, and a segment is read of no text but that of its fields. -/
theorem survives_json :
    (∀ (name : String) (offset : UInt64) (start : Address) (size : Nat) (flags : SegmentFlags)
        (s : Segment), ofSize? name offset start size flags = some s
          ↔ 0 < size ∧ s.stop.toNat = start.toNat + size
            ∧ s.fields = ⟨name, offset, start, s.stop, flags⟩)
      ∧ (∀ s : Segment, s.start < s.stop
          ∧ s.size.toNat = s.stop.toNat - s.start.toNat ∧ 1 ≤ s.size.toNat)
      ∧ (∀ s : Segment, parse s.toJson.compact = .ok s ∧ parse s.toJson.indented = .ok s)
      ∧ (∀ f : Fields, parse f.toJson.compact
          = if h : f.start < f.stop then .ok ⟨f.name, f.offset, f.start, f.stop, f.flags, h⟩
            else .error (.emptyRange f.start f.stop))
      ∧ (∀ (text : String) (s : Segment),
          parse text = .ok s ↔ (Json.parse? text).bind Fields.ofJson? = some s.fields)
      ∧ ∀ f : Fields, ∃ text, f.flags.TextForm text
          ∧ f.toJson = Json.ofMembers
            [ ("name", .ofText f.name), ("offset", .ofNat f.offset.toNat),
              ("address", .ofNat f.start.toNat), ("end_address", .ofNat f.stop.toNat),
              ("flags", .ofText text) ] := by
  refine ⟨?_, ?_, ?_, ?_, ?_, ?_⟩
  · intro name offset start size flags s
    exact ofSize?_eq_some_iff
  · intro s
    exact ⟨s.nonempty, s.size_toNat⟩
  · intro s
    exact ⟨(parse_compact s.fields).trans s.ofFields_fields,
      (parse_indented s.fields).trans s.ofFields_fields⟩
  · intro f
    rw [parse_compact, ofFields_eq]
  · intro text s
    exact parse_eq_ok_iff
  · intro f
    exact ⟨f.flags.text, f.flags.textForm_text, rfl⟩

end Segment

end Dissect

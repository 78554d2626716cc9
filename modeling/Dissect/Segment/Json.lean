/-
Segments as JSON records.

A segment is written with its name, file offset, first address, end and
flags. Reading goes back through the constructor, so that a record with
an empty range is refused with a message of its own, before anything
after the record is looked at.
-/
import Dissect.Json.Parser
import Dissect.Json.Printer
import Dissect.Json.Record
import Dissect.Segment.Basic

namespace Dissect

namespace SegmentFlags

/-- Flags are a JSON string of their text form. -/
def toJson (f : SegmentFlags) : Json := Json.ofText f.text

/-- Flags from a JSON string. -/
def ofJson? (j : Json) : Option SegmentFlags := j.string?.bind ofText?

/-- Flags from JSON text. -/
def parse? (text : String) : Option SegmentFlags := (Json.parse? text).bind ofJson?

end SegmentFlags

/-- Why a segment could not be read. -/
inductive Segment.ReadError where
  /-- The text is no segment record. -/
  | malformed
  /-- The record's range holds no address. -/
  | emptyRange (start stop : Address)
  deriving DecidableEq

/-- The message of a refusal that has one. -/
def Segment.ReadError.message? : Segment.ReadError → Option String
  | .malformed => none
  | .emptyRange start stop =>
    some ("segment range [" ++ Numeral.hex start.toNat ++ ", "
      ++ Numeral.hex stop.toNat ++ ") is empty")

namespace Segment

/-- The field names of a segment record. -/
def fieldNames : List String := ["name", "offset", "address", "end_address", "flags"]

/-- The fields of a segment record, its range not yet checked. -/
structure Fields where
  name : String
  offset : UInt64
  start : Address
  stop : Address
  flags : SegmentFlags
  deriving DecidableEq

/-- The fields of a segment. -/
def fields (s : Segment) : Fields := ⟨s.name, s.offset, s.start, s.stop, s.flags⟩

/-- The record of fields. -/
def Fields.toJson (f : Fields) : Json :=
  Json.ofMembers
    [ ("name", Json.ofText f.name),
      ("offset", Json.ofNat f.offset.toNat),
      ("address", Json.ofNat f.start.toNat),
      ("end_address", Json.ofNat f.stop.toNat),
      ("flags", f.flags.toJson) ]

/-- A segment record. -/
def toJson (s : Segment) : Json := s.fields.toJson

/-- The fields of a JSON record. -/
def Fields.ofJson? (j : Json) : Option Fields := do
  match ← j.record? fieldNames with
  | [some name, some offset, some start, some stop, some flags] =>
    some
      { name := ← name.string?
        offset := ← offset.word64?
        start := ← start.word64?
        stop := ← stop.word64?
        flags := ← SegmentFlags.ofJson? flags }
  | _ => none

/-- The segment with the given fields: its size is the distance from the
first address to the end, none if the end comes first. -/
def ofFields (f : Fields) : Except ReadError Segment :=
  match ofSize? f.name f.offset f.start (f.stop.toNat - f.start.toNat) f.flags with
  | some s => .ok s
  | none => .error (.emptyRange f.start f.stop)

/-- A segment from JSON text. The record comes first, its range second,
and what follows it last. -/
def parse (text : String) : Except ReadError Segment :=
  match Json.first? text with
  | none => .error .malformed
  | some (j, rest) =>
    match Fields.ofJson? j with
    | none => .error .malformed
    | some fields =>
      match ofFields fields with
      | .error e => .error e
      | .ok s => if Json.atEnd rest then .ok s else .error .malformed

end Segment

end Dissect

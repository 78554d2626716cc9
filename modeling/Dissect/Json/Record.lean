/-
Reading typed records out of JSON values.

# Records

A record with named fields is an object whose keys are the field names,
in any order, or an array of the field values in order. In an object,
unknown keys are passed over, a field given twice is refused, and every
key must say something. In an array, there may be no more elements than
fields. `record?` answers with what was given for each field, so that
the caller decides what a missing field means.

# Numbers

A word of some width is a natural number below its bound, written in
digits alone: nothing is converted from text, from a fraction or from an
exponent.
-/
import Dissect.Json.Basic

namespace Dissect.Json

/-- A truth value. -/
def bool? : Json → Option Bool
  | .bool b => some b
  | _ => none

/-- A natural number below `bound`. -/
def below? (bound : Nat) : Json → Option Nat
  | .number (.natural n) => if n < bound then some n else none
  | _ => none

/-- A 64-bit word. -/
def word64? (j : Json) : Option UInt64 := (below? UInt64.size j).map UInt64.ofNat

/-- What a string says. -/
def string? : Json → Option String
  | .string body => text? body
  | _ => none

/-- The values given for the field `name`, among decoded members. -/
def given (name : String) (members : List (String × Json)) : List Json :=
  members.filterMap fun m => if m.1 = name then some m.2 else none

/-- At most one value. -/
def single? : List Json → Option (Option Json)
  | [] => some none
  | [v] => some (some v)
  | _ => none

/-- The members of an object with their keys decoded. -/
def decodeKeys? (members : List (List Char × Json)) : Option (List (String × Json)) :=
  members.mapM fun m => (text? m.1).map fun key => (key, m.2)

/-- The value given for each of the named fields, in their order. -/
def record? (names : List String) : Json → Option (List (Option Json))
  | .object members => do
    let members ← decodeKeys? members
    names.mapM fun name => single? (given name members)
  | .array elements =>
    if elements.length ≤ names.length then
      some (elements.map some ++ List.replicate (names.length - elements.length) none)
    else none
  | _ => none

/-- The members of an object that maps texts to values, in order. -/
def textMembers? : Json → Option (List (String × Json))
  | .object members => decodeKeys? members
  | _ => none

/-- The members of an object that maps numbers below `bound` to values,
in order. A key is a canonical decimal numeral, spelled without
escapes. -/
def numberMembers? (bound : Nat) : Json → Option (List (Nat × Json))
  | .object members =>
    members.mapM fun m =>
      (Numeral.ofCanonicalDecimal? bound m.1).map fun n => (n, m.2)
  | _ => none

end Dissect.Json

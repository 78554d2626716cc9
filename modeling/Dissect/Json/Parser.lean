/-
Reading JSON text, strictly: no trailing commas, no comments, no leading
zeros, no byte order mark, and only blanks after the value.

# Arrays and objects that are open

Values nest to any depth, so what is open around the place that is being
read is data: a list of frames, the innermost first, each with what it
holds so far. A value that is complete goes into the innermost frame,
and a bracket that closes makes a frame into a value.

# What follows a value

`Json.first?` reads one value and leaves the tokens behind it, which is
what a reader needs that must look at the value before it looks at what
follows. `Json.parse?` reads a whole text.
-/
import Dissect.Json.Token

namespace Dissect.Json

/-- An array or object that is open, with its parts so far, the last of
which comes first. -/
inductive Frame where
  | array (done : List Json)
  /-- The value of the key comes next. -/
  | object (done : List (List Char × Json)) (key : List Char)

/-- Read on inside the frames. There is a value that is complete, or the
next tokens must start one. -/
def assemble : List Frame → Option Json → List Token → Option (Json × List Token)
  | [], some v, rest => some (v, rest)
  | .array done :: stack, some v, .comma :: rest =>
    assemble (.array (v :: done) :: stack) none rest
  | .array done :: stack, some v, .closeArray :: rest =>
    assemble stack (some (.array (v :: done).reverse)) rest
  | .object done key :: stack, some v, .comma :: .atom (.string next) :: .colon :: rest =>
    assemble (.object ((key, v) :: done) next :: stack) none rest
  | .object done key :: stack, some v, .closeObject :: rest =>
    assemble stack (some (.object ((key, v) :: done).reverse)) rest
  | stack, none, .atom v :: rest => assemble stack (some v) rest
  | stack, none, .openArray :: .closeArray :: rest => assemble stack (some (.array [])) rest
  | stack, none, .openArray :: rest => assemble (.array [] :: stack) none rest
  | stack, none, .openObject :: .closeObject :: rest =>
    assemble stack (some (.object [])) rest
  | stack, none, .openObject :: .atom (.string key) :: .colon :: rest =>
    assemble (.object [] key :: stack) none rest
  | _, _, _ => none

/-- The first value of a text and the tokens that follow it. -/
def first? (text : String) : Option (Json × List Token) := assemble [] none (tokens text)

/-- Only blanks are left. -/
def atEnd (rest : List Token) : Bool := rest.isEmpty

/-- The value of a whole text. -/
def parse? (text : String) : Option Json :=
  match first? text with
  | some (v, rest) => if atEnd rest then some v else none
  | none => none

end Dissect.Json

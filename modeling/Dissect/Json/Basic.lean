/-
JSON values, kept as close to their text as their readers need.

# Strings keep their spelling

A string is stored as the characters between its quotes, escapes
unresolved. What a string says and how it is spelled are two things: a
value that is skipped only has to be spelled well, while a value that
is used must also say something, and an escaped lone surrogate says
nothing. `text?` resolves the escapes and fails exactly there.

# Numbers keep their kind

A number is either a 64-bit word in its canonical spelling, the only
numbers the library's records hold, or some other numeral, kept as
written.
-/
import Dissect.Text.Numeral

namespace Dissect

/-- A JSON number. -/
inductive Json.Number where
  /-- Digits alone that spell a word: no sign, no fraction, no
  exponent. -/
  | natural (n : Nat)
  /-- Any other numeral, as written. -/
  | other (spelling : List Char)
  deriving DecidableEq, Repr

/-- A JSON value. Strings and keys are the characters between their
quotes. -/
inductive Json where
  | null
  | bool (b : Bool)
  | number (n : Json.Number)
  | string (body : List Char)
  | array (elements : List Json)
  | object (members : List (List Char × Json))
  deriving Repr

namespace Json

-- ==================================================== strings: meaning

/-- What a one-letter escape stands for. -/
def escaped? : Char → Option Char
  | '"' => some '"'
  | '\\' => some '\\'
  | '/' => some '/'
  | 'b' => some '\x08'
  | 'f' => some '\x0c'
  | 'n' => some '\n'
  | 'r' => some '\r'
  | 't' => some '\t'
  | _ => none

/-- The UTF-16 unit that four hexadecimal digits spell. -/
def unitOf (a b c d : Char) : Nat := (Numeral.ofHex? UInt16.size [a, b, c, d]).getD 0

/-- A unit that opens a surrogate pair. -/
def isHighSurrogate (u : Nat) : Bool := 0xD800 ≤ u && u ≤ 0xDBFF

/-- A unit that closes a surrogate pair. -/
def isLowSurrogate (u : Nat) : Bool := 0xDC00 ≤ u && u ≤ 0xDFFF

/-- The code point of a surrogate pair. -/
def joinSurrogates (high low : Nat) : Char :=
  Char.ofNat (0x10000 + (high - 0xD800) * 0x400 + (low - 0xDC00))

/-- The characters that a well-spelled string body adds to those before
it, the last of which comes first; none if a surrogate stands alone. -/
def resolve? (done : List Char) : List Char → Option (List Char)
  | [] => some done.reverse
  | '\\' :: 'u' :: a :: b :: c :: d :: rest =>
    let u := unitOf a b c d
    if isHighSurrogate u then
      match rest with
      | '\\' :: 'u' :: e :: f :: g :: h :: rest =>
        let v := unitOf e f g h
        if isLowSurrogate v then resolve? (joinSurrogates u v :: done) rest else none
      | _ => none
    else if isLowSurrogate u then none
    else resolve? (Char.ofNat u :: done) rest
  | '\\' :: e :: rest => resolve? ((escaped? e).getD e :: done) rest
  | c :: rest => resolve? (c :: done) rest

/-- What a string body says. -/
def text? (body : List Char) : Option String := (resolve? [] body).map String.ofList

-- =================================================== strings: spelling

/-- The two lower-case hexadecimal digits of a control character. -/
def controlDigits (n : Nat) : List Char :=
  [Nat.digitChar (n / 16), Nat.digitChar (n % 16)]

/-- How a character is spelled inside a string: quotes and backslashes
behind a backslash, control characters by their short escape or as
`\u00xx`, and everything else as itself. -/
def spell (c : Char) : List Char :=
  match c with
  | '"' => ['\\', '"']
  | '\\' => ['\\', '\\']
  | '\x08' => ['\\', 'b']
  | '\x0c' => ['\\', 'f']
  | '\n' => ['\\', 'n']
  | '\r' => ['\\', 'r']
  | '\t' => ['\\', 't']
  | c =>
    if c.toNat < 0x20 then '\\' :: 'u' :: '0' :: '0' :: controlDigits c.toNat
    else [c]

/-- The body that spells a text. -/
def bodyOf (s : String) : List Char := s.toList.flatMap spell

/-- A text as a JSON string. -/
def ofText (s : String) : Json := .string (bodyOf s)

/-- A natural number as a JSON number. -/
def ofNat (n : Nat) : Json := .number (.natural n)

/-- An object from its members in order. -/
def ofMembers (members : List (String × Json)) : Json :=
  .object (members.map fun m => (bodyOf m.1, m.2))

end Json

end Dissect

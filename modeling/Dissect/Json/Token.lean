/-
The tokens of JSON text.

A token is a bracket, a brace, a comma, a colon, or a value without
parts: a literal, a number, a string. Blanks between tokens are passed
over. Characters that are no token end the reading: the last token then
says so, and what came before it stands.
-/
import Dissect.Json.Basic

namespace Dissect.Json

/-- A token. -/
inductive Token where
  | openArray
  | closeArray
  | openObject
  | closeObject
  | comma
  | colon
  /-- A value without parts. -/
  | atom (value : Json)
  /-- What follows is no token. -/
  | malformed
  deriving Repr

-- ============================================================ characters

/-- The blanks of JSON. -/
def isBlank (c : Char) : Bool := c == ' ' || c == '\n' || c == '\t' || c == '\r'

/-- Skip blanks. -/
def skipBlanks (cs : List Char) : List Char := cs.dropWhile isBlank

/-- A decimal digit. -/
def isDigit (c : Char) : Bool := '0' ≤ c && c ≤ '9'

/-- A hexadecimal digit. -/
def isHexDigit (c : Char) : Bool := (Numeral.hexDigit? c).isSome

/-- The body of a string behind the characters of it that were read, the
last of which comes first, and what follows its closing quote. Control
characters and ill-spelled escapes are refused. -/
def stringBody (done : List Char) : List Char → Option (List Char × List Char)
  | [] => none
  | '"' :: rest => some (done.reverse, rest)
  | '\\' :: 'u' :: a :: b :: c :: d :: rest =>
    if isHexDigit a && isHexDigit b && isHexDigit c && isHexDigit d then
      stringBody (d :: c :: b :: a :: 'u' :: '\\' :: done) rest
    else none
  | '\\' :: e :: rest =>
    if (escaped? e).isSome then stringBody (e :: '\\' :: done) rest else none
  | c :: rest => if c.toNat < 0x20 then none else stringBody (c :: done) rest

/-- The digits at the front and what follows them. -/
def digits (cs : List Char) : List Char × List Char :=
  (cs.takeWhile isDigit, cs.dropWhile isDigit)

/-- The integer part of a numeral: one zero, or digits that do not start
with one. -/
def integerPart (cs : List Char) : Option (List Char × List Char) :=
  match digits cs with
  | ([], _) => none
  | ('0' :: _ :: _, _) => none
  | found => some found

/-- An optional fraction: a point and at least one digit. -/
def fractionPart (cs : List Char) : Option (List Char × List Char) :=
  match cs with
  | '.' :: rest =>
    match digits rest with
    | ([], _) => none
    | (found, after) => some ('.' :: found, after)
  | _ => some ([], cs)

/-- The sign of an exponent. -/
def exponentSign (cs : List Char) : List Char × List Char :=
  match cs with
  | '+' :: rest => (['+'], rest)
  | '-' :: rest => (['-'], rest)
  | _ => ([], cs)

/-- An optional exponent: `e` or `E`, a sign or none, at least one
digit. -/
def exponentPart (cs : List Char) : Option (List Char × List Char) :=
  match cs with
  | e :: rest =>
    if e = 'e' ∨ e = 'E' then
      let (sign, rest) := exponentSign rest
      match digits rest with
      | ([], _) => none
      | (found, after) => some (e :: sign ++ found, after)
    else some ([], cs)
  | [] => some ([], cs)

/-- A numeral without its sign: integer part, fraction, exponent. -/
def unsignedNumeral (cs : List Char) :
    Option ((List Char × List Char × List Char) × List Char) := do
  let (integer, cs) ← integerPart cs
  let (fraction, cs) ← fractionPart cs
  let (exponent, cs) ← exponentPart cs
  some ((integer, fraction, exponent), cs)

/-- The number of a numeral of digits alone. -/
def naturalOf (integer : List Char) : Number :=
  match Numeral.ofDecimal? UInt64.size integer with
  | some n => .natural n
  | none => .other integer

/-- A number and what follows it. -/
def numeral (cs : List Char) : Option (Number × List Char) :=
  match cs with
  | '-' :: rest =>
    (unsignedNumeral rest).map fun ((i, f, e), after) =>
      (.other ('-' :: i ++ f ++ e), after)
  | _ =>
    (unsignedNumeral cs).map fun ((i, f, e), after) =>
      match f, e with
      | [], [] => (naturalOf i, after)
      | f, e => (.other (i ++ f ++ e), after)

-- =============================================================== tokens

/-- The token at the front, where there is no blank, and what follows
it. -/
def token? (cs : List Char) : Option (Token × List Char) :=
  match cs with
  | '[' :: rest => some (.openArray, rest)
  | ']' :: rest => some (.closeArray, rest)
  | '{' :: rest => some (.openObject, rest)
  | '}' :: rest => some (.closeObject, rest)
  | ',' :: rest => some (.comma, rest)
  | ':' :: rest => some (.colon, rest)
  | 'n' :: 'u' :: 'l' :: 'l' :: rest => some (.atom .null, rest)
  | 't' :: 'r' :: 'u' :: 'e' :: rest => some (.atom (.bool true), rest)
  | 'f' :: 'a' :: 'l' :: 's' :: 'e' :: rest => some (.atom (.bool false), rest)
  | '"' :: rest =>
    (stringBody [] rest).map fun (body, after) => (.atom (.string body), after)
  | cs => (numeral cs).map fun (n, after) => (.atom (.number n), after)

/-- The tokens of the characters behind those read so far, the last of
which comes first. A token takes at least one character, so as much fuel
as there are characters is never used up. -/
def tokensFrom : Nat → List Token → List Char → List Token
  | 0, done, _ => done.reverse
  | fuel + 1, done, cs =>
    match skipBlanks cs with
    | [] => done.reverse
    | c :: rest =>
      match token? (c :: rest) with
      | some (t, rest) => tokensFrom fuel (t :: done) rest
      | none => (.malformed :: done).reverse

/-- The tokens of a text. -/
def tokens (text : String) : List Token :=
  let cs := text.toList
  tokensFrom (cs.length + 1) [] cs

end Dissect.Json

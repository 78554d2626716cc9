/-
Writing JSON text, compactly and indented.

Compact text has no blanks at all. Indented text puts every element and
every member on a line of its own, two blanks deeper than the value it
belongs to, with one blank after a colon; an empty array or object
stays closed on its line.
-/
import Dissect.Json.Basic

namespace Dissect.Json

/-- Join texts with a separator between them. -/
def joinWith (separator : List Char) : List (List Char) → List Char
  | [] => []
  | [t] => t
  | t :: ts => t ++ separator ++ joinWith separator ts

/-- The spelling of a number. -/
def Number.spelling : Number → List Char
  | .natural n => Nat.toDigits 10 n
  | .other spelling => spelling

/-- A string body between its quotes. -/
def quoted (body : List Char) : List Char := '"' :: body ++ ['"']

-- ============================================================== compact

mutual

/-- The compact text of a value. -/
def compactChars : Json → List Char
  | .null => "null".toList
  | .bool true => "true".toList
  | .bool false => "false".toList
  | .number n => n.spelling
  | .string body => quoted body
  | .array elements => '[' :: joinWith [','] (compactAll elements) ++ [']']
  | .object members => '{' :: joinWith [','] (compactMembers members) ++ ['}']

/-- The compact texts of a list of values. -/
def compactAll : List Json → List (List Char)
  | [] => []
  | v :: vs => compactChars v :: compactAll vs

/-- The compact texts of a list of members. -/
def compactMembers : List (List Char × Json) → List (List Char)
  | [] => []
  | (key, v) :: rest => (quoted key ++ ':' :: compactChars v) :: compactMembers rest

end

/-- The compact text of a value. -/
def compact (v : Json) : String := String.ofList (compactChars v)

-- ============================================================= indented

/-- A new line, `depth` levels in. -/
def newLine (depth : Nat) : List Char := '\n' :: List.replicate (2 * depth) ' '

mutual

/-- The indented text of a value that starts `depth` levels in. -/
def indentedChars (depth : Nat) : Json → List Char
  | .null => "null".toList
  | .bool true => "true".toList
  | .bool false => "false".toList
  | .number n => n.spelling
  | .string body => quoted body
  | .array [] => "[]".toList
  | .array (e :: es) =>
    '[' :: newLine (depth + 1)
      ++ joinWith (',' :: newLine (depth + 1)) (indentedAll (depth + 1) (e :: es))
      ++ newLine depth ++ [']']
  | .object [] => ['{', '}']
  | .object (m :: ms) =>
    '{' :: newLine (depth + 1)
      ++ joinWith (',' :: newLine (depth + 1)) (indentedMembers (depth + 1) (m :: ms))
      ++ newLine depth ++ ['}']

/-- The indented texts of a list of values. -/
def indentedAll (depth : Nat) : List Json → List (List Char)
  | [] => []
  | v :: vs => indentedChars depth v :: indentedAll depth vs

/-- The indented texts of a list of members. -/
def indentedMembers (depth : Nat) : List (List Char × Json) → List (List Char)
  | [] => []
  | (key, v) :: rest =>
    (quoted key ++ ':' :: ' ' :: indentedChars depth v) :: indentedMembers depth rest

end

/-- The indented text of a value. -/
def indented (v : Json) : String := String.ofList (indentedChars 0 v)

end Dissect.Json

/-
White space: the characters with Unicode's White_Space property, and
trimming by them.
-/

namespace Dissect.Text

/-- Unicode's White_Space property. -/
def isBlank (c : Char) : Bool :=
  let n := c.toNat
  (0x09 ≤ n && n ≤ 0x0D) || n == 0x20 || n == 0x85 || n == 0xA0
    || n == 0x1680 || (0x2000 ≤ n && n ≤ 0x200A) || n == 0x2028 || n == 0x2029
    || n == 0x202F || n == 0x205F || n == 0x3000

/-- Drop blanks at both ends. -/
def trim (cs : List Char) : List Char :=
  ((cs.dropWhile isBlank).reverse.dropWhile isBlank).reverse

/-- A character in front of parts: a separator opens a new part, any
other character goes into the first. -/
def consPart (separator c : Char) (parts : List (List Char)) : List (List Char) :=
  if c = separator then [] :: parts
  else
    match parts with
    | [] => [[c]]
    | part :: rest => (c :: part) :: rest

/-- Cut at every occurrence of `separator`, which the parts do not hold;
there is always one part more than there are separators. -/
def splitAt (separator : Char) (cs : List Char) : List (List Char) :=
  cs.foldr (consPart separator) [[]]

/-- The text with ASCII letters in lower case and all else as it is. -/
def lowerAscii (s : String) : String := String.ofList (s.toList.map Char.toLower)

/-- Whether `needle` occurs in a run of characters. -/
def contains (needle : List Char) : List Char → Bool
  | [] => needle.isEmpty
  | c :: rest => needle.isPrefixOf (c :: rest) || contains needle rest

end Dissect.Text

/-
What imported and exported functions are called.

A function known by name or by number is shown behind the name of its
library: the library's file name up to its last dot, in lower case,
then an exclamation mark. A dot in first place is part of the name.
-/
import Dissect.Text.Blank
import Dissect.Text.Numeral

namespace Dissect.Pe

/-- How a library knows a function. -/
inductive ImportName where
  | name (s : String)
  | ordinal (n : Nat)
  deriving DecidableEq, Repr

/-- The text of a name. -/
def ImportName.text : ImportName → String
  | .name s => s
  | .ordinal n => "ord" ++ Numeral.decimal n

/-- A file name up to its last dot, unless that is its first
character. -/
def stem (file : String) : String :=
  match file.toList.reverse.dropWhile (· ≠ '.') with
  | [] => file
  | [_] => file
  | _ :: before => String.ofList before.reverse

/-- A function behind the name of its library. -/
def qualifiedName (library : String) (n : ImportName) : String :=
  Text.lowerAscii (stem library) ++ "!" ++ n.text

end Dissect.Pe

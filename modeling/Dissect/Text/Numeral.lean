/-
Numerals: how natural numbers and integers are written, and how digits
are read back.

# What is written

Decimal and hexadecimal numerals carry no leading zero, hexadecimal
digits are lower-case and stand after `0x`. A padded numeral has at
least a given number of digits, zeros in front. The sign of a negative
number stands before the whole numeral, `-0x10` and not `0x-10`.

# What is read

`ofDigits?` reads a non-empty run of digits in a base as a number below
a bound and refuses anything else; leading zeros are digits like any
other. Readers that want the canonical spelling refuse them on their
own. Digits only add to a number, so reading stops at the first digit
that reaches the bound.
-/

namespace Dissect.Numeral

-- ============================================================= writing

/-- The decimal numeral of `n`. -/
def decimal (n : Nat) : String := String.ofList (Nat.toDigits 10 n)

/-- The hexadecimal digits of `n`, without `0x`. -/
def hexDigits (n : Nat) : String := String.ofList (Nat.toDigits 16 n)

/-- The hexadecimal numeral of `n`: `0x` and its digits. -/
def hex (n : Nat) : String := "0x" ++ hexDigits n

/-- The hexadecimal numeral of `n` with at least `width` digits. -/
def paddedHex (width n : Nat) : String :=
  let digits := Nat.toDigits 16 n
  "0x" ++ String.ofList (List.replicate (width - digits.length) '0' ++ digits)

/-- The decimal numeral of an integer. -/
def signedDecimal : Int → String
  | .ofNat n => decimal n
  | .negSucc n => "-" ++ decimal (n + 1)

/-- The hexadecimal numeral of an integer: the sign, then the numeral of
the magnitude. -/
def signedHex : Int → String
  | .ofNat n => hex n
  | .negSucc n => "-" ++ hex (n + 1)

-- ============================================================= reading

/-- The value of a decimal digit. -/
def decimalDigit? (c : Char) : Option Nat :=
  if '0' ≤ c ∧ c ≤ '9' then some (c.toNat - '0'.toNat) else none

/-- The value of a hexadecimal digit of either case. -/
def hexDigit? (c : Char) : Option Nat :=
  if '0' ≤ c ∧ c ≤ '9' then some (c.toNat - '0'.toNat)
  else if 'a' ≤ c ∧ c ≤ 'f' then some (c.toNat - 'a'.toNat + 10)
  else if 'A' ≤ c ∧ c ≤ 'F' then some (c.toNat - 'A'.toNat + 10)
  else none

/-- Read digits onto the number `acc` read so far, as long as it stays
below the bound. -/
def readOnto (digit? : Char → Option Nat) (base bound acc : Nat) :
    List Char → Option Nat
  | [] => some acc
  | c :: rest =>
    match digit? c with
    | some d =>
      if acc * base + d < bound then readOnto digit? base bound (acc * base + d) rest
      else none
    | none => none

/-- The number below `bound` that a non-empty run of digits stands
for. -/
def ofDigits? (digit? : Char → Option Nat) (base bound : Nat) :
    List Char → Option Nat
  | [] => none
  | cs => readOnto digit? base bound 0 cs

/-- The number below `bound` of a run of decimal digits. -/
def ofDecimal? (bound : Nat) (cs : List Char) : Option Nat :=
  ofDigits? decimalDigit? 10 bound cs

/-- The number below `bound` of a run of hexadecimal digits. -/
def ofHex? (bound : Nat) (cs : List Char) : Option Nat :=
  ofDigits? hexDigit? 16 bound cs

/-- The number below `bound` of a decimal numeral in its one canonical
spelling: no sign, no leading zero. -/
def ofCanonicalDecimal? (bound : Nat) (cs : List Char) : Option Nat :=
  match cs with
  | '0' :: _ :: _ => none
  | _ => ofDecimal? bound cs

end Dissect.Numeral

/-
That numerals are read back.

Digits are made from the last one on and read from the first one on.
What ties the two is that reading a run of digits and one more is
reading the run and then the digit (`readOnto_append`), so that a number
is read back by induction on its digits without the last
(`readOnto_toDigits`), in any base whose digits are. Nothing here
depends on the bound but whether the number is below it.
-/
import Dissect.Text.Numeral

namespace Dissect.Numeral

variable {digit? : Char → Option Nat} {base bound n : Nat}

-- =============================================================== reading

/-- Reading goes on from the number that was read. -/
theorem readOnto_append (acc : Nat) (xs ys : List Char) :
    readOnto digit? base bound acc (xs ++ ys)
      = (readOnto digit? base bound acc xs).bind fun n => readOnto digit? base bound n ys := by
  induction xs generalizing acc with
  | nil => rfl
  | cons c xs ih =>
      rw [List.cons_append, readOnto, readOnto]
      cases digit? c with
      | none => rfl
      | some d =>
          dsimp only
          by_cases hbound : acc * base + d < bound
          · rw [if_pos hbound, if_pos hbound, ih]
          · rw [if_neg hbound, if_neg hbound]
            rfl

/-- The digits of a number are read back as it, in any base whose digits
are known. Digits are read from the left, so the number is built up as
its quotients by the base. -/
theorem readOnto_toDigits (hbase : 1 < base)
    (hdigit : ∀ d < base, digit? (Nat.digitChar d) = some d) :
    readOnto digit? base bound 0 (Nat.toDigits base n)
      = if n < bound then some n else none := by
  induction n using Nat.strongRecOn with
  | _ n ih =>
      by_cases hlast : n < base
      · rw [Nat.toDigits_of_lt_base hlast]
        simp [readOnto, hdigit n hlast]
      · have hpos : 0 < base := by omega
        have hless : n / base < n := Nat.div_lt_self (by omega) hbase
        have hsplit : n / base * base + n % base = n := Nat.div_add_mod' n base
        rw [Nat.toDigits_of_base_le hbase (by omega), readOnto_append, ih (n / base) hless]
        by_cases hfront : n / base < bound
        · simp [readOnto, hdigit _ (Nat.mod_lt n hpos), hsplit, hfront]
        · rw [if_neg hfront, if_neg (by omega)]
          rfl

/-- A number has digits, so it is read back if it is below the bound. -/
theorem ofDigits?_toDigits (hbase : 1 < base)
    (hdigit : ∀ d < base, digit? (Nat.digitChar d) = some d) :
    ofDigits? digit? base bound (Nat.toDigits base n) = if n < bound then some n else none := by
  have hread : readOnto digit? base bound 0 (Nat.toDigits base n)
      = if n < bound then some n else none := readOnto_toDigits hbase hdigit
  cases hdigits : Nat.toDigits base n with
  | nil => exact absurd hdigits Nat.toDigits_ne_nil
  | cons c rest =>
      rw [hdigits] at hread
      exact hread

theorem ofDecimal?_toDigits (h : n < bound) : ofDecimal? bound (Nat.toDigits 10 n) = some n :=
  (ofDigits?_toDigits (by decide) (by decide)).trans (if_pos h)

/-- A number that is too large is refused. -/
theorem ofDecimal?_toDigits_of_le (h : bound ≤ n) :
    ofDecimal? bound (Nat.toDigits 10 n) = none :=
  (ofDigits?_toDigits (by decide) (by decide)).trans (if_neg (Nat.not_lt.mpr h))

theorem ofHex?_toDigits (h : n < bound) : ofHex? bound (Nat.toDigits 16 n) = some n :=
  (ofDigits?_toDigits (by decide) (by decide)).trans (if_pos h)

-- ================================================================ digits

/-- The characters of a hexadecimal numeral: the sign, `0x` and the digits
of the magnitude. -/
theorem toList_signedHex (i : Int) :
    (signedHex i).toList
      = (if i < 0 then ['-'] else []) ++ '0' :: 'x' :: Nat.toDigits 16 i.natAbs := by
  cases i with
  | ofNat n => simp [signedHex, hex, hexDigits]
  | negSucc n => simp [signedHex, hex, hexDigits, Int.negSucc_lt_zero]

/-- A numeral is made of the digits of its base. -/
theorem exists_digitChar_of_mem {c : Char} (hbase : 1 < base) (h : c ∈ Nat.toDigits base n) :
    ∃ d < base, c = Nat.digitChar d := by
  induction n using Nat.strongRecOn with
  | _ n ih =>
      by_cases hlast : n < base
      · rw [Nat.toDigits_of_lt_base hlast, List.mem_singleton] at h
        exact ⟨n, hlast, h⟩
      · have hless : n / base < n := Nat.div_lt_self (by omega) hbase
        rw [Nat.toDigits_of_base_le hbase (by omega), List.mem_append, List.mem_singleton] at h
        rcases h with h | h
        · exact ih (n / base) hless h
        · exact ⟨n % base, Nat.mod_lt n (by omega), h⟩

/-- What is no digit is not in a numeral. -/
theorem not_mem_toDigits {c : Char} (hbase : 1 < base) (hc : ∀ d < base, Nat.digitChar d ≠ c) :
    c ∉ Nat.toDigits base n := by
  intro h
  obtain ⟨d, hd, rfl⟩ := exists_digitChar_of_mem hbase h
  exact hc d hd rfl

end Dissect.Numeral

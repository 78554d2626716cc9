/-
The spelling of strings and numbers, and that it is read.

# Strings

`Body` says what may stand between the quotes of a string. The reader of
string bodies takes one character or escape at a time, so that it takes a
body and stops at the quote behind it (`Body.stringBody_append`). A text
is spelled one character at a time, which makes a body, and the reader of
meanings takes each spelled character for that character
(`resolve?_spell`). So the body of a text says the text.

# Numbers

`SpellsNumber` says which texts a number has. A number is read as far as
it goes, so what follows it must not go on with it (`EndsNumber`); each
of its parts ends where the next one starts. The digits of a natural
number start with a zero only if there is no other, so they are an
integer part (`integerPart_toDigits`).
-/
import Dissect.Json.Token
import Dissect.Proofs.Text.Numeral

namespace Dissect.Json

-- =============================================================== strings

/-- A control character is written with two hexadecimal digits behind
two zeros. -/
theorem isHexDigit_controlDigits {n : Nat} (h : n < 0x20) :
    isHexDigit (Nat.digitChar (n / 16)) = true ∧ isHexDigit (Nat.digitChar (n % 16)) = true := by
  revert n
  decide

theorem unitOf_controlDigits {n : Nat} (h : n < 0x20) :
    unitOf '0' '0' (Nat.digitChar (n / 16)) (Nat.digitChar (n % 16)) = n := by
  revert n
  decide

/-- The characters between the quotes of a string: escapes in full, and
no quote, backslash or control character otherwise. -/
inductive Body : List Char → Prop
  | nil : Body []
  | plain {c : Char} {cs : List Char} (hquote : c ≠ '"') (hslash : c ≠ '\\')
      (hcontrol : ¬ c.toNat < 0x20) (h : Body cs) : Body (c :: cs)
  | escape {e : Char} {cs : List Char} (he : (escaped? e).isSome = true) (h : Body cs) :
      Body ('\\' :: e :: cs)
  | unit {a b c d : Char} {cs : List Char} (ha : isHexDigit a = true) (hb : isHexDigit b = true)
      (hc : isHexDigit c = true) (hd : isHexDigit d = true) (h : Body cs) :
      Body ('\\' :: 'u' :: a :: b :: c :: d :: cs)

/-- A character that needs no escape goes into the body as it is. -/
theorem stringBody_plain {c : Char} (hquote : c ≠ '"') (hslash : c ≠ '\\')
    (hcontrol : ¬ c.toNat < 0x20) (done cs : List Char) :
    stringBody done (c :: cs) = stringBody (c :: done) cs := by
  rw [stringBody, if_neg hcontrol]
  · exact hquote
  · intro a b c' d rest h
    exact absurd h hslash
  · intro e rest h
    exact absurd h hslash

/-- The character behind a backslash goes into the body with it. -/
theorem stringBody_escape {e : Char} (he : (escaped? e).isSome = true) (done cs : List Char) :
    stringBody done ('\\' :: e :: cs) = stringBody (e :: '\\' :: done) cs := by
  rw [stringBody, if_pos he]
  rintro a b c d rest rfl
  cases he

/-- A body ends at the first quote behind it. -/
theorem Body.stringBody_append {body : List Char} (h : Body body) (done rest : List Char) :
    stringBody done (body ++ '"' :: rest) = some (done.reverse ++ body, rest) := by
  induction h generalizing done with
  | nil => simp [stringBody]
  | plain hquote hslash hcontrol h ih =>
      rw [List.cons_append, stringBody_plain hquote hslash hcontrol, ih]
      simp
  | escape he h ih =>
      rw [List.cons_append, List.cons_append, stringBody_escape he, ih]
      simp
  | unit ha hb hc hd h ih =>
      simp only [List.cons_append]
      rw [stringBody]
      simp [ha, hb, hc, hd, ih]

/-- A spelled character goes on with a body. -/
theorem Body.spell_append {cs : List Char} (h : Body cs) (c : Char) : Body (spell c ++ cs) := by
  unfold spell
  split
  case h_8 hquote hslash _ _ _ _ _ =>
    split
    · next hcontrol =>
      obtain ⟨hfirst, hsecond⟩ := isHexDigit_controlDigits hcontrol
      exact .unit (by decide) (by decide) hfirst hsecond h
    · next hcontrol => exact .plain hquote hslash hcontrol h
  all_goals exact .escape rfl h

/-- A text is spelled by a body. -/
theorem body_bodyOf (s : String) : Body (bodyOf s) := by
  unfold bodyOf
  induction s.toList with
  | nil => exact .nil
  | cons c cs ih => exact ih.spell_append c

theorem resolve?_cons {c : Char} (hslash : c ≠ '\\') (done cs : List Char) :
    resolve? done (c :: cs) = resolve? (c :: done) cs := by
  rw [resolve?]
  · intro a b c' d rest h
    exact absurd h hslash
  · intro e rest h
    exact absurd h hslash

/-- A unit that is no surrogate is its character. -/
theorem resolve?_unit {a b c d : Char} (h : unitOf a b c d < 0xD800) (done cs : List Char) :
    resolve? done ('\\' :: 'u' :: a :: b :: c :: d :: cs)
      = resolve? (Char.ofNat (unitOf a b c d) :: done) cs := by
  have hhigh : isHighSurrogate (unitOf a b c d) = false := by
    unfold isHighSurrogate
    rw [decide_eq_false (by omega), Bool.false_and]
  have hlow : isLowSurrogate (unitOf a b c d) = false := by
    unfold isLowSurrogate
    rw [decide_eq_false (by omega), Bool.false_and]
  rw [resolve?.eq_def]
  simp [hhigh, hlow]

/-- The reader of meanings takes a spelled character as that character. -/
theorem resolve?_spell (done : List Char) (c : Char) (cs : List Char) :
    resolve? done (spell c ++ cs) = resolve? (c :: done) cs := by
  unfold spell
  split
  case h_8 hquote hslash _ _ _ _ _ =>
    split
    · next hcontrol =>
      have hunit := unitOf_controlDigits hcontrol
      have hread := resolve?_unit (by rw [hunit]; omega) done cs
      rw [hunit, Char.ofNat_toNat] at hread
      exact hread
    · exact resolve?_cons hslash done cs
  all_goals simp [resolve?, escaped?]

/-- The body of a text says the text. -/
@[simp] theorem text?_bodyOf (s : String) : text? (bodyOf s) = some s := by
  have hall : ∀ (cs done : List Char),
      resolve? done (cs.flatMap spell) = some (done.reverse ++ cs) := by
    intro cs
    induction cs with
    | nil =>
        intro done
        simp [resolve?]
    | cons c cs ih =>
        intro done
        rw [List.flatMap_cons, resolve?_spell, ih]
        simp
  unfold text? bodyOf
  rw [hall s.toList []]
  simp

-- =============================================================== numbers

/-- The characters do not go on with digits. -/
def EndsDigits (cs : List Char) : Prop := ∀ c ∈ cs.head?, isDigit c = false

/-- The characters do not go on with digits or a fraction. -/
def EndsFraction (cs : List Char) : Prop := ∀ c ∈ cs.head?, isDigit c = false ∧ c ≠ '.'

/-- The characters do not go on with a number. -/
def EndsNumber (cs : List Char) : Prop :=
  ∀ c ∈ cs.head?, isDigit c = false ∧ c ≠ '.' ∧ c ≠ 'e' ∧ c ≠ 'E'

/-- A fraction or none. -/
inductive Fraction : List Char → Prop
  | absent : Fraction []
  | present {ds : List Char} (hne : ds ≠ []) (hds : ∀ c ∈ ds, isDigit c = true) :
      Fraction ('.' :: ds)

/-- An exponent or none. -/
inductive Exponent : List Char → Prop
  | absent : Exponent []
  | present {e : Char} {sign ds : List Char} (he : e = 'e' ∨ e = 'E')
      (hsign : sign = [] ∨ sign = ['+'] ∨ sign = ['-']) (hne : ds ≠ [])
      (hds : ∀ c ∈ ds, isDigit c = true) : Exponent (e :: sign ++ ds)

/-- The texts of numbers: a minus sign or none, the digits of a natural
number, a fraction or none and an exponent or none. Digits alone that
spell a word are that word. -/
inductive SpellsNumber : List Char → Number → Prop
  | natural {n : Nat} (hn : n < UInt64.size) : SpellsNumber (Nat.toDigits 10 n) (.natural n)
  | other {sign fraction exponent : List Char} {n : Nat} (hsign : sign = [] ∨ sign = ['-'])
      (hfraction : Fraction fraction) (hexponent : Exponent exponent)
      (hother : sign ≠ [] ∨ fraction ≠ [] ∨ exponent ≠ [] ∨ UInt64.size ≤ n) :
      SpellsNumber (sign ++ (Nat.toDigits 10 n ++ (fraction ++ exponent)))
        (.other (sign ++ (Nat.toDigits 10 n ++ (fraction ++ exponent))))

variable {rest : List Char}

theorem endsNumber_nil : EndsNumber [] := fun _ h => nomatch h

theorem EndsNumber.endsFraction (h : EndsNumber rest) : EndsFraction rest :=
  fun c hc => ⟨(h c hc).1, (h c hc).2.1⟩

theorem EndsFraction.endsDigits (h : EndsFraction rest) : EndsDigits rest :=
  fun c hc => (h c hc).1

/-- An exponent ends the fraction before it; if there is none, what
follows does. -/
theorem Exponent.endsFraction {exponent : List Char} (h : Exponent exponent)
    (hrest : EndsNumber rest) : EndsFraction (exponent ++ rest) := by
  cases h with
  | absent => exact hrest.endsFraction
  | present he hsign hne hds =>
      intro c hc
      cases hc
      rcases he with rfl | rfl
      all_goals decide

/-- A fraction ends the digits before it; if there is none, what follows
does. -/
theorem Fraction.endsDigits {fraction : List Char} (h : Fraction fraction)
    (hrest : EndsFraction rest) : EndsDigits (fraction ++ rest) := by
  cases h with
  | absent => exact hrest.endsDigits
  | present hne hds =>
      intro c hc
      cases hc
      decide

theorem isDigit_of_mem_toDigits {c : Char} {n : Nat} (h : c ∈ Nat.toDigits 10 n) :
    isDigit c = true := by
  have hall : ∀ d < 10, isDigit (Nat.digitChar d) = true := by decide
  obtain ⟨d, hd, rfl⟩ := Numeral.exists_digitChar_of_mem (by decide) h
  exact hall d hd

/-- Digits are taken up to the first character that is none. -/
theorem digits_append {xs : List Char} (hxs : ∀ c ∈ xs, isDigit c = true)
    (hrest : EndsDigits rest) : digits (xs ++ rest) = (xs, rest) := by
  have hstop : rest.takeWhile isDigit = [] ∧ rest.dropWhile isDigit = rest := by
    cases rest with
    | nil => exact ⟨rfl, rfl⟩
    | cons c rest =>
        have hc := hrest c rfl
        simp [hc]
  unfold digits
  rw [List.takeWhile_append_of_pos hxs, List.dropWhile_append_of_pos hxs, hstop.1, hstop.2,
    List.append_nil]

/-- Only the number zero is written with a zero in front. -/
theorem toDigits_leading_zero {n : Nat} {xs : List Char} (h : Nat.toDigits 10 n = '0' :: xs) :
    xs = [] := by
  induction n using Nat.strongRecOn generalizing xs with
  | _ n ih =>
      by_cases hlast : n < 10
      · rw [Nat.toDigits_of_lt_base hlast] at h
        exact (List.cons.inj h).2.symm
      · rw [Nat.toDigits_of_base_le (by decide) (by omega)] at h
        cases hfront : Nat.toDigits 10 (n / 10) with
        | nil => exact absurd hfront Nat.toDigits_ne_nil
        | cons c front =>
            rw [hfront, List.cons_append] at h
            obtain ⟨rfl, -⟩ := List.cons.inj h
            -- all digits but the last are those of zero, so there is but one digit
            have hzero : n / 10 = 0 := by
              have hread := Numeral.ofDecimal?_toDigits (n := n / 10) (Nat.lt_succ_self _)
              rw [hfront, ih (n / 10) (by omega) hfront] at hread
              have hspelled : Numeral.ofDecimal? (n / 10 + 1) ['0'] = some 0 := by
                simp [Numeral.ofDecimal?, Numeral.ofDigits?, Numeral.readOnto,
                  Numeral.decimalDigit?]
              rw [hspelled] at hread
              exact (Option.some.inj hread).symm
            omega

/-- The integer part of a numeral has no leading zero, and digits in
base ten have none either. -/
theorem integerPart_toDigits (n : Nat) (hrest : EndsDigits rest) :
    integerPart (Nat.toDigits 10 n ++ rest) = some (Nat.toDigits 10 n, rest) := by
  unfold integerPart
  rw [digits_append (fun c hc => isDigit_of_mem_toDigits hc) hrest]
  split
  · next h => exact absurd (congrArg Prod.fst h) Nat.toDigits_ne_nil
  · next h =>
    have hzero := toDigits_leading_zero (congrArg Prod.fst h)
    cases hzero
  · rfl

/-- A fraction is read whole, up to what ends it. -/
theorem Fraction.fractionPart_append {fraction : List Char} (h : Fraction fraction)
    (hrest : EndsFraction rest) : fractionPart (fraction ++ rest) = some (fraction, rest) := by
  cases h with
  | absent =>
      rw [List.nil_append]
      unfold fractionPart
      split
      · exact absurd rfl (hrest '.' rfl).2
      · rfl
  | present hne hds =>
      rw [List.cons_append, fractionPart, digits_append hds hrest.endsDigits]
      split
      · next h => exact absurd (congrArg Prod.fst h) hne
      · next h =>
        cases h
        rfl

/-- The sign of an exponent is read off in front of its digits. -/
theorem exponentSign_append {sign ds : List Char}
    (hsign : sign = [] ∨ sign = ['+'] ∨ sign = ['-']) (hne : ds ≠ [])
    (hds : ∀ c ∈ ds, isDigit c = true) (rest : List Char) :
    exponentSign (sign ++ (ds ++ rest)) = (sign, ds ++ rest) := by
  rcases hsign with rfl | rfl | rfl
  · obtain ⟨d, ds, rfl⟩ := List.exists_cons_of_ne_nil hne
    have hd := hds d List.mem_cons_self
    unfold exponentSign
    split
    · next h =>
      obtain ⟨rfl, -⟩ := List.cons.inj h
      cases hd
    · next h =>
      obtain ⟨rfl, -⟩ := List.cons.inj h
      cases hd
    · rfl
  · rfl
  · rfl

/-- An exponent is read whole, up to what ends the number. -/
theorem Exponent.exponentPart_append {exponent : List Char} (h : Exponent exponent)
    (hrest : EndsNumber rest) : exponentPart (exponent ++ rest) = some (exponent, rest) := by
  cases h with
  | absent =>
      rw [List.nil_append]
      unfold exponentPart
      split
      · next e rest =>
        obtain ⟨-, -, hlower, hupper⟩ := hrest e rfl
        rw [if_neg (by simp [hlower, hupper])]
      · rfl
  | present he hsign hne hds =>
      rw [List.cons_append, List.cons_append, List.append_assoc, exponentPart, if_pos he,
        exponentSign_append hsign hne hds]
      dsimp only
      rw [digits_append hds hrest.endsFraction.endsDigits]
      split
      · next h => exact absurd (congrArg Prod.fst h) hne
      · next h =>
        cases h
        rfl

/-- The three parts of a numeral are read one after the other, each up
to the next. -/
theorem unsignedNumeral_append (n : Nat) {fraction exponent : List Char}
    (hfraction : Fraction fraction) (hexponent : Exponent exponent) (hrest : EndsNumber rest) :
    unsignedNumeral (Nat.toDigits 10 n ++ (fraction ++ (exponent ++ rest)))
      = some ((Nat.toDigits 10 n, fraction, exponent), rest) := by
  have hbehind := hexponent.endsFraction hrest
  unfold unsignedNumeral
  rw [integerPart_toDigits n (hfraction.endsDigits hbehind)]
  simp [hfraction.fractionPart_append hbehind, hexponent.exponentPart_append hrest]

theorem toDigits_append_eq_cons (n : Nat) (behind : List Char) :
    ∃ c more, Nat.toDigits 10 n ++ behind = c :: more ∧ isDigit c = true := by
  cases hdigits : Nat.toDigits 10 n with
  | nil => exact absurd hdigits Nat.toDigits_ne_nil
  | cons c more =>
      refine ⟨c, more ++ behind, rfl, ?_⟩
      apply isDigit_of_mem_toDigits (n := n)
      rw [hdigits]
      exact List.mem_cons_self

/-- A number starts with a digit or a minus sign. -/
theorem SpellsNumber.eq_cons {cs : List Char} {v : Number} (h : SpellsNumber cs v) :
    ∃ c more, cs = c :: more ∧ (isDigit c = true ∨ c = '-') := by
  cases h with
  | @natural n hn =>
      obtain ⟨c, more, hmore, hc⟩ := toDigits_append_eq_cons n []
      rw [List.append_nil] at hmore
      exact ⟨c, more, hmore, .inl hc⟩
  | @other sign fraction exponent n hsign hfraction hexponent hother =>
      rcases hsign with rfl | rfl
      · obtain ⟨c, more, hmore, hc⟩ := toDigits_append_eq_cons n (fraction ++ exponent)
        exact ⟨c, more, hmore, .inl hc⟩
      · exact ⟨'-', _, rfl, .inr rfl⟩

/-- Digits in front are no minus sign. -/
theorem numeral_toDigits_append (n : Nat) (behind : List Char) :
    numeral (Nat.toDigits 10 n ++ behind)
      = (unsignedNumeral (Nat.toDigits 10 n ++ behind)).map fun ((i, f, e), after) =>
        match f, e with
        | [], [] => (naturalOf i, after)
        | f, e => (.other (i ++ f ++ e), after) := by
  obtain ⟨c, more, hmore, hc⟩ := toDigits_append_eq_cons n behind
  rw [hmore]
  unfold numeral
  split
  · next h =>
    obtain ⟨rfl, -⟩ := List.cons.inj h
    cases hc
  · rfl

/-- A number is read back from its text. -/
theorem SpellsNumber.numeral_append {cs : List Char} {v : Number} (h : SpellsNumber cs v)
    (hrest : EndsNumber rest) : numeral (cs ++ rest) = some (v, rest) := by
  cases h with
  | @natural n hn =>
      have hunsigned := unsignedNumeral_append n .absent .absent hrest
      rw [List.nil_append, List.nil_append] at hunsigned
      rw [numeral_toDigits_append, hunsigned]
      simp [naturalOf, Numeral.ofDecimal?_toDigits hn]
  | @other sign fraction exponent n hsign hfraction hexponent hother =>
      have hunsigned := unsignedNumeral_append n hfraction hexponent hrest
      simp only [List.append_assoc]
      rcases hsign with rfl | rfl
      · rw [List.nil_append, numeral_toDigits_append, hunsigned]
        simp only [Option.map_some]
        split
        · next hf he => simp [naturalOf, Numeral.ofDecimal?_toDigits_of_le (by simpa using hother)]
        · simp
      · rw [List.cons_append, List.nil_append, numeral, hunsigned]
        simp

end Dissect.Json

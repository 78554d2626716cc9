/-
The texts of JSON values, and that every one of them is read.

# Grammar

`Spells` says which texts a value has: any blanks around it and around
its brackets, commas and colons, members in their order, any escapes in
strings, any form of number. It does not mention tokens or frames.

# Tokens

`Lexes` says which tokens characters fall into, one token or blank at a
time, without the count of characters that bounds the reading
(`Lexes.tokens_eq`). A value has one list of tokens (`lexemes`), so that
reading falls into two halves: every text of the value falls into these
tokens, whatever follows it (`Spells.lexes`), and these tokens are put
together to the value, whatever is open around them
(`assemble_lexemes`). Both go along the grammar, elements and members
one at a time.
-/
import Dissect.Json.Parser
import Dissect.Json.Printer
import Dissect.Proofs.Json.Spelling

namespace Dissect.Json

variable {c : Char} {cs rest : List Char} {ts more : List Token} {v : Json}

-- =============================================================== grammar

/-- All of the characters are blanks. -/
def Blanks (cs : List Char) : Prop := ∀ c ∈ cs, isBlank c = true

mutual

/-- The texts of a value, with any blanks around it. -/
inductive Spells : List Char → Json → Prop
  | blankBefore {b : Char} {cs : List Char} {v : Json} (hb : isBlank b = true)
      (h : Spells cs v) : Spells (b :: cs) v
  | blankAfter {b : Char} {cs : List Char} {v : Json} (hb : isBlank b = true)
      (h : Spells cs v) : Spells (cs ++ [b]) v
  | null : Spells "null".toList .null
  | bool (b : Bool) : Spells (if b then "true" else "false").toList (.bool b)
  | number {cs : List Char} {n : Number} (h : SpellsNumber cs n) : Spells cs (.number n)
  | string {body : List Char} (h : Body body) : Spells (quoted body) (.string body)
  | emptyArray {bs : List Char} (hbs : Blanks bs) :
      Spells ('[' :: bs ++ [']']) (.array [])
  | array {cs : List Char} {v : Json} {vs : List Json} (h : SpellsElements cs v vs) :
      Spells ('[' :: cs ++ [']']) (.array (v :: vs))
  | emptyObject {bs : List Char} (hbs : Blanks bs) :
      Spells ('{' :: bs ++ ['}']) (.object [])
  | object {cs key : List Char} {v : Json} {members : List (List Char × Json)}
      (h : SpellsMembers cs key v members) :
      Spells ('{' :: cs ++ ['}']) (.object ((key, v) :: members))

/-- The texts of an element and the elements behind it. -/
inductive SpellsElements : List Char → Json → List Json → Prop
  | one {cs : List Char} {v : Json} (h : Spells cs v) : SpellsElements cs v []
  | cons {cs rest : List Char} {v w : Json} {vs : List Json} (h : Spells cs v)
      (hrest : SpellsElements rest w vs) : SpellsElements (cs ++ ',' :: rest) v (w :: vs)

/-- The texts of a member and the members behind it. The text of a key is
that of a string. -/
inductive SpellsMembers : List Char → List Char → Json → List (List Char × Json) → Prop
  | one {label key cs : List Char} {v : Json} (hkey : Spells label (.string key))
      (h : Spells cs v) : SpellsMembers (label ++ ':' :: cs) key v []
  | cons {label key cs rest next : List Char} {v w : Json} {members : List (List Char × Json)}
      (hkey : Spells label (.string key)) (h : Spells cs v)
      (hrest : SpellsMembers rest next w members) :
      SpellsMembers (label ++ ':' :: (cs ++ ',' :: rest)) key v ((next, w) :: members)

end

-- ================================================================ tokens

/-- The characters fall into the tokens. -/
inductive Lexes : List Char → List Token → Prop
  | nil : Lexes [] []
  | blank {c : Char} {cs : List Char} {ts : List Token} (hc : isBlank c = true)
      (h : Lexes cs ts) : Lexes (c :: cs) ts
  | token (c : Char) (cs : List Char) {rest : List Char} {t : Token} {ts : List Token}
      (hc : isBlank c = false) (ht : token? (c :: cs ++ rest) = some (t, rest))
      (h : Lexes rest ts) : Lexes (c :: cs ++ rest) (t :: ts)

/-- Characters that fall into tokens are read as these tokens behind
those that are read already. The induction is on the division into
tokens, so each step of the reading is bounded by the characters that
are left. -/
theorem Lexes.tokensFrom_eq (h : Lexes cs ts) {fuel : Nat} (hfuel : cs.length < fuel)
    (done : List Token) : tokensFrom fuel done cs = done.reverse ++ ts := by
  induction h generalizing fuel done with
  | nil =>
      obtain ⟨fuel, rfl⟩ := Nat.exists_eq_add_of_lt hfuel
      simp [tokensFrom, skipBlanks]
  | @blank c cs ts hc h ih =>
      rw [List.length_cons] at hfuel
      have hrest : tokensFrom fuel done cs = done.reverse ++ ts := ih (by omega) done
      rw [← hrest]
      cases fuel with
      | zero => rfl
      | succ fuel => simp [tokensFrom, skipBlanks, hc]
  | @token c cs rest t ts hc ht h ih =>
      rw [List.cons_append] at ht
      rw [List.length_append, List.length_cons] at hfuel
      obtain ⟨fuel, rfl⟩ := Nat.exists_eq_add_of_lt hfuel
      rw [List.cons_append, tokensFrom]
      simp only [skipBlanks, List.dropWhile_cons, hc, Bool.false_eq_true, if_false, ht]
      rw [ih (by omega)]
      simp

/-- The count of characters is bound enough for reading a text. -/
theorem Lexes.tokens_eq (h : Lexes cs ts) : tokens (String.ofList cs) = ts := by
  unfold tokens
  rw [String.toList_ofList]
  exact h.tokensFrom_eq (Nat.lt_succ_self _) []

/-- Blanks in front fall into no token. -/
theorem Lexes.blanks {bs : List Char} (hbs : Blanks bs) (h : Lexes cs ts) :
    Lexes (bs ++ cs) ts := by
  induction bs with
  | nil => exact h
  | cons b bs ih =>
      have hrest : Blanks bs := fun c hc => hbs c (List.mem_cons_of_mem b hc)
      exact .blank (hbs b List.mem_cons_self) (ih hrest)

/-- An opening bracket is a token by itself; so are the five marks
below. -/
theorem Lexes.openArray (h : Lexes rest more) : Lexes ('[' :: rest) (.openArray :: more) :=
  .token '[' [] (by decide) rfl h

theorem Lexes.closeArray (h : Lexes rest more) : Lexes (']' :: rest) (.closeArray :: more) :=
  .token ']' [] (by decide) rfl h

theorem Lexes.openObject (h : Lexes rest more) : Lexes ('{' :: rest) (.openObject :: more) :=
  .token '{' [] (by decide) rfl h

theorem Lexes.closeObject (h : Lexes rest more) : Lexes ('}' :: rest) (.closeObject :: more) :=
  .token '}' [] (by decide) rfl h

theorem Lexes.comma (h : Lexes rest more) : Lexes (',' :: rest) (.comma :: more) :=
  .token ',' [] (by decide) rfl h

theorem Lexes.colon (h : Lexes rest more) : Lexes (':' :: rest) (.colon :: more) :=
  .token ':' [] (by decide) rfl h

theorem Lexes.null (h : Lexes rest more) :
    Lexes ("null".toList ++ rest) (.atom .null :: more) :=
  .token 'n' ['u', 'l', 'l'] (by decide) rfl h

theorem Lexes.bool (b : Bool) (h : Lexes rest more) :
    Lexes ((if b then "true" else "false").toList ++ rest) (.atom (.bool b) :: more) := by
  cases b with
  | true => exact .token 't' ['r', 'u', 'e'] (by decide) rfl h
  | false => exact .token 'f' ['a', 'l', 's', 'e'] (by decide) rfl h

/-- A string falls into one token, whatever follows its closing quote. -/
theorem Lexes.string {body : List Char} (hbody : Body body) (h : Lexes rest more) :
    Lexes (quoted body ++ rest) (.atom (.string body) :: more) := by
  refine .token '"' (body ++ ['"']) (by decide) ?_ h
  have hread := hbody.stringBody_append [] rest
  simp [token?, hread]

/-- Where there is a digit or a minus sign there is a number. -/
theorem token?_of_isDigit (hc : isDigit c = true ∨ c = '-') (cs : List Char) :
    token? (c :: cs) = (numeral (c :: cs)).map fun (n, after) => (.atom (.number n), after) := by
  unfold token?
  split
  case h_11 => rfl
  all_goals
    next h =>
    obtain ⟨rfl, -⟩ := List.cons.inj h
    exact absurd hc (by decide)

/-- A number ends before a character that continues none. -/
theorem endsNumber_cons (h : isDigit c = false ∧ c ≠ '.' ∧ c ≠ 'e' ∧ c ≠ 'E') :
    EndsNumber (c :: cs) := by
  intro d hd
  cases hd
  exact h

/-- A number ends before a blank. -/
theorem endsNumber_blank {b : Char} (hb : isBlank b = true) : EndsNumber (b :: cs) := by
  unfold isBlank at hb
  simp only [Bool.or_eq_true, beq_iff_eq] at hb
  apply endsNumber_cons
  rcases hb with ((rfl | rfl) | rfl) | rfl
  all_goals decide

/-- A number ends where its text does. -/
theorem Lexes.number {n : Number} (hn : SpellsNumber cs n) (hrest : EndsNumber rest)
    (h : Lexes rest more) : Lexes (cs ++ rest) (.atom (.number n) :: more) := by
  have hnumeral := hn.numeral_append hrest
  obtain ⟨c, cs, rfl, hc⟩ := hn.eq_cons
  refine .token c cs ?_ ?_ h
  · unfold isBlank
    simp only [Bool.or_eq_false_iff, beq_eq_false_iff_ne]
    refine ⟨⟨⟨?_, ?_⟩, ?_⟩, ?_⟩
    all_goals
      rintro rfl
      exact absurd hc (by decide)
  · rw [List.cons_append] at hnumeral ⊢
    rw [token?_of_isDigit hc, hnumeral]
    rfl

-- =============================================================== lexemes

mutual

/-- The tokens of a value. -/
def lexemes : Json → List Token
  | .array [] => [.openArray, .closeArray]
  | .array (v :: vs) => .openArray :: (lexemes v ++ moreElements vs)
  | .object [] => [.openObject, .closeObject]
  | .object ((key, v) :: members) =>
    .openObject :: .atom (.string key) :: .colon :: (lexemes v ++ moreMembers members)
  | .null => [.atom .null]
  | .bool b => [.atom (.bool b)]
  | .number n => [.atom (.number n)]
  | .string body => [.atom (.string body)]

/-- The tokens of an array behind an element, up to its closing
bracket. -/
def moreElements : List Json → List Token
  | [] => [.closeArray]
  | v :: vs => .comma :: (lexemes v ++ moreElements vs)

/-- The tokens of an object behind a member, up to its closing brace. -/
def moreMembers : List (List Char × Json) → List Token
  | [] => [.closeObject]
  | (key, v) :: members =>
    .comma :: .atom (.string key) :: .colon :: (lexemes v ++ moreMembers members)

end

mutual

/-- Every text of a value falls into the tokens of the value. -/
theorem Spells.lexes {cs : List Char} {v : Json} (h : Spells cs v) {rest : List Char}
    {more : List Token} (hends : EndsNumber rest) (hrest : Lexes rest more) :
    Lexes (cs ++ rest) (v.lexemes ++ more) := by
  match h with
  | .blankBefore hb h => exact .blank hb (h.lexes hends hrest)
  | .blankAfter hb h =>
      rw [List.append_assoc]
      exact h.lexes (endsNumber_blank hb) (.blank hb hrest)
  | .null => exact hrest.null
  | .bool b => exact hrest.bool b
  | .number hn => exact hrest.number hn hends
  | .string hbody => exact hrest.string hbody
  | .emptyArray hbs =>
      have hopened := (hrest.closeArray.blanks hbs).openArray
      simpa [lexemes] using hopened
  | .array helements =>
      have hopened := (helements.lexes hrest).openArray
      simpa [lexemes] using hopened
  | .emptyObject hbs =>
      have hopened := (hrest.closeObject.blanks hbs).openObject
      simpa [lexemes] using hopened
  | .object hmembers =>
      have hopened := (hmembers.lexes hrest).openObject
      simpa [lexemes] using hopened

/-- Every text of elements, closed by a bracket, falls into their
tokens. A number among them ends before the comma or the bracket. -/
theorem SpellsElements.lexes {cs : List Char} {v : Json} {vs : List Json}
    (h : SpellsElements cs v vs) {rest : List Char} {more : List Token}
    (hrest : Lexes rest more) :
    Lexes (cs ++ ']' :: rest) (v.lexemes ++ (moreElements vs ++ more)) := by
  match h with
  | .one h => exact h.lexes (endsNumber_cons (by decide)) hrest.closeArray
  | .cons h hothers =>
      have hbehind := (hothers.lexes hrest).comma
      have hall := h.lexes (endsNumber_cons (by decide)) hbehind
      simpa [moreElements] using hall

/-- Every text of members, closed by a brace, falls into their tokens. -/
theorem SpellsMembers.lexes {cs key : List Char} {v : Json}
    {members : List (List Char × Json)} (h : SpellsMembers cs key v members)
    {rest : List Char} {more : List Token} (hrest : Lexes rest more) :
    Lexes (cs ++ '}' :: rest)
      (.atom (.string key) :: .colon :: (v.lexemes ++ (moreMembers members ++ more))) := by
  match h with
  | .one hkey h =>
      have hvalue := h.lexes (endsNumber_cons (by decide)) hrest.closeObject
      have hall := hkey.lexes (endsNumber_cons (by decide)) hvalue.colon
      simpa [lexemes, moreMembers] using hall
  | .cons hkey h hothers =>
      have hvalue := h.lexes (endsNumber_cons (by decide)) (hothers.lexes hrest).comma
      have hall := hkey.lexes (endsNumber_cons (by decide)) hvalue.colon
      simpa [lexemes, moreMembers] using hall

end

-- ============================================================== assembly

/-- The tokens of a value do not start with a closing bracket. -/
theorem assemble_openArray (stack : List Frame) (v : Json) (more : List Token) :
    assemble stack none (.openArray :: (v.lexemes ++ more))
      = assemble (.array [] :: stack) none (v.lexemes ++ more) := by
  have hopen : ∀ ts, v.lexemes ++ more ≠ .closeArray :: ts := by
    intro ts h
    unfold lexemes at h
    split at h
    all_goals cases h
  generalize v.lexemes ++ more = ts at hopen ⊢
  rw [assemble]
  exact hopen

mutual

/-- The tokens of a value are put together to the value. -/
theorem assemble_lexemes (v : Json) (stack : List Frame) (more : List Token) :
    assemble stack none (v.lexemes ++ more) = assemble stack (some v) more := by
  match v with
  | .null => simp [lexemes, assemble]
  | .bool b => simp [lexemes, assemble]
  | .number n => simp [lexemes, assemble]
  | .string body => simp [lexemes, assemble]
  | .array [] => simp [lexemes, assemble]
  | .array (v :: vs) =>
      rw [lexemes, List.cons_append, List.append_assoc, assemble_openArray, assemble_lexemes v,
        assemble_moreElements vs]
      rfl
  | .object [] => simp [lexemes, assemble]
  | .object ((key, v) :: members) =>
      simp [lexemes, assemble, assemble_lexemes v, assemble_moreMembers members]

/-- Behind an element, the tokens up to the bracket close the array with
the elements that are done, this one and the rest. -/
theorem assemble_moreElements (vs done : List Json) (v : Json) (stack : List Frame)
    (more : List Token) :
    assemble (.array done :: stack) (some v) (moreElements vs ++ more)
      = assemble stack (some (.array (done.reverse ++ v :: vs))) more := by
  match vs with
  | [] => simp [moreElements, assemble]
  | w :: vs => simp [moreElements, assemble, assemble_lexemes w, assemble_moreElements vs]

/-- Behind a member, the tokens up to the brace close the object with
the members that are done, this one and the rest. -/
theorem assemble_moreMembers (members done : List (List Char × Json)) (key : List Char)
    (v : Json) (stack : List Frame) (more : List Token) :
    assemble (.object done key :: stack) (some v) (moreMembers members ++ more)
      = assemble stack (some (.object (done.reverse ++ (key, v) :: members))) more := by
  match members with
  | [] => simp [moreMembers, assemble]
  | (next, w) :: members =>
      simp [moreMembers, assemble, assemble_lexemes w, assemble_moreMembers members]

end

-- =============================================================== reading

/-- Every text of a value is read as the value, to its end. -/
theorem Spells.first? (h : Spells cs v) : Json.first? (String.ofList cs) = some (v, []) := by
  have htokens := (h.lexes endsNumber_nil .nil).tokens_eq
  rw [List.append_nil] at htokens
  unfold Json.first?
  rw [htokens, assemble_lexemes]
  rfl

/-- A text is read as a value if the value is the first in it and
nothing but blanks follows. -/
theorem parse?_eq_some_iff {text : String} :
    Json.parse? text = some v ↔ ∃ rest, Json.first? text = some (v, rest) ∧ atEnd rest = true := by
  unfold Json.parse?
  constructor
  · intro h
    split at h
    · next j rest hfirst =>
      split at h
      · next hend =>
        cases h
        exact ⟨rest, hfirst, hend⟩
      · cases h
    · cases h
  · intro h
    obtain ⟨rest, hfirst, hend⟩ := h
    rw [hfirst]
    exact if_pos hend

/-- Every text of a value is read as the value. -/
theorem Spells.parse? {text : String} (h : Spells text.toList v) :
    Json.parse? text = some v := by
  have hfirst := h.first?
  rw [String.ofList_toList] at hfirst
  exact parse?_eq_some_iff.mpr ⟨[], hfirst, rfl⟩

end Dissect.Json

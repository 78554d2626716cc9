/-
That what is written is read back.

# Printed texts

The values of the library's records are truth values, words, texts and
objects of those (`Written`). Both printers put the members of an object
one behind the other with the same blanks around each of them, so that
one lemma says that the members are spelled by their printed text
(`spellsMembers_joinWith`), and the compact and the indented text of a
written value are texts of it. All texts of a value are read.

# Records

The members of an object with distinct keys are found under their names
(`record?_ofMembers`).
-/
import Dissect.Json.Record
import Dissect.Proofs.Json.Grammar

namespace Dissect.Json

variable {cs : List Char} {v : Json}

-- ======================================================== written values

/-- The values the library writes: truth values, words, texts, and
objects of those. -/
inductive Written : Json → Prop
  | bool (b : Bool) : Written (.bool b)
  | word {n : Nat} (h : n < UInt64.size) : Written (ofNat n)
  | text (s : String) : Written (ofText s)
  | object {members : List (String × Json)} (h : ∀ m ∈ members, Written m.2) :
      Written (ofMembers members)

/-- A text stays one of its value with blanks in front. -/
theorem Spells.blanksBefore {bs : List Char} (hbs : Blanks bs) (h : Spells cs v) :
    Spells (bs ++ cs) v := by
  induction bs with
  | nil => exact h
  | cons b bs ih =>
      have hrest : Blanks bs := fun c hc => hbs c (List.mem_cons_of_mem b hc)
      exact .blankBefore (hbs b List.mem_cons_self) (ih hrest)

theorem Spells.blanksAfter {bs : List Char} (hbs : Blanks bs) (h : Spells cs v) :
    Spells (cs ++ bs) v := by
  induction bs generalizing cs with
  | nil => rwa [List.append_nil]
  | cons b bs ih =>
      have hrest : Blanks bs := fun c hc => hbs c (List.mem_cons_of_mem b hc)
      have hfirst : Spells (cs ++ [b]) v := .blankAfter (hbs b List.mem_cons_self) h
      rw [List.append_cons]
      exact ih hrest hfirst

/-- The text of a member, with blanks after the colon. -/
def memberChars (gap : List Char) (chars : Json → List Char) (m : String × Json) : List Char :=
  quoted (bodyOf m.1) ++ ':' :: (gap ++ chars m.2)

section

variable {between gap after : List Char} {chars : Json → List Char}

/-- Members are spelled by the texts of their values, with the same
blanks in front of each member and after its colon. -/
theorem spellsMembers_joinWith (hbetween : Blanks between) (hgap : Blanks gap)
    (hafter : Blanks after) (m : String × Json) (members : List (String × Json))
    (h : ∀ m' ∈ m :: members, Spells (chars m'.2) m'.2) :
    SpellsMembers
      (between ++ joinWith (',' :: between) ((m :: members).map (memberChars gap chars)) ++ after)
      (bodyOf m.1) m.2 (members.map fun m => (bodyOf m.1, m.2)) := by
  have hkey := fun m : String × Json =>
    (Spells.string (body_bodyOf m.1)).blanksBefore hbetween
  induction members generalizing m with
  | nil =>
      have hvalue := (h m List.mem_cons_self).blanksBefore hgap
      have hone := SpellsMembers.one (hkey m) (hvalue.blanksAfter hafter)
      simpa [joinWith, memberChars] using hone
  | cons next members ih =>
      have hvalue := (h m List.mem_cons_self).blanksBefore hgap
      have hothers := ih next fun m' hm' => h m' (List.mem_cons_of_mem m hm')
      have hall := SpellsMembers.cons (hkey m) hvalue hothers
      simpa [joinWith, memberChars] using hall

end

/-- The members of a compact object are written one by one, without
blanks. -/
theorem compactMembers_eq (members : List (String × Json)) :
    compactMembers (members.map fun m => (bodyOf m.1, m.2))
      = members.map (memberChars [] compactChars) := by
  induction members with
  | nil => rfl
  | cons m members ih =>
      rw [List.map_cons]
      show (quoted (bodyOf m.1) ++ ':' :: compactChars m.2) :: compactMembers _ = _
      rw [ih]
      rfl

theorem indentedMembers_eq (depth : Nat) (members : List (String × Json)) :
    indentedMembers depth (members.map fun m => (bodyOf m.1, m.2))
      = members.map (memberChars [' '] (indentedChars depth)) := by
  induction members with
  | nil => rfl
  | cons m members ih =>
      rw [List.map_cons]
      show (quoted (bodyOf m.1) ++ ':' :: ' ' :: indentedChars depth m.2)
        :: indentedMembers depth _ = _
      rw [ih]
      rfl

theorem blanks_nil : Blanks [] := fun _ h => nomatch h

theorem blanks_space : Blanks [' '] := by
  intro c hc
  rw [List.mem_singleton.mp hc]
  rfl

/-- A new line with its indentation is blank. -/
theorem blanks_newLine (depth : Nat) : Blanks (newLine depth) := by
  intro c hc
  rcases List.mem_cons.mp hc with rfl | hc
  · rfl
  · rw [List.eq_of_mem_replicate hc]
    rfl

/-- The compact form of a value is one of its texts. -/
theorem Written.spells_compact (h : Written v) : Spells (compactChars v) v := by
  induction h with
  | bool b =>
      cases b with
      | true => exact .bool true
      | false => exact .bool false
  | word hn => exact .number (.natural hn)
  | text s => exact .string (body_bodyOf s)
  | @object members _ ih =>
      cases members with
      | nil => exact .emptyObject blanks_nil
      | cons m members =>
          have hmembers := spellsMembers_joinWith blanks_nil blanks_nil blanks_nil m members ih
          rw [← compactMembers_eq, List.append_nil] at hmembers
          exact .object hmembers

/-- The indented form of a value is one of its texts, at any depth. -/
theorem Written.spells_indented (h : Written v) (depth : Nat) :
    Spells (indentedChars depth v) v := by
  induction h generalizing depth with
  | bool b =>
      cases b with
      | true => exact .bool true
      | false => exact .bool false
  | word hn => exact .number (.natural hn)
  | text s => exact .string (body_bodyOf s)
  | @object members _ ih =>
      cases members with
      | nil => exact .emptyObject blanks_nil
      | cons m members =>
          have hmembers := spellsMembers_joinWith (blanks_newLine (depth + 1)) blanks_space
            (blanks_newLine depth) m members fun m' hm' => ih m' hm' (depth + 1)
          rw [← indentedMembers_eq] at hmembers
          exact .object hmembers

-- =============================================================== records

/-- A text is read back as it was written. -/
@[simp] theorem string?_ofText (s : String) : (ofText s).string? = some s := text?_bodyOf s

@[simp] theorem word64?_ofNat (w : UInt64) : (ofNat w.toNat).word64? = some w := by
  have hbelow : below? UInt64.size (ofNat w.toNat) = some w.toNat := if_pos w.toNat_lt_size
  unfold word64?
  rw [hbelow]
  simp

@[simp] theorem decodeKeys?_map_bodyOf (members : List (String × Json)) :
    decodeKeys? (members.map fun m => (bodyOf m.1, m.2)) = some members := by
  unfold decodeKeys?
  induction members with
  | nil => rfl
  | cons m members ih => simp [ih]

theorem given_cons_self (m : String × Json) (members : List (String × Json)) :
    given m.1 (m :: members) = m.2 :: given m.1 members := by
  simp [given]

theorem given_cons_of_ne {m : String × Json} {name : String} (h : m.1 ≠ name)
    (members : List (String × Json)) : given name (m :: members) = given name members := by
  simp [given, h]

/-- Among members with distinct keys, what is given for a name is what is
found under it. -/
theorem given_eq_lookup {members : List (String × Json)} (h : (members.map (·.1)).Nodup)
    (name : String) : given name members = (members.lookup name).toList := by
  induction members with
  | nil => rfl
  | cons m members ih =>
      obtain ⟨hfresh, hrest⟩ := List.nodup_cons.mp h
      by_cases hname : m.1 = name
      · subst hname
        have hnone : members.lookup m.1 = none := by
          rw [List.lookup_eq_none_iff]
          intro m' hm'
          have hother : m.1 ≠ m'.1 := by
            intro heq
            exact hfresh (List.mem_map.mpr ⟨m', hm', heq.symm⟩)
          simpa using hother
        rw [given_cons_self, ih hrest, hnone, List.lookup_cons_self]
        rfl
      · have hother : (name == m.1) = false := by
          simpa using Ne.symm hname
        rw [given_cons_of_ne hname, ih hrest, List.lookup_cons, hother]

/-- Members that are left out by their names take with them what they
give, and nothing else. -/
theorem given_filter (p : String → Bool) (name : String) (members : List (String × Json)) :
    given name (members.filter fun m => p m.1) = if p name then given name members else [] := by
  induction members with
  | nil => simp [given]
  | cons m members ih =>
      by_cases hname : m.1 = name
      · subst hname
        cases hp : p m.1 with
        | true => simpa [hp, given_cons_self] using ih
        | false => simpa [hp] using ih
      · cases hp : p m.1 with
        | true => simpa [hp, given_cons_of_ne hname] using ih
        | false => simpa [hp, given_cons_of_ne hname] using ih

/-- What is given at most once is given in any order of the members. -/
theorem given_of_perm {members others : List (String × Json)} {name : String}
    {found : Option Json} (h : members.Perm others)
    (hothers : given name others = found.toList) : given name members = found.toList := by
  have hperm : (given name members).Perm (given name others) := h.filterMap _
  rw [hothers] at hperm
  cases found with
  | none => exact List.perm_nil.mp hperm
  | some v => exact List.perm_singleton.mp hperm

/-- The fields of an object are what is given for them, at most once
each. -/
theorem record?_object {raw : List (List Char × Json)} {members : List (String × Json)}
    (hkeys : decodeKeys? raw = some members) {names : List String}
    {found : String → Option Json}
    (h : ∀ name ∈ names, given name members = (found name).toList) :
    record? names (.object raw) = some (names.map found) := by
  have hsingle : ∀ given : Option Json, single? given.toList = some given := by
    intro given
    cases given with
    | none => rfl
    | some v => rfl
  unfold record?
  simp only [hkeys, Option.bind_eq_bind, Option.bind_some]
  induction names with
  | nil => rfl
  | cons name names ih =>
      have hrest := ih fun other hother => h other (List.mem_cons_of_mem name hother)
      simp [h name List.mem_cons_self, hsingle, hrest]

/-- Fields are found under their names in an object with distinct
keys. -/
theorem record?_ofMembers {members : List (String × Json)} (h : (members.map (·.1)).Nodup)
    (names : List String) :
    record? names (ofMembers members) = some (names.map fun name => members.lookup name) :=
  record?_object (decodeKeys?_map_bodyOf members) fun name _ => given_eq_lookup h name

end Dissect.Json

/-
That the text of a memory reference says what address it is.

# Words

A text is made of words with blanks between them: names of registers,
numerals and the signs of operations (`AddressWord`). None of them has a
blank in it, and each kind of word starts with characters of its own, so a
text falls into its words again and each word is read as what it was
written for (`readWords_memoryText`). This is where the names matter:
one with a blank in it, or one that starts like a numeral, could be
taken for something else.

# Addresses

What words stand for is a sum (`AddressWord.total`), and for the words
of a reference it is the address of the reference, whatever the registers
hold (`total_words`). A text therefore has one address
(`addressIn_memoryText`), though it may be the text of two references: a
register by itself is written in the same way as base and as index. With
nothing in the registers the address is the displacement, so that can be
read off the text without knowing the registers.
-/
import Dissect.Proofs.Listing
import Dissect.Proofs.Text.Numeral
import Mathlib.Logic.Function.Basic

namespace Dissect

-- ============================================================= addresses

/-- The address of a reference, for what the registers hold. Terms that
are not there are zero, and sums wrap. -/
def MemoryOperand.address (m : MemoryOperand) (value : RegisterId → UInt64) : UInt64 :=
  (m.base.map fun r => value r.id).getD 0
    + (m.index.map fun r => value r.id).getD 0 * m.scale.toUInt64
    + m.displacement.toUInt64

/-- With all registers at zero the address is the displacement. -/
theorem MemoryOperand.address_zero (m : MemoryOperand) :
    m.address (fun _ => 0) = m.displacement.toUInt64 := by
  obtain ⟨base, index, scale, d⟩ := m
  unfold address
  cases base with
  | none => cases index <;> simp
  | some b => cases index <;> simp

/-- Names of registers that can be told apart, and told from numerals and
signs by the character they start with. -/
structure RegisterNames.Legible (names : RegisterNames) : Prop where
  injective : Function.Injective names
  starts : ∀ id, ∃ c rest, (names id).toList = c :: rest
    ∧ c ≠ '+' ∧ c ≠ '-' ∧ c ≠ '*' ∧ c.isDigit = false
  unbroken : ∀ id, ' ' ∉ (names id).toList

theorem RegisterNames.Legible.ne_empty {names : RegisterNames} (h : names.Legible)
    (id : RegisterId) : names id ≠ "" := by
  obtain ⟨c, rest, hname, -⟩ := h.starts id
  intro hempty
  simp [hempty] at hname

/-- Lower-case letters and digits, a letter first, make legible names. -/
theorem RegisterNames.Legible.of_letters {names : RegisterNames}
    (hinj : Function.Injective names)
    (hletters : ∀ id, ∃ c rest, (names id).toList = c :: rest ∧ c.isLower = true
      ∧ ∀ d ∈ rest, d.isLower = true ∨ d.isDigit = true) :
    names.Legible where
  injective := hinj
  starts := by
    intro id
    obtain ⟨c, rest, hname, hc, -⟩ := hletters id
    refine ⟨c, rest, hname, ?_, ?_, ?_, ?_⟩
    · intro h; subst h; exact absurd hc (by decide)
    · intro h; subst h; exact absurd hc (by decide)
    · intro h; subst h; exact absurd hc (by decide)
    · have hlow : 'a'.val ≤ c.val := by
        obtain ⟨hlow, -⟩ := Bool.and_eq_true_iff.mp hc
        exact of_decide_eq_true hlow
      simp only [Char.isDigit, Bool.and_eq_false_iff, decide_eq_false_iff_not]
      right
      intro hdigit
      exact absurd (UInt32.le_trans hlow hdigit) (by decide)
  unbroken := by
    intro id hblank
    obtain ⟨c, rest, hname, hc, hrest⟩ := hletters id
    rw [hname, List.mem_cons] at hblank
    rcases hblank with rfl | hblank
    · exact absurd hc (by decide)
    · exact absurd (hrest _ hblank) (by decide)

-- ================================================================= words

/-- The words of a text that stands for an address. -/
inductive AddressWord where
  | register (name : String)
  | decimal (n : Nat)
  | hex (i : Int)
  | plus
  | minus
  | times

namespace AddressWord

/-- How a word is written. -/
def text : AddressWord → String
  | .register name => name
  | .decimal n => Numeral.decimal n
  | .hex i => Numeral.signedHex i
  | .plus => "+"
  | .minus => "-"
  | .times => "*"

/-- What a word is read as. Numbers have at most 64 bits, and what is
neither a sign nor a numeral is the name of a register. -/
def read : List Char → AddressWord
  | ['+'] => .plus
  | ['-'] => .minus
  | ['*'] => .times
  | '0' :: 'x' :: digits => .hex ((Numeral.ofHex? UInt64.size digits).getD 0)
  | '-' :: '0' :: 'x' :: digits => .hex (-(Numeral.ofHex? UInt64.size digits).getD 0)
  | cs =>
    match Numeral.ofDecimal? UInt64.size cs with
    | some n => .decimal n
    | none => .register (String.ofList cs)

/-- The sum that words stand for. -/
def total (value : String → UInt64) : List AddressWord → UInt64
  | .register name :: .times :: .decimal n :: rest => value name * .ofNat n + total value rest
  | .register name :: rest => value name + total value rest
  | .minus :: .hex i :: rest => total value rest - .ofInt i
  | .hex i :: rest => .ofInt i + total value rest
  | _ :: rest => total value rest
  | [] => 0

end AddressWord

namespace MemoryOperand

/-- The words of a scale: none if it is not more than one. -/
def scaleWords (scale : UInt32) : List AddressWord :=
  if scale > 1 then [.times, .decimal scale.toNat] else []

/-- The words of the registers of a reference. -/
def registerWords (names : RegisterNames) (m : MemoryOperand) : List AddressWord :=
  match m.base, m.index with
  | none, none => []
  | some b, none => [.register (names b.id)]
  | none, some x => .register (names x.id) :: scaleWords m.scale
  | some b, some x =>
    .register (names b.id) :: .plus :: .register (names x.id) :: scaleWords m.scale

/-- The words of a displacement: behind registers its sign is an
operation. -/
def displacementWords (alone : Bool) (d : Int64) : List AddressWord :=
  if d = 0 then []
  else if alone then [.hex d.toInt]
  else [if d < 0 then .minus else .plus, .hex d.toInt.natAbs]

/-- The words of a reference: those of its registers, then those of its
displacement. -/
def words (names : RegisterNames) (m : MemoryOperand) : List AddressWord :=
  m.registerWords names ++ displacementWords m.displacementOnly m.displacement

end MemoryOperand

-- =============================================================== reading

namespace AddressWord

/-- Words that can be read back: registers have their names, and numbers
have at most 64 bits. -/
def Plain (names : RegisterNames) : AddressWord → Prop
  | .register name => ∃ id, name = names id
  | .decimal n => n < UInt64.size
  | .hex i => i.natAbs < UInt64.size
  | .plus | .minus | .times => True

variable {names : RegisterNames} {w : AddressWord}

/-- A word has no blank in its text. -/
theorem not_blank_mem_text (hnames : names.Legible) (hw : w.Plain names) :
    ' ' ∉ w.text.toList := by
  cases w with
  | register name =>
      obtain ⟨id, rfl⟩ := hw
      exact hnames.unbroken id
  | decimal n =>
      show ' ' ∉ (Numeral.decimal n).toList
      rw [Numeral.decimal, String.toList_ofList]
      exact Numeral.not_mem_toDigits (by decide) (by decide)
  | hex i =>
      have hdigits : ' ' ∉ Nat.toDigits 16 i.natAbs :=
        Numeral.not_mem_toDigits (by decide) (by decide)
      rw [text, Numeral.toList_signedHex]
      by_cases hneg : i < 0
      · simp [hneg, hdigits]
      · simp [hneg, hdigits]
  | plus => decide
  | minus => decide
  | times => decide

/-- What starts with no sign and no digit is read as a name. -/
theorem read_name (hnames : names.Legible) (id : RegisterId) :
    read (names id).toList = .register (names id) := by
  obtain ⟨c, rest, hname, hplus, hminus, htimes, hdigit⟩ := hnames.starts id
  have hvalue : Numeral.decimalDigit? c = none := by
    rw [Numeral.decimalDigit?, if_neg]
    intro h
    simp only [Char.isDigit, Bool.and_eq_false_iff, decide_eq_false_iff_not] at hdigit
    rcases hdigit with hlow | hhigh
    · exact hlow h.1
    · exact hhigh h.2
  have hof : String.ofList (c :: rest) = names id := by
    rw [← hname, String.ofList_toList]
  rw [hname]
  unfold read
  split
  -- the patterns before the last start with a sign or a digit
  case h_6 =>
      simp [Numeral.ofDecimal?, Numeral.ofDigits?, Numeral.readOnto, hvalue, hof]
  all_goals simp_all

/-- A decimal numeral has no sign and no `x` in it. -/
theorem read_decimal {n : Nat} (h : n < UInt64.size) :
    read (Nat.toDigits 10 n) = .decimal n := by
  have hplus : '+' ∉ Nat.toDigits 10 n := Numeral.not_mem_toDigits (by decide) (by decide)
  have hminus : '-' ∉ Nat.toDigits 10 n := Numeral.not_mem_toDigits (by decide) (by decide)
  have htimes : '*' ∉ Nat.toDigits 10 n := Numeral.not_mem_toDigits (by decide) (by decide)
  have hx : 'x' ∉ Nat.toDigits 10 n := Numeral.not_mem_toDigits (by decide) (by decide)
  unfold read
  split
  case h_6 => rw [Numeral.ofDecimal?_toDigits h]
  all_goals simp_all

theorem read_text (hnames : names.Legible) (hw : w.Plain names) : read w.text.toList = w := by
  cases w with
  | register name =>
      obtain ⟨id, rfl⟩ := hw
      exact read_name hnames id
  | decimal n =>
      rw [text, Numeral.decimal, String.toList_ofList]
      exact read_decimal hw
  | hex i =>
      have hdigits : Numeral.ofHex? UInt64.size (Nat.toDigits 16 i.natAbs) = some i.natAbs :=
        Numeral.ofHex?_toDigits hw
      rw [text, Numeral.toList_signedHex]
      by_cases hneg : i < 0
      · have habs : -(i.natAbs : Int) = i := by omega
        rw [if_pos hneg]
        show AddressWord.hex (-(Numeral.ofHex? UInt64.size (Nat.toDigits 16 i.natAbs)).getD 0) = _
        rw [hdigits, Option.getD_some, habs]
      · have habs : (i.natAbs : Int) = i := by omega
        rw [if_neg hneg]
        show AddressWord.hex ((Numeral.ofHex? UInt64.size (Nat.toDigits 16 i.natAbs)).getD 0) = _
        rw [hdigits, Option.getD_some, habs]
  | plus => rfl
  | minus => rfl
  | times => rfl

/-- Words one after the other, blanks between them. -/
def phrase (ws : List AddressWord) : String := " ".intercalate (ws.map text)

/-- The words that blanks cut a text into. -/
def ofPhrase (cs : List Char) : List AddressWord := (cs.splitOn ' ').map read

@[simp]
theorem phrase_singleton (w : AddressWord) : phrase [w] = w.text :=
  String.intercalate_singleton

@[simp]
theorem phrase_cons_cons (w v : AddressWord) (ws : List AddressWord) :
    phrase (w :: v :: ws) = w.text ++ " " ++ phrase (v :: ws) :=
  String.intercalate_cons_cons

theorem phrase_append {ws vs : List AddressWord} (hws : ws ≠ []) (hvs : vs ≠ []) :
    phrase (ws ++ vs) = phrase ws ++ " " ++ phrase vs := by
  rw [phrase, List.map_append,
    String.intercalate_append_of_ne_nil (by simpa using hws) (by simpa using hvs)]
  rfl

/-- Words are read back from their phrase, since none of them has a
blank. -/
theorem ofPhrase_phrase (hnames : names.Legible) {ws : List AddressWord} (hne : ws ≠ [])
    (hws : ∀ w ∈ ws, w.Plain names) : ofPhrase (phrase ws).toList = ws := by
  have hblank : ∀ cs ∈ (ws.map text).map String.toList, ' ' ∉ cs := by
    intro cs hcs
    simp only [List.map_map, List.mem_map] at hcs
    obtain ⟨w, hw, rfl⟩ := hcs
    exact not_blank_mem_text hnames (hws w hw)
  rw [ofPhrase, phrase, String.toList_intercalate]
  show (List.splitOn ' ' ([' '].intercalate _)).map read = ws
  rw [List.splitOn_intercalate ' ' hblank (by simpa using hne), List.map_map, List.map_map]
  conv => rhs; rw [← List.map_id ws]
  apply List.map_congr_left
  intro w hw
  exact read_text hnames (hws w hw)

end AddressWord

namespace MemoryOperand

variable {names : RegisterNames}

theorem registerWords_eq_nil_iff {m : MemoryOperand} :
    m.registerWords names = [] ↔ m.displacementOnly = true := by
  unfold registerWords displacementOnly
  cases m.base with
  | none => cases m.index <;> simp
  | some b => cases m.index <;> simp

/-- Only the absolute reference to zero has no words at all. -/
theorem words_eq_nil_iff {m : MemoryOperand} :
    m.words names = [] ↔ m.displacementOnly = true ∧ m.displacement = 0 := by
  rw [words, List.append_eq_nil_iff, registerWords_eq_nil_iff]
  unfold displacementWords
  by_cases hzero : m.displacement = 0
  · simp [hzero]
  · cases m.displacementOnly <;> simp [hzero]

/-- All words of a reference can be read back. -/
theorem plain_of_mem_words (m : MemoryOperand) :
    ∀ w ∈ m.words names, w.Plain names := by
  have hscale : ∀ w ∈ scaleWords m.scale, w.Plain names := by
    intro w hw
    unfold scaleWords at hw
    split at hw
    · simp only [List.mem_cons, List.not_mem_nil, or_false] at hw
      rcases hw with rfl | rfl
      · trivial
      · exact Nat.lt_trans m.scale.toNat_lt (by decide)
    · simp at hw
  have hregister : ∀ r : Register, (AddressWord.register (names r.id)).Plain names :=
    fun r => ⟨r.id, rfl⟩
  intro w hw
  rw [words, List.mem_append] at hw
  rcases hw with hw | hw
  · unfold registerWords at hw
    split at hw <;> grind [AddressWord.Plain]
  · have habs : m.displacement.toInt.natAbs < UInt64.size := by
      have hlt := m.displacement.toInt_lt
      have hle := m.displacement.le_toInt
      have hsize : UInt64.size = 2 ^ 64 := rfl
      omega
    unfold displacementWords at hw
    grind [AddressWord.Plain]

end MemoryOperand

namespace Listing

open MemoryOperand AddressWord

variable {names : RegisterNames}

theorem registerPart_eq_phrase (hnames : ∀ id, names id ≠ "") (m : MemoryOperand) :
    registerPart ⟨names, none⟩ m = phrase (m.registerWords names) := by
  obtain ⟨base, index, scale, d⟩ := m
  have hscale : ∀ name, phrase (.register name :: scaleWords scale)
      = name ++ if scale > 1 then " * " ++ Numeral.decimal scale.toNat else "" := by
    intro name
    unfold scaleWords
    split
    · apply String.toList_inj.mp
      simp [text]
    · simp [text]
  unfold registerPart registerWords
  cases base with
  | none =>
      cases index with
      | none => rfl
      | some x => simp [hscale]
  | some b =>
      cases index with
      | none => simp [text]
      | some x =>
          apply String.toList_inj.mp
          simp [hscale, hnames, text]

/-- Registers and displacement are written as the phrase of all words. -/
theorem withDisplacement_eq_phrase (hnames : ∀ id, names id ≠ "") (m : MemoryOperand) :
    withDisplacement ⟨names, none⟩ m.displacement (registerPart ⟨names, none⟩ m)
      = phrase (m.words names) := by
  have hpart := registerPart_eq_phrase hnames m
  have hempty := registerPart_eq_empty_iff (l := ⟨names, none⟩) hnames m
  have hname : symbolName? ⟨names, none⟩ m.displacement.toUInt64 = none := rfl
  unfold withDisplacement words displacementWords
  by_cases hzero : m.displacement = 0
  · rw [if_pos hzero, if_pos hzero, List.append_nil]
    exact hpart
  rw [if_neg hzero, if_neg hzero, hname]
  by_cases honly : m.displacementOnly = true
  · rw [hempty.mpr honly, if_pos honly, registerWords_eq_nil_iff.mpr honly, List.nil_append,
      phrase_singleton]
    rfl
  · have hwords : m.registerWords names ≠ [] := fun h => honly (registerWords_eq_nil_iff.mp h)
    have hsome : (registerPart ⟨names, none⟩ m).isEmpty = false := by
      rw [String.isEmpty_eq_false_iff]
      exact fun h => honly (hempty.mp h)
    rw [hsome, if_neg honly, phrase_append hwords (by simp), ← hpart]
    apply String.toList_inj.mp
    generalize m.displacement.toInt.natAbs = magnitude
    by_cases hneg : m.displacement < 0
    · simp [hneg, text, Numeral.signedHex]
    · simp [hneg, text, Numeral.signedHex]

/-- The text of a reference is its words in brackets. -/
theorem memoryText_eq_phrase (hnames : ∀ id, names id ≠ "") (m : MemoryOperand) :
    memoryText ⟨names, none⟩ m
      = if m.words names = [] then "" else "[" ++ phrase (m.words names) ++ "]" := by
  have hempty : phrase (m.words names) = "" ↔ m.words names = [] := by
    rw [← withDisplacement_eq_phrase hnames, withDisplacement_eq_empty_iff,
      registerPart_eq_empty_iff hnames, words_eq_nil_iff]
    simp [symbolName?]
  unfold memoryText
  rw [withDisplacement_eq_phrase hnames]
  simp [String.isEmpty_iff, hempty]

/-- The words of a text in brackets. -/
def readWords (text : String) : List AddressWord :=
  if text = "" then [] else ofPhrase (text.toList.drop 1).dropLast

/-- The words of a reference are read back from its text. -/
theorem readWords_memoryText (hnames : names.Legible) (m : MemoryOperand) :
    readWords (memoryText ⟨names, none⟩ m) = m.words names := by
  rw [memoryText_eq_phrase hnames.ne_empty]
  by_cases hnil : m.words names = []
  · rw [if_pos hnil, hnil]
    rfl
  · rw [if_neg hnil, readWords, if_neg (by simp)]
    have hinner : (("[" ++ phrase (m.words names) ++ "]").toList.drop 1).dropLast
        = (phrase (m.words names)).toList := by
      simp
    rw [hinner, ofPhrase_phrase hnames hnil m.plain_of_mem_words]

end Listing

-- ================================================================= sums

/-- The word of a signed number is the number, wrapped. -/
theorem uint64_ofInt_toInt (d : Int64) : UInt64.ofInt d.toInt = d.toUInt64 := by
  have hint : d.toInt = d.toUInt64.toNat ∨ d.toInt = d.toUInt64.toNat - 2 ^ 64 := by
    have hnat : d.toBitVec.toNat = d.toUInt64.toNat := rfl
    rw [← Int64.toInt_toBitVec, BitVec.toInt, hnat]
    split <;> omega
  have hlt := d.toUInt64.toNat_lt
  apply UInt64.toNat_inj.mp
  rw [UInt64.ofInt, UInt64.toNat_ofNat']
  omega

namespace MemoryOperand

open AddressWord

variable (value : String → UInt64) {names : RegisterNames}

/-- A displacement is worth itself, with its sign before it or in it. -/
theorem total_displacementWords (alone : Bool) (d : Int64) :
    total value (displacementWords alone d) = d.toUInt64 := by
  unfold displacementWords
  by_cases hzero : d = 0
  · rw [if_pos hzero, hzero]
    rfl
  rw [if_neg hzero]
  cases alone with
  | true => simp [total, uint64_ofInt_toInt]
  | false =>
      by_cases hneg : d < 0
      · have habs : (d.toInt.natAbs : Int) = -d.toInt := by
          have hless := Int64.lt_iff_toInt_lt.mp hneg
          have hnone : (0 : Int64).toInt = 0 := rfl
          omega
        simp [hneg, total, habs, UInt64.ofInt_neg, uint64_ofInt_toInt]
      · have habs : (d.toInt.natAbs : Int) = d.toInt := by
          have hless : ¬ d.toInt < (0 : Int64).toInt := fun h => hneg (Int64.lt_iff_toInt_lt.mpr h)
          have hnone : (0 : Int64).toInt = 0 := rfl
          omega
        simp [hneg, total, habs, uint64_ofInt_toInt]

/-- Words that do not start with a factor add to a register. -/
theorem total_register_displacementWords (name : String) (alone : Bool) (d : Int64) :
    total value (.register name :: displacementWords alone d) = value name + d.toUInt64 := by
  rw [← total_displacementWords value alone d]
  unfold displacementWords
  split
  · simp [total]
  · cases alone with
    | true => simp [total]
    | false => by_cases hneg : d < 0 <;> simp [hneg, total]

/-- A register is worth its value times the scale. -/
theorem total_register_scaleWords {scale : UInt32} (hscale : 1 ≤ scale) (name : String)
    (alone : Bool) (d : Int64) :
    total value (.register name :: (scaleWords scale ++ displacementWords alone d))
      = value name * scale.toUInt64 + d.toUInt64 := by
  unfold scaleWords
  by_cases hmore : scale > 1
  · rw [if_pos hmore]
    have hfactor : UInt64.ofNat scale.toNat = scale.toUInt64 := by simp
    simp only [List.cons_append, List.nil_append, total, total_displacementWords, hfactor]
  · have hone : scale = 1 := by
      exact UInt32.le_antisymm (UInt32.not_lt.mp hmore) hscale
    rw [if_neg hmore, List.nil_append, total_register_displacementWords, hone]
    simp

/-- The words of a reference stand for its address. -/
theorem total_words {m : MemoryOperand} (hscale : 1 ≤ m.scale) :
    total value (m.words names) = m.address fun id => value (names id) := by
  obtain ⟨base, index, scale, d⟩ := m
  unfold words registerWords address
  cases base with
  | none =>
      cases index with
      | none => simp [total_displacementWords]
      | some x => simp [total_register_scaleWords value hscale]
  | some b =>
      cases index with
      | none => simp [total_register_displacementWords]
      | some x =>
          simp [total, total_register_scaleWords value hscale, UInt64.add_assoc]

end MemoryOperand

namespace Listing

variable {names : RegisterNames}

/-- The address that a text stands for, for what registers of these names
hold. -/
def addressIn (value : String → UInt64) (text : String) : UInt64 :=
  AddressWord.total value (readWords text)

/-- The displacement in a text: what is left when the registers hold
nothing. -/
def displacementIn (text : String) : Int64 := (addressIn (fun _ => 0) text).toInt64

/-- The address that a text gives is the address of its reference. -/
theorem addressIn_memoryText (hnames : names.Legible) {m : MemoryOperand}
    (hscale : 1 ≤ m.scale) (value : String → UInt64) :
    addressIn value (memoryText ⟨names, none⟩ m) = m.address fun id => value (names id) := by
  rw [addressIn, readWords_memoryText hnames, MemoryOperand.total_words value hscale]

/-- Names without a blank that start neither like a numeral nor like a
sign make the texts of references faithful: the displacement is in the
text, and references with one text are one address, whatever the registers
hold. -/
theorem memoryText_faithful (names : RegisterNames) (hnames : names.Legible) :
    (∀ base index scale d,
      displacementIn (memoryText ⟨names, none⟩ (.ofParts base index scale d)) = d)
    ∧ ∀ base index scale d base' index' scale' d',
      memoryText ⟨names, none⟩ (.ofParts base index scale d)
          = memoryText ⟨names, none⟩ (.ofParts base' index' scale' d') →
        ∀ value : RegisterId → UInt64,
          (MemoryOperand.ofParts base index scale d).address value
            = (MemoryOperand.ofParts base' index' scale' d').address value := by
  constructor
  · intro base index scale d
    rw [displacementIn,
      addressIn_memoryText hnames (MemoryOperand.one_le_scale_ofParts base index scale d),
      MemoryOperand.address_zero]
    exact Int64.toInt64_toUInt64 d
  · intro base index scale d base' index' scale' d' htext value
    -- by name a register holds what it holds by number: names are not shared
    have hvalue : ∀ id, Function.extend names value (fun _ => 0) (names id) = value id :=
      hnames.injective.extend_apply value _
    have haddress := congrArg (addressIn (Function.extend names value fun _ => 0)) htext
    rw [addressIn_memoryText hnames (MemoryOperand.one_le_scale_ofParts base index scale d),
      addressIn_memoryText hnames (MemoryOperand.one_le_scale_ofParts base' index' scale' d')]
      at haddress
    simpa only [hvalue] using haddress

/-- The names of registers that have none are legible. -/
theorem legible_unnamed : RegisterNames.Legible Register.unnamed := by
  apply RegisterNames.Legible.of_letters
  · intro id id' h
    have hdigits : Nat.toDigits 10 id.toNat = Nat.toDigits 10 id'.toNat := by
      apply String.ofList_injective
      simpa [Register.unnamed, Numeral.decimal] using h
    have hread := congrArg (Numeral.ofDecimal? UInt32.size) hdigits
    rw [Numeral.ofDecimal?_toDigits id.toNat_lt, Numeral.ofDecimal?_toDigits id'.toNat_lt,
      Option.some.injEq] at hread
    exact UInt32.toNat_inj.mp hread
  · intro id
    refine ⟨'r', 'e' :: 'g' :: Nat.toDigits 10 id.toNat, ?_, by decide, ?_⟩
    · simp [Register.unnamed, Numeral.decimal]
    · intro c hc
      rw [List.mem_cons, List.mem_cons] at hc
      rcases hc with rfl | rfl | hc
      · exact Or.inl (by decide)
      · exact Or.inl (by decide)
      · obtain ⟨d, hd, rfl⟩ := Numeral.exists_digitChar_of_mem (by decide) hc
        have hdigits : ∀ d < 10, (Nat.digitChar d).isDigit = true := by decide
        exact Or.inr (hdigits d hd)

/-- The least displacement there is can be read off, and a register by itself
is one address as base and as index. -/
theorem memoryText_faithful_unnamed :
    RegisterNames.Legible Register.unnamed
      ∧ displacementIn (memoryText ⟨Register.unnamed, none⟩
          (.ofParts (some ⟨1, 0⟩) (some ⟨2, 0⟩) 4 Int64.minValue)) = Int64.minValue
      ∧ ∀ value, (MemoryOperand.ofParts (some ⟨1, 0⟩) none 4 (-16)).address value
          = (MemoryOperand.ofParts none (some ⟨1, 0⟩) 0 (-16)).address value := by
  have h := memoryText_faithful Register.unnamed legible_unnamed
  refine ⟨legible_unnamed, h.1 _ _ _ _, h.2 _ _ _ _ _ _ _ _ ?_⟩
  decide

end Listing

end Dissect

/-
That segment flags are read back from their text.

# Bits

Each name stands for one bit, which a set of flags has or has not
(`Bit`). Taking the named bits away one after the other leaves the
unnamed ones, and at each step what was taken and what is left make up
the flags (`union_foldl_or`). So the named flags that are set and the
unnamed bits together are the flags, with nothing lost and nothing
added.

# Text

A name and a hexadecimal numeral are words, so the parts are found again
between the separators (`ofText?_text`), and each part is read as the
bits it was written for.
-/
import Dissect.Proofs.Text.Blank
import Dissect.Proofs.Text.Numeral
import Dissect.Segment.Flags
import Mathlib.Data.Nat.Bitwise

namespace Dissect.SegmentFlags

variable {f : SegmentFlags}

-- ================================================================== bits

/-- A mask of a single bit: of any flags it takes all or nothing. -/
def Bit (mask : UInt32) : Prop := ∀ bits : UInt32, bits &&& mask = mask ∨ bits &&& mask = 0

theorem bit_of_eq_two_pow {mask : UInt32} {k : Nat} (h : mask.toNat = 2 ^ k) : Bit mask := by
  intro bits
  have hand : (bits &&& mask).toNat = (bits.toNat.testBit k).toNat * 2 ^ k := by
    rw [UInt32.toNat_and, h, Nat.and_two_pow]
  cases hbit : bits.toNat.testBit k with
  | true =>
      left
      apply UInt32.toNat_inj.mp
      rw [hand, hbit, h]
      simp
  | false =>
      right
      apply UInt32.toNat_inj.mp
      rw [hand, hbit]
      simp

theorem bit_of_mem_named : ∀ n ∈ named, Bit n.2.bits := by
  intro n hn
  simp only [named, List.mem_cons, List.not_mem_nil, or_false] at hn
  rcases hn with rfl | rfl | rfl | rfl | rfl
  · exact bit_of_eq_two_pow (k := 0) rfl
  · exact bit_of_eq_two_pow (k := 1) rfl
  · exact bit_of_eq_two_pow (k := 4) rfl
  · exact bit_of_eq_two_pow (k := 5) rfl
  · exact bit_of_eq_two_pow (k := 6) rfl

/-- Taking bits that are set moves them from what is left. -/
theorem or_take_set {taken left bits mask : UInt32} (h : taken ||| left = bits)
    (hset : bits &&& mask = mask) : taken ||| mask ||| (left &&& ~~~ mask) = bits := by
  subst h
  apply UInt32.eq_of_toBitVec_eq
  ext i hi
  have hbit := congrArg (fun word : UInt32 => word.toBitVec[i]) hset
  simp at hbit ⊢
  grind

/-- Taking bits that are not set leaves everything as it is. -/
theorem or_take_unset {taken left bits mask : UInt32} (h : taken ||| left = bits)
    (hunset : bits &&& mask = 0) : taken ||| (left &&& ~~~ mask) = bits := by
  subst h
  apply UInt32.eq_of_toBitVec_eq
  ext i hi
  have hbit := congrArg (fun word : UInt32 => word.toBitVec[i]) hunset
  simp at hbit ⊢
  grind

/-- What was taken and what is left make up the flags. -/
theorem union_foldl_or {names : List (String × SegmentFlags)} (hbit : ∀ n ∈ names, Bit n.2.bits)
    {taken : SegmentFlags} {left : UInt32} (h : taken.bits ||| left = f.bits) :
    (((names.filter fun n => f.contains n.2).map (·.2)).foldl union taken).bits
        ||| names.foldl (fun bits n => bits &&& ~~~ n.2.bits) left
      = f.bits := by
  induction names generalizing taken left with
  | nil => exact h
  | cons n names ih =>
      have hn := hbit n List.mem_cons_self
      have hrest : ∀ m ∈ names, Bit m.2.bits := fun m hm => hbit m (List.mem_cons_of_mem n hm)
      rw [List.foldl_cons]
      cases hset : f.contains n.2 with
      | true =>
          rw [List.filter_cons_of_pos (by simpa using hset), List.map_cons, List.foldl_cons]
          have hbits : f.bits &&& n.2.bits = n.2.bits := by
            simpa [contains] using hset
          exact ih hrest (or_take_set h hbits)
      | false =>
          rw [List.filter_cons_of_neg (by simp [hset])]
          have hbits : f.bits &&& n.2.bits ≠ n.2.bits := by
            simpa [contains] using hset
          exact ih hrest (or_take_unset h ((hn f.bits).resolve_left hbits))

/-- The named flags that are set. -/
def chosen (f : SegmentFlags) : List (String × SegmentFlags) :=
  named.filter fun n => f.contains n.2

/-- The named flags that are set and the unnamed bits are the flags. -/
theorem union_chosen_unnamed (f : SegmentFlags) :
    ((f.chosen.map (·.2)).foldl union empty).union ⟨f.unnamed⟩ = f := by
  have hall : empty.bits ||| f.bits = f.bits := UInt32.zero_or
  have hbits := union_foldl_or bit_of_mem_named hall
  exact congrArg SegmentFlags.mk hbits

/-- The bits without a name are those outside the five of the names. -/
theorem unnamed_eq (f : SegmentFlags) : f.unnamed = f.bits &&& 0xFFFFFF8C := by
  simp only [unnamed, named, List.foldl_cons, List.foldl_nil, UInt32.and_assoc]
  rfl

-- ================================================================== text

/-- What the parts of the text stand for. -/
def meanings (f : SegmentFlags) : List SegmentFlags :=
  f.chosen.map (·.2) ++ if f.unnamed = 0 then [] else [⟨f.unnamed⟩]

/-- The meanings of flags add up to them. -/
theorem foldl_union_meanings (f : SegmentFlags) : f.meanings.foldl union empty = f := by
  have hall := union_chosen_unnamed f
  unfold meanings
  rw [List.foldl_append]
  split
  · next hzero =>
    rw [hzero] at hall
    have hnone : ∀ g : SegmentFlags, g.union ⟨0⟩ = g :=
      fun g => congrArg SegmentFlags.mk UInt32.or_zero
    rw [hnone] at hall
    exact hall
  · exact hall

theorem toList_hex (n : Nat) : (Numeral.hex n).toList = '0' :: 'x' :: Nat.toDigits 16 n := by
  simp [Numeral.hex, Numeral.hexDigits]

/-- A numeral is read as the word it was written for. -/
theorem ofPart?_hex (w : UInt32) : ofPart? (Numeral.hex w.toNat).toList = some ⟨w⟩ := by
  have hplus : '+' ∉ Nat.toDigits 16 w.toNat := Numeral.not_mem_toDigits (by decide) (by decide)
  have hnumeral : numeral? (Nat.toDigits 16 w.toNat) = some w.toNat := by
    unfold numeral?
    split
    · next digits hdigits =>
      rw [hdigits] at hplus
      exact absurd List.mem_cons_self hplus
    · exact Numeral.ofHex?_toDigits w.toNat_lt_size
  rw [toList_hex]
  show (numeral? (Nat.toDigits 16 w.toNat)).map _ = _
  rw [hnumeral]
  simp

/-- Names are read back as their flags. -/
theorem ofPart?_name : ∀ n ∈ named, ofPart? n.1.toList = some n.2 := by
  decide

/-- Each part is read as what it stands for. -/
theorem map_ofPart?_parts (f : SegmentFlags) :
    (f.parts.map String.toList).map ofPart? = f.meanings.map some := by
  have hnames : ((f.chosen.map (·.1)).map String.toList).map ofPart?
      = (f.chosen.map (·.2)).map some := by
    rw [List.map_map, List.map_map, List.map_map]
    apply List.map_congr_left
    intro n hn
    exact ofPart?_name n (List.mem_filter.mp hn).1
  have hrest : ((if f.unnamed = 0 then [] else [Numeral.hex f.unnamed.toNat]).map
        String.toList).map ofPart?
      = (if f.unnamed = 0 then [] else [SegmentFlags.mk f.unnamed]).map some := by
    split
    · rfl
    · rw [List.map_singleton, List.map_singleton, List.map_singleton, ofPart?_hex]
  unfold parts meanings
  rw [List.map_append, List.map_append, List.map_append, hrest]
  exact congrArg (· ++ _) hnames

theorem word_name {n : String × SegmentFlags} (hn : n ∈ named) : Text.Word '|' n.1.toList := by
  have hall : ∀ n ∈ named, n.1.toList ≠ [] ∧ n.1.toList.any Text.isBlank = false
      ∧ '|' ∉ n.1.toList := by
    decide
  obtain ⟨hnonempty, hsolid, hwhole⟩ := hall n hn
  refine ⟨hnonempty, ?_, hwhole⟩
  intro c hc
  rw [← Bool.not_eq_true]
  exact List.any_eq_false.mp hsolid c hc

theorem word_hex (n : Nat) : Text.Word '|' (Numeral.hex n).toList := by
  have hdigit : ∀ d < 16, Text.isBlank (Nat.digitChar d) = false := by decide
  rw [toList_hex]
  refine ⟨List.cons_ne_nil _ _, ?_, ?_⟩
  · intro c hc
    rcases List.mem_cons.mp hc with rfl | hc
    · rfl
    · rcases List.mem_cons.mp hc with rfl | hc
      · rfl
      · obtain ⟨d, hd, rfl⟩ := Numeral.exists_digitChar_of_mem (by decide) hc
        exact hdigit d hd
  · have hdigits : '|' ∉ Nat.toDigits 16 n := Numeral.not_mem_toDigits (by decide) (by decide)
    simp [hdigits]

/-- A part is a word between the separators. -/
theorem word_of_mem_parts {part : String} (h : part ∈ f.parts) : Text.Word '|' part.toList := by
  rcases List.mem_append.mp h with h | h
  · obtain ⟨n, hn, rfl⟩ := List.mem_map.mp h
    exact word_name (List.mem_filter.mp hn).1
  · split at h
    · cases h
    · rw [List.mem_singleton.mp h]
      exact word_hex _

/-- Parts are read one after the other. -/
theorem ofParts?_eq_some {parts : List (List Char)} {flags : List SegmentFlags}
    (h : (parts.map Text.trim).map ofPart? = flags.map some) :
    ofParts? parts = some (flags.foldl union empty) := by
  unfold ofParts?
  generalize empty = before
  induction parts generalizing flags before with
  | nil =>
      cases flags with
      | nil => rfl
      | cons g flags => cases h
  | cons part parts ih =>
      cases flags with
      | nil => cases h
      | cons g flags =>
          obtain ⟨hpart, hparts⟩ := List.cons.inj h
          rw [List.foldlM_cons, hpart]
          exact ih hparts (before.union g)

/-- Flags are read back from their text. -/
theorem ofText?_text (f : SegmentFlags) : ofText? f.text = some f := by
  have hword : ∀ w ∈ f.parts.map String.toList, Text.Word '|' w := by
    intro w hw
    obtain ⟨part, hpart, rfl⟩ := List.mem_map.mp hw
    exact word_of_mem_parts hpart
  have hchars : f.text.toList = Text.joined '|' (f.parts.map String.toList) :=
    String.toList_intercalate
  have hmeanings := foldl_union_meanings f
  have hparts := map_ofPart?_parts f
  unfold ofText?
  rw [hchars]
  by_cases hne : f.parts.map String.toList = []
  · rw [hne] at hparts ⊢
    have hnone : f.meanings = [] := List.map_eq_nil_iff.mp hparts.symm
    rw [hnone] at hmeanings
    rw [← hmeanings]
    rfl
  · obtain ⟨hnonempty, htrim⟩ := Text.ends_joined hne hword
    have hfound := Text.map_trim_splitAt_joined (by decide) hne hword
    dsimp only
    rw [htrim, if_neg (by simpa using hnonempty)]
    rw [← hfound] at hparts
    rw [ofParts?_eq_some hparts, hmeanings]

-- ================================================================ format

/-- The text of flags: the names of those that are set in the order of
their bits, then the other bits as one hexadecimal numeral. -/
def TextForm (f : SegmentFlags) (text : String) : Prop :=
  ∃ names : List String,
    names.Sublist ["CODE", "DATA", "READ", "WRITE", "BSS"]
      ∧ (∀ n ∈ named, n.1 ∈ names ↔ f.contains n.2 = true)
      ∧ text = " | ".intercalate (names
          ++ if f.bits &&& 0xFFFFFF8C = 0 then []
            else [Numeral.hex (f.bits &&& 0xFFFFFF8C).toNat])

/-- The text that is written has the form that is read. -/
theorem textForm_text (f : SegmentFlags) : f.TextForm f.text := by
  have hdistinct : ∀ n ∈ named, ∀ m ∈ named, m.1 = n.1 → m = n := by decide
  have hsublist : f.chosen.Sublist named := List.filter_sublist
  refine ⟨f.chosen.map (·.1), hsublist.map (·.1), ?_, ?_⟩
  · intro n hn
    rw [List.mem_map]
    constructor
    · intro hname
      obtain ⟨m, hm, hname⟩ := hname
      obtain ⟨hmem, hset⟩ := List.mem_filter.mp hm
      rw [← hdistinct n hn m hmem hname]
      exact hset
    · intro hset
      exact ⟨n, List.mem_filter.mpr ⟨hn, hset⟩, rfl⟩
  · rw [← unnamed_eq]
    rfl

end Dissect.SegmentFlags

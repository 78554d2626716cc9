/-
Thunks of the two widths import the same.

# Values

A narrow thunk has its flag in bit 31, a wide one in bit 63. `widen` is
the wide thunk that stands for the same function as a narrow one: the
flag moves and the other bits stay. What is behind the flag is the same
number (`ordinal?_widen`), and that is all that names are made of
(`importName_widen`).

# Tables

A table of narrow thunks and the table of their wide forms then have
equal names, thunk by thunk. Where the slots are mapped, both runs are
runs of the symbols of their slots, and such runs are told by the number
of symbols and the room that the limit leaves. So they define as many,
meet the limit at the same thunk, and differ in the addresses of the
slots and in nothing else.
-/
import Dissect.Proofs.Pe.ThunkTable
import Mathlib.Data.Nat.Bitwise

namespace Dissect.Pe

-- ================================================================== flags

/-- Numbers below a power of two do not have its bit. -/
theorem and_two_pow_of_lt {n k : Nat} (h : n < 2 ^ k) : n &&& 2 ^ k = 0 := by
  rw [Nat.and_two_pow, Nat.testBit_lt_two_pow h, Bool.toNat_false, Nat.zero_mul]

/-- A bit on top of a smaller number is a bit apart from it. -/
theorem two_pow_add_eq_xor {n k : Nat} (h : n < 2 ^ k) : 2 ^ k + n = n ^^^ 2 ^ k := by
  have hor := Nat.two_pow_add_eq_or_of_lt h 1
  rw [Nat.mul_one] at hor
  rw [hor]
  apply Nat.eq_of_testBit_eq
  intro j
  rw [Nat.testBit_or, Nat.testBit_xor, Nat.testBit_two_pow]
  by_cases hj : k = j
  · subst hj
    simp [Nat.testBit_lt_two_pow h]
  · simp [hj]

theorem two_pow_add_and {n k : Nat} (h : n < 2 ^ k) : (2 ^ k + n) &&& 2 ^ k = 2 ^ k := by
  rw [Nat.and_two_pow, Nat.testBit_two_pow_add_eq, Nat.testBit_lt_two_pow h]
  simp

namespace Thunk

/-- The place of the flag. -/
def flagBit : Thunk → Nat
  | .narrow => 31
  | .wide => 63

/-- The flag of a thunk is its highest bit. -/
theorem toNat_ordinalFlag (t : Thunk) : t.ordinalFlag.toNat = 2 ^ t.flagBit := by
  cases t with
  | narrow => rfl
  | wide => rfl

variable {t : Thunk} {value : UInt64} {n : Nat}

/-- No flag, no ordinal. -/
theorem ordinal?_of_lt (h : value.toNat < 2 ^ t.flagBit) : t.ordinal? value = none := by
  have hflag : value &&& t.ordinalFlag = 0 := by
    apply UInt64.toNat_inj.mp
    rw [UInt64.toNat_and, toNat_ordinalFlag, and_two_pow_of_lt h]
    rfl
  simp [ordinal?, hflag]

/-- The ordinal is what is below the flag. -/
theorem ordinal?_of_flag (hn : n < 2 ^ t.flagBit) (h : value.toNat = 2 ^ t.flagBit + n) :
    t.ordinal? value = some (.ofNat n) := by
  have hflag : value &&& t.ordinalFlag ≠ 0 := by
    intro hzero
    have hand := congrArg UInt64.toNat hzero
    rw [UInt64.toNat_and, toNat_ordinalFlag, h, two_pow_add_and hn] at hand
    exact absurd hand (Nat.pos_iff_ne_zero.mp (Nat.two_pow_pos _))
  have hrest : (value ^^^ t.ordinalFlag).toNat = n := by
    rw [UInt64.toNat_xor, toNat_ordinalFlag, h, two_pow_add_eq_xor hn, Nat.xor_assoc,
      Nat.xor_self, Nat.xor_zero]
  rw [ordinal?, if_pos (bne_iff_ne.mpr hflag), ← hrest, UInt64.ofNat_toNat]

end Thunk

-- ================================================================ widening

/-- The wide thunk of a narrow one: the same with its flag moved up. -/
def widen (v : UInt32) : UInt64 :=
  if v &&& 0x80000000 = 0 then v.toUInt64
  else (v &&& 0x7FFFFFFF).toUInt64 ||| 0x8000000000000000

/-- A narrow thunk is below its flag or is its flag and a rest. -/
theorem flag_cases (v : UInt32) :
    (v &&& 0x80000000 = 0 ∧ v.toNat < 2 ^ 31)
      ∨ (v &&& 0x80000000 ≠ 0 ∧ ∃ n < 2 ^ 31, v.toNat = 2 ^ 31 + n) := by
  by_cases h : v.toNat < 2 ^ 31
  · left
    refine ⟨UInt32.toNat_inj.mp ?_, h⟩
    rw [UInt32.toNat_and]
    exact and_two_pow_of_lt h
  · right
    have hlt := v.toNat_lt
    have hrest : v.toNat - 2 ^ 31 < 2 ^ 31 := by omega
    have hv : v.toNat = 2 ^ 31 + (v.toNat - 2 ^ 31) := by omega
    refine ⟨fun hzero => ?_, v.toNat - 2 ^ 31, hrest, hv⟩
    have hand := congrArg UInt32.toNat hzero
    rw [UInt32.toNat_and, hv] at hand
    exact absurd ((two_pow_add_and hrest).symm.trans hand) (by decide)

/-- A widened ordinal keeps its number and has the wider flag. -/
theorem toNat_widen_of_flag {v : UInt32} {n : Nat} (hflag : v &&& 0x80000000 ≠ 0)
    (hn : n < 2 ^ 31) (h : v.toNat = 2 ^ 31 + n) : (widen v).toNat = 2 ^ 63 + n := by
  have hlow : (v &&& 0x7FFFFFFF).toNat = n := by
    rw [UInt32.toNat_and, h]
    show (2 ^ 31 + n) &&& (2 ^ 31 - 1) = n
    rw [Nat.and_two_pow_sub_one_eq_mod, Nat.add_mod_left, Nat.mod_eq_of_lt hn]
  have hwide : n < 2 ^ 63 := by omega
  rw [widen, if_neg hflag, UInt64.toNat_or, UInt32.toNat_toUInt64, hlow, Nat.or_comm]
  show 2 ^ 63 * 1 ||| n = 2 ^ 63 + n
  rw [← Nat.two_pow_add_eq_or_of_lt hwide 1, Nat.mul_one]

theorem toUInt64_ne_zero {v : UInt32} (h : v ≠ 0) : v.toUInt64 ≠ 0 := by
  intro hzero
  exact h (UInt32.toNat_inj.mp (congrArg UInt64.toNat hzero))

/-- Only the thunk that ends a table is widened to one that does. -/
theorem widen_ne_zero {v : UInt32} (h : v ≠ 0) : widen v ≠ 0 := by
  intro hzero
  rcases flag_cases v with ⟨hflag, -⟩ | ⟨hflag, n, hn, hv⟩
  · rw [widen, if_pos hflag] at hzero
    exact toUInt64_ne_zero h hzero
  · have hwide := toNat_widen_of_flag hflag hn hv
    rw [hzero, UInt64.toNat_zero] at hwide
    omega

/-- The two forms of a thunk have the same ordinal, or none. -/
theorem ordinal?_widen (v : UInt32) :
    Thunk.wide.ordinal? (widen v) = Thunk.narrow.ordinal? v.toUInt64 := by
  rcases flag_cases v with ⟨hflag, hv⟩ | ⟨hflag, n, hn, hv⟩
  · have hnarrow : v.toUInt64.toNat < 2 ^ 31 := hv
    have hwide : v.toUInt64.toNat < 2 ^ 63 := by omega
    rw [widen, if_pos hflag]
    exact (Thunk.ordinal?_of_lt hwide).trans (Thunk.ordinal?_of_lt hnarrow).symm
  · have hwide : n < 2 ^ 63 := by omega
    have hnarrow : v.toUInt64.toNat = 2 ^ 31 + n := hv
    rw [Thunk.ordinal?_of_flag hwide (toNat_widen_of_flag hflag hn hv)]
    exact (Thunk.ordinal?_of_flag hn hnarrow).symm

-- ================================================================== names

namespace Importer

variable {narrow wide : View} {names : OrdinalNames} {options : LoadOptions}

/-- The two forms of a thunk have the same name, if those that need a
string find the same one. -/
theorem importName_widen (names : OrdinalNames) (library : String) {v : UInt32}
    (hstring : v &&& 0x80000000 = 0 →
      ∃ name, narrow.string (v.toNat + 2) options.maxNameLength.toNat = .ok name
        ∧ wide.string (v.toNat + 2) options.maxNameLength.toNat = .ok name) :
    ∃ name,
      (⟨narrow, names, options, .narrow⟩ : Importer).importName library v.toUInt64 = .ok name
        ∧ (⟨wide, names, options, .wide⟩ : Importer).importName library (widen v) = .ok name := by
  unfold importName
  dsimp only
  rw [ordinal?_widen]
  rcases flag_cases v with ⟨hflag, hv⟩ | ⟨hflag, n, hn, hv⟩
  · -- By name: the sum is below the end of addresses, so both look there.
    obtain ⟨name, hnarrow, hwide⟩ := hstring hflag
    have hvalue : v.toUInt64.toNat < 2 ^ Thunk.narrow.flagBit := hv
    have hrva : (UInt64.ofNat (v.toNat + 2)).toNat = v.toNat + 2 :=
      UInt64.toNat_ofNat_of_lt' (by
        show v.toNat + 2 < 2 ^ 64
        omega)
    have hsum : sum? v.toUInt64 2 = some (.ofNat (v.toNat + 2)) := sum?_eq_some_iff.mpr hrva
    rw [Thunk.ordinal?_of_lt hvalue, widen, if_pos hflag, hsum]
    dsimp only
    rw [hrva, hnarrow, hwide]
    exact ⟨_, rfl, rfl⟩
  · -- By ordinal: the views have no part in it.
    have hvalue : v.toUInt64.toNat = 2 ^ Thunk.narrow.flagBit + n := hv
    rw [Thunk.ordinal?_of_flag hn hvalue]
    dsimp only [ordinalName?]
    split
    · exact ⟨_, rfl, rfl⟩
    · exact ⟨_, rfl, rfl⟩

-- ============================================================ descriptors

variable {d d' : ImportDescriptor} {file : String} {values : List UInt32}

/-- A table and its wide form list the same names. -/
theorem exists_texts (names : OrdinalNames) (file : String) (hvalues : ∀ v ∈ values, v ≠ 0)
    (hstrings : ∀ v ∈ values, v &&& 0x80000000 = 0 →
      ∃ name, narrow.string (v.toNat + 2) options.maxNameLength.toNat = .ok name
        ∧ wide.string (v.toNat + 2) options.maxNameLength.toNat = .ok name) :
    ∃ texts,
      (⟨narrow, names, options, .narrow⟩ : Importer).Names file (values.map (·.toUInt64)) texts
        ∧ (⟨wide, names, options, .wide⟩ : Importer).Names file (values.map widen) texts := by
  have hnames := fun v hv => importName_widen names (Text.lowerAscii file) (hstrings v hv)
  choose! text hnarrow hwide using hnames
  unfold Names
  refine ⟨values.map text, ?_, ?_⟩
  · rw [List.forall₂_map_left_iff, List.forall₂_map_right_iff, List.forall₂_same]
    intro v hv
    exact ⟨toUInt64_ne_zero (hvalues v hv), hnarrow v hv⟩
  · rw [List.forall₂_map_left_iff, List.forall₂_map_right_iff, List.forall₂_same]
    intro v hv
    exact ⟨widen_ne_zero (hvalues v hv), hwide v hv⟩

/-- Two runs over `count` thunks from one summary on import the same, the
one into slots of four bytes and the other into slots of eight. -/
structure Parallel (limit count slots slots' : Nat) (s : ImportSummary) (r r' : ImportRun) :
    Prop where
  fault : r.fault = none ∧ r'.fault = none
  summary : r'.summary = r.summary
  /-- Both stop at the first thunk past the limit, if there is one. -/
  length : (definitions r.steps).length = min count (limit - s.imports)
  length' : (definitions r'.steps).length = min count (limit - s.imports)
  capped : r.summary.capped = (s.capped || decide (limit - s.imports < count))
  symbol : ∀ k x x', (definitions r.steps)[k]? = some x → (definitions r'.steps)[k]? = some x' →
    x'.name = x.name ∧ x.kind = .imported ∧ x'.kind = .imported
      ∧ x.address.toNat = slots + 4 * k ∧ x'.address.toNat = slots' + 8 * k

/-- Two descriptors for one library, over a table and its wide form:
whatever was imported before them, they import the same. -/
theorem parallel_readDescriptor (s : ImportSummary) (hvalues : ∀ v ∈ values, v ≠ 0)
    (hnarrow : (⟨narrow, names, options, .narrow⟩ : Importer).Lists d file
      (values.map (·.toUInt64)))
    (hwide : (⟨wide, names, options, .wide⟩ : Importer).Lists d' file (values.map widen))
    (hstrings : ∀ v ∈ values, v &&& 0x80000000 = 0 →
      ∃ name, narrow.string (v.toNat + 2) options.maxNameLength.toNat = .ok name
        ∧ wide.string (v.toNat + 2) options.maxNameLength.toNat = .ok name) :
    Parallel options.maxImports.toNat values.length
      (narrow.base.toNat + d.slotsRva.toNat) (wide.base.toNat + d'.slotsRva.toNat) s
      ((⟨narrow, names, options, .narrow⟩ : Importer).readDescriptor s d)
      ((⟨wide, names, options, .wide⟩ : Importer).readDescriptor s d') := by
  obtain ⟨texts, hnames, hnames'⟩ := exists_texts names file hvalues hstrings
  constructor
  case fault =>
    exact ⟨hnarrow.fault_readDescriptor hnames s, hwide.fault_readDescriptor hnames' s⟩
  case summary =>
    rw [hnarrow.summary_readDescriptor hnames, hwide.summary_readDescriptor hnames',
      List.length_map, List.length_map]
    rfl
  case length =>
    rw [hnarrow.length_definitions hnames, List.length_map]
    rfl
  case length' =>
    rw [hwide.length_definitions hnames', List.length_map]
    rfl
  case capped =>
    rw [hnarrow.summary_readDescriptor hnames, List.length_map]
    rfl
  case symbol =>
    intro k x x' hx hx'
    obtain ⟨hname, hkind, haddress⟩ := hnarrow.of_mem_definitions hnames hx
    obtain ⟨hname', hkind', haddress'⟩ := hwide.of_mem_definitions hnames' hx'
    refine ⟨?_, hkind, hkind', ?_, ?_⟩
    · exact Option.some.inj (hname'.symm.trans hname)
    · rw [haddress, Nat.mul_comm]
      rfl
    · rw [haddress', Nat.mul_comm]
      rfl

-- ================================================================ a sample

/-- A library, and a name behind its hint. -/
def sampleStrings : Bytes :=
  #[0x77, 0x73, 0x32, 0x5F, 0x33, 0x32, 0x2E, 0x64, 0x6C, 0x6C, 0x00, 0x00,
    0x00, 0x00, 0x73, 0x65, 0x6E, 0x64, 0x00, 0x00]

/-- An ordinal and a name, in narrow thunks. -/
def narrowSample : Importer where
  view :=
    { data := sampleStrings
        ++ #[0x17, 0x00, 0x00, 0x80, 0x0C, 0x10, 0x00, 0x00, 0x00, 0x00, 0x00, 0x00]
      segments := [⟨".idata", 0, 0x401000, 0x402000, .empty, by decide⟩]
      base := 0x400000 }
  names := OrdinalDatabase.builtin.lookup?
  options := .default
  thunk := .narrow

/-- The same in wide thunks, at another base. -/
def wideSample : Importer where
  view :=
    { data := sampleStrings
        ++ #[0x17, 0x00, 0x00, 0x00, 0x00, 0x00, 0x00, 0x80,
             0x0C, 0x10, 0x00, 0x00, 0x00, 0x00, 0x00, 0x00,
             0x00, 0x00, 0x00, 0x00, 0x00, 0x00, 0x00, 0x00]
      segments := [⟨".idata", 0, 0x140001000, 0x140002000, .empty, by decide⟩]
      base := 0x140000000 }
  names := OrdinalDatabase.builtin.lookup?
  options := .default
  thunk := .wide

/-- Both samples have their names at one place and their slots at
another. -/
def sampleDescriptor : ImportDescriptor where
  lookupRva := 0x1014
  timestamp := 0
  forwarderChain := 0
  libraryRva := 0x1000
  slotsRva := 0x1800

/-- A descriptor with two imports, read narrow and wide. -/
theorem parallel_readDescriptor_sample :
    Parallel 10000 2 0x401800 0x140001800 {}
      (narrowSample.readDescriptor {} sampleDescriptor)
      (wideSample.readDescriptor {} sampleDescriptor) := by
  have hnarrow : narrowSample.Lists sampleDescriptor "ws2_32.dll"
      ([0x80000017, 0x100C].map (·.toUInt64)) :=
    { library := by decide +kernel
      slots := by decide
      entry := by
        intro k v hv
        match k, hv with
        | 0, rfl => decide +kernel
        | 1, rfl => decide +kernel
      stop := by decide +kernel
      slot := by
        intro k hk
        match k, hk with
        | 0, _ => exact ⟨0x401800, by decide +kernel⟩
        | 1, _ => exact ⟨0x401804, by decide +kernel⟩ }
  have hwide : wideSample.Lists sampleDescriptor "ws2_32.dll"
      ([0x80000017, 0x100C].map widen) :=
    { library := by decide +kernel
      slots := by decide
      entry := by
        intro k v hv
        match k, hv with
        | 0, rfl => decide +kernel
        | 1, rfl => decide +kernel
      stop := by decide +kernel
      slot := by
        intro k hk
        match k, hk with
        | 0, _ => exact ⟨0x140001800, by decide +kernel⟩
        | 1, _ => exact ⟨0x140001808, by decide +kernel⟩ }
  have hvalues : ∀ v ∈ [(0x80000017 : UInt32), 0x100C], v ≠ 0 := by simp
  refine parallel_readDescriptor {} hvalues hnarrow hwide ?_
  intro v hv hflag
  rcases List.mem_cons.mp hv with rfl | hv
  · exact absurd hflag (by decide)
  · obtain rfl := List.mem_singleton.mp hv
    exact ⟨"send", by decide +kernel, by decide +kernel⟩

end Importer

end Dissect.Pe

/-
How a displacement in 32-bit code is shown.

# Two extensions

The displacement is what the engine reports of the bytes
(`Raw.Encodes`). Memory at the displacement has the word as its address,
and a reference with registers has it as a signed number
(`displacement_of_bits32`). For a word in the upper half these differ as
addresses, so the symbol at the displacement is found by the first and
missed by the second (`decoded_shows`).
-/
import Dissect.Proofs.Listing
import Dissect.Proofs.X86.Subset

namespace Dissect

-- =============================================================== numbers

/-- A displacement beside a register, as a number. -/
theorem toInt_signExtended (d : UInt32) :
    d.toInt32.toInt64.toInt
      = if d.toNat < 2147483648 then (d.toNat : Int) else d.toNat - 4294967296 := by
  have hd : d.toInt32.toInt = _ := BitVec.toInt_eq_toNat_cond d.toBitVec
  rw [Int32.toInt_toInt64, hd]
  show (if 2 * d.toNat < 4294967296 then (d.toNat : Int) else d.toNat - (4294967296 : Nat)) = _
  split <;> split <;> omega

/-- A displacement beside a register, as an address: in the lower half
the same number, in the upper half another one. -/
theorem toUInt64_signExtended (d : UInt32) :
    d.toInt32.toInt64.toUInt64
      = if d < 0x80000000 then d.toUInt64 else d.toUInt64 + 0xFFFFFFFF00000000 := by
  have hd := toInt_signExtended d
  have hx : d.toInt32.toInt64.toInt = if 2 * d.toInt32.toInt64.toUInt64.toNat < 2 ^ 64
      then (d.toInt32.toInt64.toUInt64.toNat : Int)
      else d.toInt32.toInt64.toUInt64.toNat - (2 ^ 64 : Nat) :=
    BitVec.toInt_eq_toNat_cond d.toInt32.toInt64.toBitVec
  have hlt := d.toInt32.toInt64.toUInt64.toNat_lt
  have hlt' := d.toNat_lt
  rw [hx] at hd
  apply UInt64.toNat_inj.mp
  by_cases h : d < 0x80000000
  · have hnat : d.toNat < 2147483648 := UInt32.lt_iff_toNat_lt.mp h
    rw [if_pos h, UInt32.toNat_toUInt64]
    rw [if_pos hnat] at hd
    split at hd <;> omega
  · have hnat : ¬ d.toNat < 2147483648 := fun hlow => h (UInt32.lt_iff_toNat_lt.mpr hlow)
    rw [if_neg h, UInt64.toNat_add, UInt32.toNat_toUInt64]
    rw [if_neg hnat] at hd
    show _ = (d.toNat + 0xFFFFFFFF00000000) % 2 ^ 64
    split at hd <;> omega

-- =============================================================== listings

namespace Listing

variable {l : Listing}

/-- A reference with registers and a displacement: what stands behind the
registers goes by the symbol at the displacement as an address. -/
theorem memoryText_of_registers {m : MemoryOperand} (hregisters : l.registerPart m ≠ "")
    (hd : m.displacement ≠ 0) :
    l.memoryText m
      = "[" ++ (l.registerPart m
          ++ match l.symbolName? m.displacement.toUInt64 with
            | some name => " + " ++ name
            | none =>
              (if m.displacement < 0 then " - " else " + ")
                ++ Numeral.hex m.displacement.toInt.natAbs) ++ "]" := by
  unfold memoryText
  have hinner : l.withDisplacement m.displacement (l.registerPart m) ≠ "" := by
    intro h
    exact hregisters (withDisplacement_eq_empty_iff _ _ |>.mp h).1
  dsimp only
  rw [if_neg (by rwa [String.isEmpty_iff])]
  unfold withDisplacement
  rw [if_neg hd, String.isEmpty_eq_false_iff.mpr hregisters]
  cases l.symbolName? m.displacement.toUInt64 with
  | none => simp [String.append_assoc]
  | some name => simp [String.append_assoc]

/-- How a reference with registers is shown whose displacement has a
symbol: by that symbol in the lower half, and in the upper half by one at
another address or as a negative number. -/
structure ShowsBeside (l : Listing) (m : MemoryOperand) (d : UInt32) (name text : String) :
    Prop where
  registers_ne : l.registerPart m ≠ ""
  lower : d < 0x80000000 → text = "[" ++ (l.registerPart m ++ (" + " ++ name)) ++ "]"
  upper_named : ¬ d < 0x80000000 → ∀ other,
    l.symbolName? (d.toUInt64 + 0xFFFFFFFF00000000) = some other →
      text = "[" ++ (l.registerPart m ++ (" + " ++ other)) ++ "]"
  upper : ¬ d < 0x80000000 → l.symbolName? (d.toUInt64 + 0xFFFFFFFF00000000) = none →
    text = "[" ++ (l.registerPart m ++ (" - " ++ Numeral.hex (0x100000000 - d.toNat))) ++ "]"

/-- The displacement decides how the reference is shown. -/
theorem showsBeside {m : MemoryOperand} {d : UInt32} {name : String}
    (hregisters : l.registerPart m ≠ "") (hdisplacement : m.displacement = d.toInt32.toInt64)
    (hpos : 0 < d) (hname : l.symbolName? d.toUInt64 = some name) :
    l.ShowsBeside m d name (l.memoryText m) := by
  have hint := toInt_signExtended d
  rw [← hdisplacement] at hint
  have haddress := toUInt64_signExtended d
  rw [← hdisplacement] at haddress
  have hnat : 0 < d.toNat := UInt32.lt_iff_toNat_lt.mp hpos
  have hlt := d.toNat_lt
  -- in either half an extension of a word other than zero is not zero
  have hne : m.displacement ≠ 0 := by
    intro hzero
    rw [hzero, Int64.toInt_zero] at hint
    split at hint <;> omega
  rw [memoryText_of_registers hregisters hne]
  refine ⟨hregisters, ?_, ?_, ?_⟩
  · intro hlow
    rw [if_pos hlow] at haddress
    rw [haddress, hname]
  · intro hhigh other hother
    rw [if_neg hhigh] at haddress
    rw [haddress, hother]
  · intro hhigh hnone
    have hhigh' : ¬ d.toNat < 2147483648 := fun h => hhigh (UInt32.lt_iff_toNat_lt.mpr h)
    rw [if_neg hhigh] at haddress
    rw [if_neg hhigh'] at hint
    have hneg : m.displacement < 0 := by
      rw [Int64.lt_iff_toInt_lt, hint, Int64.toInt_zero]
      omega
    have habs : m.displacement.toInt.natAbs = 0x100000000 - d.toNat := by omega
    rw [haddress, hnone, if_pos hneg, habs]

end Listing

-- ========================================================== the registers

namespace Register

/-- A number without a name is shown by its number. -/
theorem unnamed_ne_empty (id : RegisterId) : unnamed id ≠ "" := by
  simp [unnamed]

/-- All of the decoder's registers have a name. -/
theorem nameByWidth_ne_empty (id : RegisterId) : nameByWidth id ≠ "" := by
  have hall : ∀ name ∈ byWidth, name ≠ "" := by decide +kernel
  unfold nameByWidth
  cases hname : byWidth[id.toNat]? with
  | none => exact unnamed_ne_empty id
  | some name => exact hall name (List.mem_of_getElem? hname)

end Register

-- ============================================================ the decoder

namespace X86

variable {r : Raw}

/-- What an engine says of memory that is encoded with a displacement in
32-bit code: the displacement is the encoded one, and the memory is not
relative to the next instruction, which 64-bit code alone has. -/
structure Raw.Encodes (r : Raw) (d : UInt32) : Prop where
  displacement : r.memoryDisplacement32 = d
  absolute : r.ipRelative = false

instance (r : Raw) (d : UInt32) : Decidable (r.Encodes d) :=
  decidable_of_iff (r.memoryDisplacement32 = d ∧ r.ipRelative = false)
    ⟨fun h => ⟨h.1, h.2⟩, fun h => ⟨h.1, h.2⟩⟩

/-- Without a register the displacement is an address as it stands. -/
theorem directAddress_of_bits32 {d : UInt32} (h : r.Encodes d) :
    r.directAddress .bits32 = d.toUInt64 := by
  rw [← h.displacement]
  rfl

/-- Beside a register the displacement has a sign. -/
theorem displacement_of_bits32 {d : UInt32} (h : r.Encodes d) :
    r.displacement .bits32 = d.toInt32.toInt64 := by
  rw [← h.displacement]
  rfl

/-- A reference with a register has it in its text. -/
theorem registerPart_ne_empty {l : Listing} (hnames : ∀ id, l.registers id ≠ "")
    (hregisters : ¬ (r.memoryBase = 0 ∧ r.memoryIndex = 0)) (scale : UInt32) (d : Int64) :
    l.registerPart (.ofParts ((register? r.memoryBase).map ({ id := · }))
      ((register? r.memoryIndex).map ({ id := · })) scale d) ≠ "" := by
  rw [Ne, Listing.registerPart_eq_empty_iff hnames]
  unfold MemoryOperand.displacementOnly MemoryOperand.ofParts register?
  by_cases hbase : r.memoryBase = 0
  · by_cases hindex : r.memoryIndex = 0
    · exact absurd ⟨hbase, hindex⟩ hregisters
    · simp [hindex]
  · simp [hbase]

/-- Memory of a 32-bit instruction with a symbol at its displacement is
shown by the symbol, unless there is a register and the displacement is in
the upper half. -/
theorem decoded_shows (e : Engine) {a : Address} {bytes : List UInt8} {i : Instruction}
    (h : (e.decoder .bits32).decode a bytes = .ok i)
    (hr : e.read .bits32 a bytes = .instruction r) {k : Nat} (hk : r.parts[k]? = some .memory)
    {d : UInt32} (hd : r.Encodes d) (hpos : 0 < d)
    (names : RegisterNames) (hnames : ∀ id, names id ≠ "")
    (table : SymbolTable) {s : Symbol} (hs : table.lookup? d.toUInt64 = some s) :
    let l : Listing := ⟨names, some table⟩
    ∃ o, i.operands[k]? = some o
      ∧ (r.memoryBase = 0 ∧ r.memoryIndex = 0 →
          o.kind = .memory d.toUInt64 ∧ l.operandText o = s.name)
      ∧ (¬ (r.memoryBase = 0 ∧ r.memoryIndex = 0) →
          ∃ m, o.kind = .displacement m ∧ l.ShowsBeside m d s.name (l.operandText o)) := by
  intro l
  have hname : l.symbolName? d.toUInt64 = some s.name := by
    simp [l, Listing.symbolName?, hs]
  -- the engine answered an instruction, so this is no placeholder
  have hi : i = r.assemble .bits32 a := by
    rcases Engine.decode_eq_ok h with ⟨r', hr', rfl⟩ | ⟨first, rest, -, hrefused, -⟩
    · rw [hr] at hr'
      cases hr'
      rfl
    · rw [hr] at hrefused
      cases hrefused
  rw [hi]
  by_cases hregisters : r.memoryBase = 0 ∧ r.memoryIndex = 0
  · refine ⟨_, Raw.getElem?_assemble hk (Raw.memory_of_direct hd.absolute hregisters) a, ?_,
      fun hsome => absurd hregisters hsome⟩
    intro _
    rw [directAddress_of_bits32 hd]
    refine ⟨rfl, ?_⟩
    show (l.symbolName? d.toUInt64).getD _ = s.name
    rw [hname]
    rfl
  · refine ⟨_, Raw.getElem?_assemble hk (Raw.memory_of_registers hd.absolute hregisters) a,
      fun hnone => absurd hnone hregisters, ?_⟩
    intro _
    exact ⟨_, rfl, Listing.showsBeside (registerPart_ne_empty hnames hregisters _ _)
      (displacement_of_bits32 hd) hpos hname⟩

-- =============================================================== a sample

/-- A table with one symbol, in the upper half. -/
def highTable : SymbolTable := SymbolTable.empty.define ⟨"g_tbl", 0x80402000, .data⟩

/-- Loads from the symbol behind `ebx`. -/
def loadBeside : List UInt8 := [0x8B, 0x83, 0x00, 0x20, 0x40, 0x80]

/-- Loads from the symbol itself. -/
def loadAt : List UInt8 := [0x8B, 0x05, 0x00, 0x20, 0x40, 0x80]

/-- What an engine answers for the load behind `ebx`. -/
def loadBesideRaw : Raw :=
  { mnemonic := "Mov", length := 6, parts := [.register 37, .memory], memoryBase := 40,
    memoryDisplacement32 := 0x80402000, memoryDisplacement64 := 0x80402000 }

/-- A load beside a base register, from an address whose symbol is
missed. -/
theorem decoded_shows_loadBeside :
    subset.read .bits32 0x80401000 loadBeside = .instruction loadBesideRaw
      ∧ loadBesideRaw.Encodes 0x80402000
      ∧ ∃ i, (subset.decoder .bits32).decode 0x80401000 loadBeside = .ok i
        ∧ ∃ o m, i.operands[1]? = some o ∧ o.kind = .displacement m
          ∧ Listing.ShowsBeside ⟨Register.nameByWidth, some highTable⟩ m 0x80402000 "g_tbl"
              (Listing.operandText ⟨Register.nameByWidth, some highTable⟩ o) := by
  have hread : subset.read .bits32 0x80401000 loadBeside = .instruction loadBesideRaw := by
    decide +kernel
  have hencodes : loadBesideRaw.Encodes 0x80402000 := by
    decide +kernel
  have hdecode : (subset.decoder .bits32).decode 0x80401000 loadBeside
      = .ok (loadBesideRaw.assemble .bits32 0x80401000) := by
    decide +kernel
  have hs : highTable.lookup? (0x80402000 : UInt32).toUInt64
      = some ⟨"g_tbl", 0x80402000, .data⟩ := by
    decide +kernel
  obtain ⟨o, ho, -, hbeside⟩ := decoded_shows subset hdecode hread (k := 1) rfl hencodes
    (by decide) Register.nameByWidth Register.nameByWidth_ne_empty highTable hs
  obtain ⟨m, hm, hshows⟩ := hbeside (by decide)
  exact ⟨hread, hencodes, _, hdecode, o, m, ho, hm, hshows⟩

/-- Both instructions have the displacement of the symbol, and the one
with a register does not show it. -/
theorem loadBeside_misses :
    (subset.read .bits32 0x80401000 loadAt).raw?.map
        (fun r => (r.parts[1]?, r.memoryDisplacement32)) = some (some .memory, 0x80402000)
      ∧ (subset.read .bits32 0x80401000 loadBeside).raw?.map
        (fun r => (r.parts[1]?, r.memoryDisplacement32)) = some (some .memory, 0x80402000)
      ∧ (highTable.lookup? 0x80402000).map (·.name) = some "g_tbl"
      ∧ ((subset.decoder .bits32).decode 0x80401000 loadAt).map
          (Listing.line ⟨(subset.decoder .bits32).registerName, some highTable⟩)
        = .ok "mov eax, g_tbl"
      ∧ ((subset.decoder .bits32).decode 0x80401000 loadBeside).map
          (Listing.line ⟨(subset.decoder .bits32).registerName, some highTable⟩)
        = .ok "mov eax, [ebx - 0x7fbfe000]" := by
  decide +kernel

end X86

end Dissect

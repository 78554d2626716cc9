/-
The import walk with bounded arithmetic.

# Tables of unknown length

Neither loop of the walk knows how long its table is: the thunks of a
library and the descriptors of an image go on until a zero. Both only
ever go on from an entry that was read, and what can be read lies within
`reach` of the image base, so the next entry is at most one width behind
the reach (`Close`). That is where every sum of the walk gets its bound
from. Nothing else in the file keeps a table from going on.

A loop that is out of fuel has gone past the last entry whose position
is a word, where a sum would have faulted; it is a fault here. `Close`
also says that the fuel lasts for longer than that.
-/
import Dissect.Proofs.Pe.Bounded.Reads
import Dissect.Proofs.Pe.Import

namespace Dissect.Pe.Bounded

/-- The thunk at a relative address, narrow or wide. -/
def readThunk (t : Thunk) (v : View) (rva : Nat) : Guarded UInt64 :=
  match t with
  | .narrow => do
    let value ← word32 v rva
    pure value.toUInt64
  | .wide => word64 v rva

/-- The import descriptor at a relative address. -/
def readDescriptorAt (v : View) (rva : Nat) : Guarded ImportDescriptor := do
  let lookupRva ← word32 v rva
  let timestamp ← fieldAt v rva 4
  let forwarderChain ← fieldAt v rva 8
  let libraryRva ← fieldAt v rva 12
  let slotsRva ← fieldAt v rva 16
  pure ⟨lookupRva, timestamp, forwarderChain, libraryRva, slotsRva⟩

/-- The name of an import: by ordinal, or the string behind the two
bytes of its hint. That sum is checked. -/
def importName (i : Importer) (library : String) (value : UInt64) : Guarded String :=
  match i.thunk.ordinal? value with
  | some ordinal =>
    match i.ordinalName? library ordinal with
    | some name => pure (qualifiedName library (.name name))
    | none => pure (qualifiedName library (.ordinal ordinal.toNat))
  | none =>
    match sum? value 2 with
    | none => fail (.unmapped value.toNat)
    | some rva => do
      let name ← string i.view rva.toNat i.options.maxNameLength.toNat
      pure (qualifiedName library (.name name))

/-- The symbol of a thunk, at its slot in the address table. -/
def symbolOf (i : Importer) (library : String) (slots index : Nat) (value : UInt64) :
    Guarded Symbol := do
  let slot ← entryAt slots index i.thunk.width
  let address ← mappedAddress i.view slot
  let name ← importName i library value
  pure ⟨name, address, .imported⟩

/-- The thunks of a library. -/
def bindThunks (i : Importer) (library : String) (names slots : Nat) :
    (fuel index : Nat) → ImportSummary → Guarded ImportSummary
  | 0, _, _ => .fault .overflow
  | fuel + 1, index, s => do
    let following ← add index 1
    let position ← entryAt names index i.thunk.width
    let value ← readThunk i.thunk i.view position
    if value = 0 then pure s
    else if i.limit ≤ s.imports then do
      note (.importLimit i.limit library)
      pure { s with capped := true }
    else do
      let symbol ← symbolOf i library slots index value
      note (.importFound symbol.address symbol.name)
      define symbol
      let imports ← add s.imports 1
      bindThunks i library names slots fuel following { s with imports := imports }

/-- The imports of one library. -/
def readDescriptor (i : Importer) (s : ImportSummary) (d : ImportDescriptor) :
    Guarded ImportSummary := do
  let file ← string i.view d.libraryRva.toNat i.options.maxNameLength.toNat
  let library := Text.lowerAscii file
  let s := { s with visualBasic := s.visualBasic || Importer.isVisualBasic library }
  if d.namesRva = 0 then pure s
  else if d.slotsRva = 0 then
    fail (.importTable ("descriptor for " ++ library ++ " has no FirstThunk"))
  else
    bindThunks i library d.namesRva.toNat d.slotsRva.toNat (entryLimit i.thunk.width) 0 s

/-- The descriptors from a relative address on. -/
def walkDescriptors (i : Importer) : (fuel rva : Nat) → ImportSummary → Guarded ImportSummary
  | 0, _, _ => .fault .overflow
  | fuel + 1, rva, s => do
    let d ← readDescriptorAt i.view rva
    if d.isNull then pure s
    else do
      let following ← add rva descriptorSize
      if d.libraryRva = 0 then do
        note (.descriptorSkipped rva)
        walkDescriptors i fuel following s
      else do
        let descriptors ← add s.descriptors 1
        let s' ← readDescriptor i { s with descriptors := descriptors } d
        if s'.capped then pure s' else walkDescriptors i fuel following s'

/-- The imports of an image, from the first descriptor on. -/
def walkImports (i : Importer) (rva : Nat) : Guarded ImportSummary := do
  let s ← walkDescriptors i (entryLimit descriptorSize) rva {}
  note (.importsWalked s.descriptors s.imports)
  pure s

-- ================================================================== reach

/-- Thunks are at least four and at most eight bytes wide. -/
theorem width_bounds (t : Thunk) : 4 ≤ t.width ∧ t.width ≤ 8 := by
  cases t with
  | narrow => decide
  | wide => decide

/-- The next entry of a table is at most one width behind the reach of
an image, and the fuel lasts for longer. -/
structure Close (width position fuel : Nat) : Prop where
  position_lt : position < reach + width
  fuel_le : reach + width ≤ position + width * fuel

namespace Close

variable {width position fuel : Nat}

/-- A table starts at a 32-bit address. -/
theorem start (hwidth : 0 < width) (hbound : width ≤ 2 ^ 32) (h : position < 2 ^ 32) :
    Close width position (entryLimit width) where
  position_lt := by
    unfold reach
    omega
  fuel_le := by
    have hfuel : 2 ^ 64 < width * entryLimit width := Nat.lt_mul_div_succ _ hwidth
    unfold reach
    omega

/-- An entry that was read is within reach, and the one behind it is
close. -/
theorem step (h : Close width position (fuel + 1)) (hread : position < reach) :
    Close width (position + width) fuel where
  position_lt := by omega
  fuel_le := by
    have hfuel := h.fuel_le
    rw [Nat.mul_succ] at hfuel
    omega

/-- The fuel is not out at a close entry. -/
theorem not_zero : ¬ Close width position 0 := by
  intro h
  have hposition := h.position_lt
  have hfuel := h.fuel_le
  rw [Nat.mul_zero] at hfuel
  omega

end Close

section Reach

variable {v : View} (hnear : v.Near) {rva : Nat}
include hnear

theorem lt_reach_of_word32 {w : UInt32} (h : v.word32 rva = .ok w) : rva < reach := by
  obtain ⟨_, hoffset, -⟩ := View.readAt_eq_ok_iff.mp h
  exact View.offset_lt_reach hnear hoffset

/-- A thunk that was read is within reach. -/
theorem lt_reach_of_thunk {t : Thunk} {value : UInt64} (h : t.read v rva = .ok value) :
    rva < reach := by
  cases t with
  | narrow =>
      unfold Thunk.read at h
      cases hword : v.word32 rva with
      | error e =>
          rw [hword] at h
          cases h
      | ok w => exact lt_reach_of_word32 hnear hword
  | wide =>
      obtain ⟨_, hoffset, -⟩ := View.readAt_eq_ok_iff.mp h
      exact View.offset_lt_reach hnear hoffset

/-- A descriptor that was read is within reach, by its first word. -/
theorem lt_reach_of_descriptor {d : ImportDescriptor} (h : ImportDescriptor.read v rva = .ok d) :
    rva < reach := by
  obtain ⟨_, hword, -⟩ := except_bind_eq_ok_iff.mp h
  exact lt_reach_of_word32 hnear hword

end Reach

-- ============================================================== agreement

section Agreement

variable {i : Importer} (hsize : i.view.data.size < sizeLimit)
include hsize

theorem readThunk_eq (rva : Nat) :
    readThunk i.thunk i.view rva = read (i.thunk.read i.view rva) := by
  unfold readThunk Thunk.read
  cases i.thunk with
  | narrow =>
      dsimp only
      rw [word32_eq hsize]
      cases i.view.word32 rva with
      | error e => rfl
      | ok w => rfl
  | wide => exact word64_eq hsize rva

/-- A descriptor is read without a fault if its last field is at a
word. -/
theorem readDescriptorAt_eq {rva : Nat} (h : rva + 16 < 2 ^ 64) :
    readDescriptorAt i.view rva = read (ImportDescriptor.read i.view rva) := by
  unfold readDescriptorAt ImportDescriptor.read
  refine read_bind (word32_eq hsize _) fun lookupRva _ => ?_
  refine read_bind (fieldAt_eq hsize (by omega)) fun timestamp _ => ?_
  refine read_bind (fieldAt_eq hsize (by omega)) fun forwarderChain _ => ?_
  refine read_bind (fieldAt_eq hsize (by omega)) fun libraryRva _ => ?_
  exact read_bind (fieldAt_eq hsize (by omega)) fun slotsRva _ => rfl

/-- Names of imports are read without a fault: the one sum is checked. -/
theorem importName_eq (library : String) (value : UInt64) :
    importName i library value = read (i.importName library value) := by
  unfold importName Importer.importName
  cases i.thunk.ordinal? value with
  | some ordinal =>
      dsimp only
      cases i.ordinalName? library ordinal with
      | some name => rfl
      | none => rfl
  | none =>
      dsimp only
      cases sum? value 2 with
      | none => rfl
      | some rva => exact read_bind (string_eq hsize _ _) fun name _ => rfl

/-- A symbol is made without a fault if its slot is at a word. -/
theorem symbolOf_eq (library : String) {slots index : Nat} (value : UInt64)
    (h : slots + index * i.thunk.width < 2 ^ 64) :
    symbolOf i library slots index value = read (i.symbolOf library slots index value) := by
  unfold symbolOf Importer.symbolOf
  rw [entryAt_bind h]
  refine read_bind (mappedAddress_eq _ _) fun address _ => ?_
  exact read_bind (importName_eq hsize _ _) fun name _ => rfl

variable (hnear : i.view.Near)
include hnear

/-- The thunks are walked without a fault: the loop is always close. -/
theorem bindThunks_eq (library : String) {names slots fuel index : Nat} (s : ImportSummary)
    (hslots : slots < 2 ^ 32)
    (hclose : Close i.thunk.width (names + index * i.thunk.width) fuel) :
    bindThunks i library names slots fuel index s
      = .within (i.bindFrom library names slots fuel index s []).toWalk := by
  induction fuel generalizing index s with
  | zero => exact absurd hclose Close.not_zero
  | succ fuel ih =>
      have hposition := hclose.position_lt
      have hwidth := width_bounds i.thunk
      have hindex : index ≤ index * i.thunk.width :=
        Nat.le_mul_of_pos_right _ (by omega)
      unfold reach at hposition
      unfold bindThunks
      rw [i.toWalk_bindFrom_succ, add_bind (by omega), entryAt_bind (by omega)]
      refine within_bind (readThunk_eq hsize _) fun value hvalue => ?_
      -- This entry was read, so the next one is close again.
      have hread := lt_reach_of_thunk hnear hvalue
      split
      · rfl
      · split
        · rfl
        · next hroom =>
          refine within_bind (symbolOf_eq hsize _ _ (by omega)) fun symbol _ => ?_
          refine within_bind rfl fun _ _ => within_bind rfl fun _ _ => ?_
          have hlimit : i.limit < 2 ^ 64 := i.options.maxImports.toNat_lt
          rw [add_bind (by omega)]
          refine ih _ ?_
          rw [Nat.add_one_mul, ← Nat.add_assoc]
          exact hclose.step hread

/-- The tables of a descriptor start at 32-bit addresses, from where the
loop over thunks is close. -/
theorem readDescriptor_eq (s : ImportSummary) (d : ImportDescriptor) :
    readDescriptor i s d = .within (i.readDescriptor s d).toWalk := by
  unfold readDescriptor
  rw [i.toWalk_readDescriptor]
  refine within_bind (string_eq hsize _ _) fun file _ => ?_
  dsimp only
  split
  · rfl
  · split
    · rfl
    · have hwidth := width_bounds i.thunk
      refine bindThunks_eq hsize hnear _ _ d.slotsRva.toNat_lt ?_
      rw [Nat.zero_mul, Nat.add_zero]
      exact .start (by omega) (by omega) d.namesRva.toNat_lt

/-- The descriptors are walked without a fault: the loop is always close,
and it has counted no more descriptors than it has passed bytes. -/
theorem walkDescriptors_eq {fuel rva : Nat} {s : ImportSummary}
    (hclose : Close descriptorSize rva fuel) (hcount : s.descriptors ≤ rva) :
    walkDescriptors i fuel rva s = .within (i.walkFrom fuel rva s []).toWalk := by
  induction fuel generalizing rva s with
  | zero => exact absurd hclose Close.not_zero
  | succ fuel ih =>
      have hposition := hclose.position_lt
      unfold reach descriptorSize at hposition
      unfold walkDescriptors
      rw [i.toWalk_walkFrom_succ]
      refine within_bind (readDescriptorAt_eq hsize (by omega)) fun d hd => ?_
      have hnext := hclose.step (lt_reach_of_descriptor hnear hd)
      split
      · rfl
      · rw [add_bind (by unfold descriptorSize; omega)]
        split
        · refine within_bind rfl fun _ _ => ih hnext ?_
          omega
        · rw [add_bind (by omega)]
          refine within_bind (readDescriptor_eq hsize hnear _ d) fun s' hs' => ?_
          -- One descriptor more is counted, and twenty bytes are passed.
          have hcount' : s'.descriptors = s.descriptors + 1 := by
            obtain ⟨-, rfl⟩ := ImportRun.toWalk_eq_ok_iff.mp hs'
            rw [Importer.descriptors_readDescriptor]
          split
          · rfl
          · refine ih hnext ?_
            unfold descriptorSize
            omega

/-- The imports are walked without a fault from any 32-bit address. -/
theorem walkImports_eq {rva : Nat} (h : rva < 2 ^ 32) :
    walkImports i rva = .within (i.walk {} rva).toWalk := by
  unfold walkImports
  rw [i.toWalk_walk]
  have hclose : Close descriptorSize rva (entryLimit descriptorSize) :=
    .start (by decide) (by decide) h
  exact within_bind (walkDescriptors_eq hsize hnear hclose (Nat.zero_le _)) fun s _ => rfl

end Agreement

end Dissect.Pe.Bounded

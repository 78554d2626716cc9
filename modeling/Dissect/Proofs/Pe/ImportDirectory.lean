/-
What an import directory holds.

# Tables

`Terminated` is a table by the places of its entries: one behind the
other from a start on, up to the first that ends it. The descriptors of
a directory and the thunks of a library are both of this kind.

# Symbols

A thunk names its symbol out of one table and has its address in the
other, so the symbol of an index has the value of that index in the
first and the slot of that index in the second (`Importer.SlotOf`). What
a value stands for is said by its bits and by what is found behind them
(`Importer.Denotes`). Both agree with how a walk makes a symbol of a
thunk (`Importer.symbolOf_eq_ok_iff`).

# The directory

`Importer.Directory` puts these together: its descriptors, and for each
of them the symbols of its thunks. It says what the image holds and
nothing of limits, accounts or the order of checks.
-/
import Dissect.Proofs.Pe.ImportName
import Dissect.Proofs.Pe.ThunkWidth

namespace Dissect.Pe

-- ================================================================ tables

/-- The entries of a table in front of the first that ends it. -/
structure Terminated {α : Type} (read : Nat → Except ImageError α) (ends : α → Prop)
    (width start : Nat) (entries : List α) : Prop where
  entry : ∀ k x, entries[k]? = some x → read (start + k * width) = .ok x ∧ ¬ ends x
  stop : ∃ x, read (start + entries.length * width) = .ok x ∧ ends x

section Terminated

variable {α : Type} {read : Nat → Except ImageError α} {ends : α → Prop} {width start : Nat}

theorem terminated_nil_iff :
    Terminated read ends width start [] ↔ ∃ x, read start = .ok x ∧ ends x := by
  constructor
  · intro h
    simpa using h.stop
  · intro h
    exact ⟨by simp, by simpa using h⟩

/-- The first entry does not end the table, and the rest starts one
width behind it. -/
theorem terminated_cons_iff {x : α} {rest : List α} :
    Terminated read ends width start (x :: rest)
      ↔ read start = .ok x ∧ ¬ ends x ∧ Terminated read ends width (start + width) rest := by
  have hshift : ∀ k, start + (k + 1) * width = start + width + k * width := by
    intro k
    rw [Nat.add_one_mul]
    omega
  constructor
  · intro h
    obtain ⟨hread, hends⟩ := h.entry 0 x rfl
    refine ⟨by simpa using hread, hends, ?_, ?_⟩
    · intro k y hy
      rw [← hshift]
      exact h.entry (k + 1) y hy
    · have hstop := h.stop
      rwa [List.length_cons, hshift] at hstop
  · rintro ⟨hread, hends, hrest⟩
    refine ⟨?_, ?_⟩
    · intro k y hy
      cases k with
      | zero =>
          obtain rfl : x = y := by simpa using hy
          exact ⟨by simpa using hread, hends⟩
      | succ k =>
          rw [hshift]
          exact hrest.entry k y hy
    · rw [List.length_cons, hshift]
      exact hrest.stop

end Terminated

namespace Importer

variable {i : Importer} {file library : String} {names slots : Nat} {value : UInt64}

-- ================================================================ thunks

/-- What a thunk calls its function: the string behind a hint, the name
of an ordinal or the ordinal itself. -/
inductive Denotes (i : Importer) (file : String) (value : UInt64) : String → Prop
  | named {name : String} (hvalue : value.toNat < 2 ^ i.thunk.flagBit)
      (hname : i.view.string (value.toNat + 2) i.options.maxNameLength.toNat = .ok name) :
      Denotes i file value name
  | known {ordinal : Nat} {name : String} (hvalue : value.toNat = 2 ^ i.thunk.flagBit + ordinal)
      (hordinal : ordinal < 2 ^ 16)
      (hname : i.names (Text.lowerAscii file) (.ofNat ordinal) = some name) :
      Denotes i file value name
  | numbered {ordinal : Nat} (hvalue : value.toNat = 2 ^ i.thunk.flagBit + ordinal)
      (hname : ordinal < 2 ^ 16 → i.names (Text.lowerAscii file) (.ofNat ordinal) = none) :
      Denotes i file value ("ord" ++ Numeral.decimal ordinal)

/-- The symbol of the thunk with an index and a value. -/
structure SlotOf (i : Importer) (file : String) (slots index : Nat) (value : UInt64)
    (x : Symbol) : Prop where
  kind_eq : x.kind = .imported
  address_eq : x.address.toNat = i.view.base.toNat + (slots + index * i.thunk.width)
  mapped : ∃ o, fileOffset? i.view.segments x.address = some o
  name_eq : ∃ text, i.Denotes file value text ∧ Qualifies file text x.name

/-- A thunk has no more bits than the flag and those below it. -/
theorem lt_of_thunk {t : Thunk} {v : View} {rva : Nat} (h : t.read v rva = .ok value) :
    value.toNat < 2 ^ (t.flagBit + 1) := by
  cases t with
  | narrow =>
      rw [Thunk.read] at h
      cases hword : v.word32 rva with
      | error e =>
          rw [hword] at h
          cases h
      | ok w =>
          rw [hword] at h
          cases h
          exact w.toNat_lt
  | wide => exact value.toNat_lt

/-- A made-up name qualifies what the function is called. -/
theorem qualifiedName_eq_iff {name : String} {n : ImportName} :
    qualifiedName (Text.lowerAscii file) n = name ↔ Qualifies file n.text name := by
  rw [← qualifies_lowerAscii, qualifies_iff]
  exact eq_comm

/-- A thunk without the flag is named by the string it points to. -/
theorem importName_eq_ok_iff_of_lt {name : String} (hvalue : value.toNat < 2 ^ i.thunk.flagBit) :
    i.importName (Text.lowerAscii file) value = .ok name
      ↔ ∃ text, i.Denotes file value text ∧ Qualifies file text name := by
  have hbits : 2 ^ i.thunk.flagBit ≤ 2 ^ 63 := by
    cases i.thunk with
    | narrow => decide
    | wide => decide
  have hsum : sum? value 2 = some (.ofNat (value.toNat + 2)) := by
    rw [sum?, if_pos]
    show value.toNat + 2 < 2 ^ 64
    omega
  have hrva : (UInt64.ofNat (value.toNat + 2)).toNat = value.toNat + 2 := sum?_eq_some_iff.mp hsum
  unfold importName
  rw [Thunk.ordinal?_of_lt hvalue, hsum]
  dsimp only
  rw [hrva, except_bind_eq_ok_iff]
  refine exists_congr fun text => and_congr ?_ ?_
  · constructor
    · exact .named hvalue
    · intro h
      cases h with
      | named _ hname => exact hname
      | known hflag => omega
      | numbered hflag => omega
  · show Except.ok (qualifiedName (Text.lowerAscii file) (.name text)) = .ok name ↔ _
    rw [Except.ok.injEq, qualifiedName_eq_iff]
    rfl

/-- Only ordinals of 16 bits are looked up. -/
theorem ordinalName?_eq_some_iff {ordinal : UInt64} {name : String} :
    i.ordinalName? library ordinal = some name
      ↔ ordinal.toNat < 2 ^ 16 ∧ i.names library (.ofNat ordinal.toNat) = some name := by
  unfold ordinalName?
  split
  · next hsmall => exact (and_iff_right hsmall).symm
  · next hlarge => simpa using fun hsmall => absurd hsmall hlarge

/-- An ordinal is called by its name in the database, if it has one. -/
theorem denotes_iff_of_flag {ordinal : Nat} {text : String}
    (hordinal : ordinal < 2 ^ i.thunk.flagBit)
    (hvalue : value.toNat = 2 ^ i.thunk.flagBit + ordinal) :
    i.Denotes file value text
      ↔ text = (match i.ordinalName? (Text.lowerAscii file) (.ofNat ordinal) with
          | some name => ImportName.name name
          | none => ImportName.ordinal (UInt64.ofNat ordinal).toNat).text := by
  have hnat : (UInt64.ofNat ordinal).toNat = ordinal := by
    have hlt := value.toNat_lt
    apply UInt64.toNat_ofNat_of_lt'
    show ordinal < 2 ^ 64
    omega
  have hfound := @ordinalName?_eq_some_iff i (Text.lowerAscii file) (.ofNat ordinal)
  rw [hnat] at hfound ⊢
  cases hcase : i.ordinalName? (Text.lowerAscii file) (.ofNat ordinal) with
  | some name =>
      obtain ⟨hsmall, hname⟩ := hfound.mp hcase
      constructor
      · intro h
        cases h with
        | named hlow => omega
        | @known n _ hflag _ hother =>
            obtain rfl : n = ordinal := by omega
            exact Option.some.inj (hother.symm.trans hname)
        | @numbered n hflag hnone =>
            obtain rfl : n = ordinal := by omega
            rw [hnone hsmall] at hname
            cases hname
      · rintro rfl
        exact .known hvalue hsmall hname
  | none =>
      have hnone : ∀ name, ordinal < 2 ^ 16 →
          i.names (Text.lowerAscii file) (.ofNat ordinal) ≠ some name := by
        intro name hsmall hname
        rw [hfound.mpr ⟨hsmall, hname⟩] at hcase
        cases hcase
      constructor
      · intro h
        cases h with
        | named hlow => omega
        | @known n _ hflag hsmall hother =>
            obtain rfl : n = ordinal := by omega
            exact absurd hother (hnone _ hsmall)
        | @numbered n hflag _ =>
            obtain rfl : n = ordinal := by omega
            rfl
      · rintro rfl
        exact .numbered hvalue fun hsmall =>
          Option.eq_none_iff_forall_ne_some.mpr fun name => hnone name hsmall

/-- A thunk with the flag is named by its ordinal, if the ordinal has a
name, else by the number. -/
theorem importName_eq_ok_iff_of_flag {name : String} {ordinal : Nat}
    (hordinal : ordinal < 2 ^ i.thunk.flagBit)
    (hvalue : value.toNat = 2 ^ i.thunk.flagBit + ordinal) :
    i.importName (Text.lowerAscii file) value = .ok name
      ↔ ∃ text, i.Denotes file value text ∧ Qualifies file text name := by
  simp only [denotes_iff_of_flag hordinal hvalue, exists_eq_left, ← qualifiedName_eq_iff]
  unfold importName
  rw [Thunk.ordinal?_of_flag hordinal hvalue]
  dsimp only
  cases i.ordinalName? (Text.lowerAscii file) (.ofNat ordinal) with
  | some found => rw [Except.ok.injEq]
  | none => rw [Except.ok.injEq]

/-- A thunk has the name it denotes, qualified by its library. -/
theorem importName_eq_ok_iff {name : String} (hvalue : value.toNat < 2 ^ (i.thunk.flagBit + 1)) :
    i.importName (Text.lowerAscii file) value = .ok name
      ↔ ∃ text, i.Denotes file value text ∧ Qualifies file text name := by
  rw [Nat.pow_succ] at hvalue
  by_cases hflag : value.toNat < 2 ^ i.thunk.flagBit
  · exact importName_eq_ok_iff_of_lt hflag
  · have hsplit : value.toNat
        = 2 ^ i.thunk.flagBit + (value.toNat - 2 ^ i.thunk.flagBit) := by omega
    exact importName_eq_ok_iff_of_flag (by omega) hsplit

theorem symbolOf_eq_ok_iff {index : Nat} {x : Symbol}
    (hvalue : value.toNat < 2 ^ (i.thunk.flagBit + 1)) :
    i.symbolOf (Text.lowerAscii file) slots index value = .ok x
      ↔ i.SlotOf file slots index value x := by
  unfold symbolOf
  simp only [except_bind_eq_ok_iff, importName_eq_ok_iff hvalue, View.mappedAddress_eq_ok_iff,
    sum?_eq_some_iff]
  constructor
  · rintro ⟨address, ⟨haddress, hmapped⟩, name, hname, h⟩
    cases h
    exact ⟨rfl, haddress, hmapped, hname⟩
  · rintro ⟨hkind, haddress, hmapped, hname⟩
    refine ⟨x.address, ⟨haddress, hmapped⟩, x.name, hname, ?_⟩
    rw [← hkind]
    rfl

/-- A table is bound to the symbols of its slots. -/
theorem binds_iff {index : Nat} {symbols : List Symbol} :
    i.Binds (Text.lowerAscii file) names slots index symbols
      ↔ ∃ values, Terminated (i.thunk.read i.view) (· = 0) i.thunk.width
            (names + index * i.thunk.width) values
          ∧ symbols.length = values.length
          ∧ ∀ k v x, values[k]? = some v → symbols[k]? = some x →
            i.SlotOf file slots (index + k) v x := by
  have hnext : ∀ n, names + n * i.thunk.width + i.thunk.width
      = names + (n + 1) * i.thunk.width := by
    intro n
    rw [Nat.add_one_mul]
    omega
  constructor
  · intro h
    induction h with
    | stop hread => exact ⟨[], terminated_nil_iff.mpr ⟨0, hread, rfl⟩, rfl, by simp⟩
    | @more index value x rest hread hvalue hsymbol _ ih =>
        obtain ⟨values, htable, hlength, hrest⟩ := ih
        refine ⟨value :: values, ?_, ?_, ?_⟩
        · rw [terminated_cons_iff, hnext]
          exact ⟨hread, hvalue, htable⟩
        · rw [List.length_cons, List.length_cons, hlength]
        · intro k v y hv hy
          cases k with
          | zero =>
              obtain rfl : value = v := by simpa using hv
              obtain rfl : x = y := by simpa using hy
              exact (symbolOf_eq_ok_iff (lt_of_thunk hread)).mp hsymbol
          | succ k =>
              rw [← Nat.add_assoc, Nat.add_right_comm]
              exact hrest k v y hv hy
  · rintro ⟨values, htable, hlength, hsymbols⟩
    induction values generalizing index symbols with
    | nil =>
        obtain rfl : symbols = [] := List.eq_nil_of_length_eq_zero hlength
        obtain ⟨v, hread, rfl⟩ := terminated_nil_iff.mp htable
        exact .stop hread
    | cons v rest ih =>
        obtain ⟨x, symbols, rfl⟩ := List.exists_cons_of_length_eq_add_one hlength
        rw [terminated_cons_iff, hnext] at htable
        obtain ⟨hread, hvalue, hrest⟩ := htable
        refine .more hread hvalue ?_ (ih hrest ?_ ?_)
        · exact (symbolOf_eq_ok_iff (lt_of_thunk hread)).mpr (hsymbols 0 v x rfl rfl)
        · simpa using hlength
        · intro k v' x' hv hx
          rw [Nat.add_right_comm, Nat.add_assoc]
          exact hsymbols (k + 1) v' x' hv hx

-- =========================================================== descriptors

/-- The file name of a descriptor's library. -/
def libraryOf (i : Importer) (d : ImportDescriptor) : Except ImageError String :=
  i.view.string d.libraryRva.toNat i.options.maxNameLength.toNat

/-- The symbols of a descriptor, in the order of its thunks. A descriptor
without a library or without a table has none. -/
inductive Imports (i : Importer) (d : ImportDescriptor) : List Symbol → Prop
  | unnamed (hname : d.libraryRva = 0) : Imports i d []
  | tableless {file : String} (hname : d.libraryRva ≠ 0) (hfile : i.libraryOf d = .ok file)
      (htable : d.namesRva = 0) : Imports i d []
  | table {file : String} {values : List UInt64} {symbols : List Symbol}
      (hname : d.libraryRva ≠ 0) (hfile : i.libraryOf d = .ok file) (hslots : d.slotsRva ≠ 0)
      (htable : Terminated (i.thunk.read i.view) (· = 0) i.thunk.width d.namesRva.toNat values)
      (hlength : symbols.length = values.length)
      (hsymbols : ∀ k v x, values[k]? = some v → symbols[k]? = some x →
        i.SlotOf file d.slotsRva.toNat k v x) : Imports i d symbols

/-- What a directory holds: its descriptors up to the all-zero one, and
the symbols of each. -/
structure Directory (i : Importer) (rva : Nat) (ds : List ImportDescriptor)
    (parts : List (List Symbol)) : Prop where
  descriptors : Terminated (ImportDescriptor.read i.view) (· = ⟨0, 0, 0, 0, 0⟩) descriptorSize
    rva ds
  imports : List.Forall₂ i.Imports ds parts

variable {d : ImportDescriptor} {ds : List ImportDescriptor} {symbols : List Symbol}
  {parts : List (List Symbol)} {rva : Nat} {s : ImportSummary}

/-- A descriptor with a library imports what its thunks bind, or nothing
if it lists none. -/
theorem imports_iff_of_named {file : String} (hname : d.libraryRva ≠ 0)
    (hfile : i.libraryOf d = .ok file) :
    i.Imports d symbols
      ↔ d.namesRva = 0 ∧ symbols = []
        ∨ d.slotsRva ≠ 0
          ∧ i.Binds (Text.lowerAscii file) d.namesRva.toNat d.slotsRva.toNat 0 symbols := by
  rw [binds_iff, Nat.zero_mul, Nat.add_zero]
  constructor
  · intro h
    cases h with
    | unnamed hnone => exact absurd hnone hname
    | tableless _ _ htable => exact .inl ⟨htable, rfl⟩
    | table _ hfile' hslots htable hlength hsymbols =>
        obtain rfl := Except.ok.inj (hfile.symm.trans hfile')
        refine .inr ⟨hslots, _, htable, hlength, fun k v x hv hx => ?_⟩
        rw [Nat.zero_add]
        exact hsymbols k v x hv hx
  · rintro (⟨htable, rfl⟩ | ⟨hslots, values, htable, hlength, hsymbols⟩)
    · exact .tableless hname hfile htable
    · refine .table hname hfile hslots htable hlength fun k v x hv hx => ?_
      have hslot := hsymbols k v x hv hx
      rwa [Nat.zero_add] at hslot

theorem directory_nil_iff :
    i.Directory rva [] parts
      ↔ ImportDescriptor.read i.view rva = .ok ⟨0, 0, 0, 0, 0⟩ ∧ parts = [] := by
  constructor
  · intro h
    obtain ⟨d, hread, rfl⟩ := terminated_nil_iff.mp h.descriptors
    exact ⟨hread, List.forall₂_nil_left_iff.mp h.imports⟩
  · rintro ⟨hread, rfl⟩
    exact ⟨terminated_nil_iff.mpr ⟨_, hread, rfl⟩, .nil⟩

/-- A directory is its first descriptor and the directory behind it. -/
theorem directory_cons_iff :
    i.Directory rva (d :: ds) (symbols :: parts)
      ↔ ImportDescriptor.read i.view rva = .ok d ∧ d ≠ ⟨0, 0, 0, 0, 0⟩ ∧ i.Imports d symbols
        ∧ i.Directory (rva + descriptorSize) ds parts := by
  constructor
  · intro h
    obtain ⟨hread, hnull, hrest⟩ := terminated_cons_iff.mp h.descriptors
    obtain ⟨hone, hparts⟩ := List.forall₂_cons.mp h.imports
    exact ⟨hread, hnull, hone, hrest, hparts⟩
  · rintro ⟨hread, hnull, hone, hrest⟩
    exact ⟨terminated_cons_iff.mpr ⟨hread, hnull, hrest.descriptors⟩, .cons hone hrest.imports⟩

end Importer

end Dissect.Pe

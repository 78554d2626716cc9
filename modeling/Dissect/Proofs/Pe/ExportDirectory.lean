/-
What an export directory holds, and that its walk defines it.

# Names

The map of names is gone from the statement: a function is called by the
last entry of the name table that is for its index, or else by its
ordinal (`ExportHeader.Called`). Entries are told by the words and the
string at their places.

# Functions

A walk reads functions until it meets one that there is no room for, so
it goes by the whole table, or by a front of it with more functions than
there is room for (`FunctionsRead`); what is behind that need not be in
the file. The functions that are there, each with its index, are those
that are neither unused nor inside the directory (`present`), and the
loop makes a symbol of each that there is room for. That it does so, and
that it succeeds only then, is one induction over the table
(`ExportContext.bound_eq_ok_iff`).
-/
import Dissect.Proofs.Pe.ExportLimit
import Dissect.Proofs.Pe.ImportName

namespace Dissect.Pe

namespace ExportHeader

variable {h : ExportHeader} {v : View} {limit count index j : Nat} {name library : String}

-- ================================================================= names

/-- An entry of the name table gives a name to the function with an
index. -/
structure Entry (h : ExportHeader) (v : View) (limit j index : Nat) (name : String) : Prop where
  index_eq : ∃ w, v.word16 (h.indicesRva.toNat + j * 2) = .ok w ∧ w.toNat = index
  name_eq : ∃ rva, v.word32 (h.namesRva.toNat + j * 4) = .ok rva
    ∧ v.string rva.toNat limit = .ok name

/-- What a function is called by the first `count` entries of the name
table. -/
inductive Called (h : ExportHeader) (v : View) (library : String) (limit count index : Nat) :
    String → Prop
  | last {j : Nat} {name : String} (hj : j < count) (hentry : h.Entry v limit j index name)
      (hlast : ∀ k, j < k → k < count → ∀ later, ¬ h.Entry v limit k index later) :
      Called h v library limit count index name
  | unnamed {name : String} (hnone : ∀ k < count, ∀ other, ¬ h.Entry v limit k index other)
      (hname : Qualifies library ("ord" ++ Numeral.decimal (h.ordinalBase.toNat + index)) name) :
      Called h v library limit count index name

theorem nameAt_eq_ok_iff :
    h.nameAt v limit j = .ok (index, name) ↔ h.Entry v limit j index name := by
  unfold nameAt
  simp only [except_bind_eq_ok_iff]
  constructor
  · rintro ⟨rva, hrva, w, hw, text, htext, heq⟩
    cases heq
    exact ⟨⟨w, hw, rfl⟩, rva, hrva, htext⟩
  · rintro ⟨⟨w, hw, rfl⟩, rva, hrva, hname⟩
    exact ⟨rva, hrva, w, hw, name, hname, rfl⟩

theorem nameFor?_eq_some_iff :
    h.nameFor? v limit index j = some name ↔ h.Entry v limit j index name := by
  rw [← nameAt_eq_ok_iff]
  unfold nameFor?
  cases h.nameAt v limit j with
  | error e => simp
  | ok found =>
      obtain ⟨i, text⟩ := found
      by_cases hi : i = index
      · simp [hi]
      · simp [hi]

/-- A later entry comes before those in front of it. -/
theorem nameAmong?_succ :
    h.nameAmong? v limit (count + 1) index
      = (h.nameFor? v limit index count).or (h.nameAmong? v limit count index) := by
  unfold nameAmong?
  rw [List.range_succ, List.filterMap_append, List.getLast?_append]
  cases hfor : h.nameFor? v limit index count with
  | none =>
      rw [List.filterMap_cons_none hfor]
      rfl
  | some text =>
      rw [List.filterMap_cons_some hfor]
      rfl

/-- A function has no name when no entry names it. -/
theorem nameAmong?_eq_none_iff :
    h.nameAmong? v limit count index = none
      ↔ ∀ k < count, ∀ other, ¬ h.Entry v limit k index other := by
  unfold nameAmong?
  rw [List.getLast?_eq_none_iff, List.filterMap_eq_nil_iff]
  simp only [List.mem_range, Option.eq_none_iff_forall_ne_some, ne_eq, nameFor?_eq_some_iff]

/-- A function has the name of the last entry that names it. -/
theorem nameAmong?_eq_some_iff :
    h.nameAmong? v limit count index = some name
      ↔ ∃ j < count, h.Entry v limit j index name
        ∧ ∀ k, j < k → k < count → ∀ later, ¬ h.Entry v limit k index later := by
  induction count with
  | zero => simp [nameAmong?]
  | succ count ih =>
      rw [nameAmong?_succ]
      cases hlast : h.nameFor? v limit index count with
      | some text =>
          have htext := nameFor?_eq_some_iff.mp hlast
          constructor
          · intro hsome
            cases hsome
            exact ⟨count, Nat.lt_succ_self _, htext, fun k hlow hhigh => by omega⟩
          · rintro ⟨j, hj, hentry, hnone⟩
            by_cases hcount : j = count
            · subst hcount
              exact hlast.symm.trans (nameFor?_eq_some_iff.mpr hentry)
            · exact absurd htext (hnone count (by omega) (Nat.lt_succ_self _) text)
      | none =>
          have hnot : ∀ later, ¬ h.Entry v limit count index later := by
            intro later hentry
            rw [nameFor?_eq_some_iff.mpr hentry] at hlast
            cases hlast
          rw [Option.none_or, ih]
          constructor
          · rintro ⟨j, hj, hentry, hnone⟩
            refine ⟨j, by omega, hentry, fun k hlow hhigh => ?_⟩
            by_cases hk : k = count
            · exact hk ▸ hnot
            · exact hnone k hlow (by omega)
          · rintro ⟨j, hj, hentry, hnone⟩
            have hne : j ≠ count := fun heq => hnot name (heq ▸ hentry)
            exact ⟨j, by omega, hentry, fun k hlow hhigh => hnone k hlow (by omega)⟩

/-- Names are read if every entry can be. -/
theorem exists_namesFrom_iff {entry : Nat} {names : Std.ExtTreeMap Nat String} :
    (∃ all, h.namesFrom v limit count entry names = .ok all)
      ↔ ∀ k < count, ∃ index name, h.Entry v limit (entry + k) index name := by
  induction count generalizing entry names with
  | zero => simp [namesFrom]
  | succ count ih =>
      rw [namesFrom]
      cases hentry : h.nameAt v limit entry with
      | error e =>
          constructor
          · rintro ⟨all, hall⟩
            cases hall
          · intro hall
            obtain ⟨index, name, hfirst⟩ := hall 0 (Nat.succ_pos _)
            rw [Nat.add_zero, ← nameAt_eq_ok_iff, hentry] at hfirst
            cases hfirst
      | ok found =>
          obtain ⟨index, name⟩ := found
          dsimp only
          rw [ih]
          constructor
          · intro hrest k hk
            cases k with
            | zero => exact ⟨index, name, nameAt_eq_ok_iff.mp hentry⟩
            | succ k =>
                rw [Nat.add_comm k, ← Nat.add_assoc]
                exact hrest k (by omega)
          · intro hall k hk
            rw [Nat.add_assoc, Nat.add_comm 1]
            exact hall (k + 1) (by omega)

end ExportHeader

/-- The context goes by the entries that it has read. -/
theorem ExportContext.nameOf_eq_iff {c : ExportContext} {limit count index : Nat} {name : String}
    (hnames : c.header.namesFrom c.view limit count 0 ∅ = .ok c.names) :
    c.nameOf index = name ↔ c.header.Called c.view c.library limit count index name := by
  unfold nameOf
  rw [ExportHeader.getElem?_eq_nameAmong? hnames]
  cases hname : c.header.nameAmong? c.view limit count index with
  | some text =>
      dsimp only
      constructor
      · rintro rfl
        obtain ⟨j, hj, hentry, hlast⟩ := ExportHeader.nameAmong?_eq_some_iff.mp hname
        exact .last hj hentry hlast
      · intro h
        cases h with
        | last hj hentry hlast =>
            rw [ExportHeader.nameAmong?_eq_some_iff.mpr ⟨_, hj, hentry, hlast⟩] at hname
            exact (Option.some.inj hname).symm
        | unnamed hnone _ =>
            rw [ExportHeader.nameAmong?_eq_none_iff.mpr hnone] at hname
            cases hname
  | none =>
      dsimp only
      have hnone := ExportHeader.nameAmong?_eq_none_iff.mp hname
      rw [eq_comm, ← qualifies_iff]
      constructor
      · exact .unnamed hnone
      · intro h
        cases h with
        | last hj hentry _ => exact absurd hentry (hnone _ hj _)
        | unnamed _ hqualifies => exact hqualifies

-- ============================================================= functions

/-- The functions of a table that are at an address, each with its index:
those that are neither unused nor inside the directory. -/
def present (directory : DataDirectory) (fs : List UInt32) (index : Nat) : List (UInt32 × Nat) :=
  (fs.zipIdx index).filter fun p =>
    p.1 ≠ 0 ∧ ¬ (directory.rva.toNat ≤ p.1.toNat
      ∧ p.1.toNat < directory.rva.toNat + directory.size.toNat)

/-- Of `count` functions from an index on, all of them or the front with
more than there is room for. -/
structure FunctionsRead (h : ExportHeader) (v : View) (directory : DataDirectory)
    (count index room : Nat) (fs : List UInt32) : Prop where
  entry : ∀ k f, fs[k]? = some f → v.word32 (h.functionsRva.toNat + (index + k) * 4) = .ok f
  length_le : fs.length ≤ count
  enough : fs.length = count ∨ room < (present directory fs index).length

section FunctionsRead

variable {h : ExportHeader} {v : View} {directory : DataDirectory} {count index room : Nat}
  {f : UInt32} {fs : List UInt32}

theorem functionsRead_zero_iff : FunctionsRead h v directory 0 index room fs ↔ fs = [] := by
  constructor
  · intro hread
    exact List.eq_nil_of_length_eq_zero (Nat.le_zero.mp hread.length_le)
  · rintro rfl
    exact ⟨by simp, Nat.le_refl _, .inl rfl⟩

/-- Something is read if there is something to be read. -/
theorem FunctionsRead.exists_cons (hread : FunctionsRead h v directory (count + 1) index room fs) :
    ∃ f rest, fs = f :: rest ∧ h.functionAt v index = .ok f := by
  cases fs with
  | nil =>
      rcases hread.enough with hlength | hroom
      · cases hlength
      · cases hroom
  | cons f rest => exact ⟨f, rest, rfl, hread.entry 0 f rfl⟩

/-- Behind the first function, with the room that it leaves. -/
theorem functionsRead_cons_iff {room' : Nat} (hf : h.functionAt v index = .ok f)
    (hroom : room < (present directory (f :: fs) index).length
      ↔ room' < (present directory fs (index + 1)).length) :
    FunctionsRead h v directory (count + 1) index room (f :: fs)
      ↔ FunctionsRead h v directory count (index + 1) room' fs := by
  have hshift : ∀ k, index + 1 + k = index + (k + 1) := by omega
  constructor
  · rintro ⟨hentry, hlength, henough⟩
    rw [List.length_cons] at hlength henough
    refine ⟨fun k g hg => ?_, by omega, ?_⟩
    · rw [hshift]
      exact hentry (k + 1) g hg
    · rw [← hroom]
      omega
  · rintro ⟨hentry, hlength, henough⟩
    refine ⟨fun k g hg => ?_, ?_, ?_⟩
    · cases k with
      | zero =>
          obtain rfl : f = g := by simpa using hg
          exact hf
      | succ k =>
          rw [← hshift]
          exact hentry k g hg
    · rw [List.length_cons]
      omega
    · rw [hroom, List.length_cons]
      omega

end FunctionsRead

-- ============================================================== the loop

namespace ExportContext

variable {c : ExportContext} {count index defined n : Nat} {f : UInt32} {fs : List UInt32}
  {symbols : List Symbol}

/-- The symbol is what the loop makes of a function with an index. -/
structure Makes (c : ExportContext) (p : UInt32 × Nat) (x : Symbol) : Prop where
  address_eq : c.view.mappedAddress p.1.toNat = .ok x.address
  symbol_eq : x = c.symbolAt (p.2, x.address)

/-- Unused and forwarded functions are left out. -/
theorem present_cons_of_absent (h : f = 0 ∨ c.isForwarder f) :
    present c.directory (f :: fs) index = present c.directory fs (index + 1) := by
  unfold present
  rw [List.zipIdx_cons, List.filter_cons_of_neg]
  simpa [isForwarder, or_iff_not_imp_left] using h

theorem present_cons_of_present (h : ¬ (f = 0 ∨ c.isForwarder f)) :
    present c.directory (f :: fs) index = (f, index) :: present c.directory fs (index + 1) := by
  unfold present
  rw [List.zipIdx_cons, List.filter_cons_of_pos]
  simpa [isForwarder, imp_iff_not_or] using h

/-- What the loop reads can be read, and there is a symbol for each
function that there is room for. -/
def Covers (c : ExportContext) (count index defined : Nat) (symbols : List Symbol) : Prop :=
  ∃ fs, FunctionsRead c.header c.view c.directory count index (c.limit - defined) fs
    ∧ List.Forall₂ c.Makes ((present c.directory fs index).take (c.limit - defined)) symbols

theorem covers_zero_iff : c.Covers 0 index defined symbols ↔ symbols = [] := by
  unfold Covers
  simp only [functionsRead_zero_iff, exists_eq_left]
  rw [present, List.zipIdx_nil, List.filter_nil, List.take_nil, List.forall₂_nil_left_iff]

/-- The first function is the one that is read first. -/
theorem covers_succ_iff (hf : c.header.functionAt c.view index = .ok f) :
    c.Covers (count + 1) index defined symbols
      ↔ ∃ rest, FunctionsRead c.header c.view c.directory (count + 1) index (c.limit - defined)
            (f :: rest)
          ∧ List.Forall₂ c.Makes ((present c.directory (f :: rest) index).take (c.limit - defined))
            symbols := by
  constructor
  · rintro ⟨fs, hread, hsymbols⟩
    obtain ⟨g, rest, rfl, hfirst⟩ := hread.exists_cons
    rw [hf] at hfirst
    cases hfirst
    exact ⟨rest, hread, hsymbols⟩
  · rintro ⟨rest, hread, hsymbols⟩
    exact ⟨f :: rest, hread, hsymbols⟩

theorem covers_succ_iff_of_absent (hf : c.header.functionAt c.view index = .ok f)
    (habsent : f = 0 ∨ c.isForwarder f) :
    c.Covers (count + 1) index defined symbols ↔ c.Covers count (index + 1) defined symbols := by
  rw [covers_succ_iff hf]
  refine exists_congr fun rest => ?_
  rw [present_cons_of_absent habsent, functionsRead_cons_iff hf]
  rw [present_cons_of_absent habsent]

/-- Without room, one function is too many. -/
theorem covers_succ_iff_of_full (hf : c.header.functionAt c.view index = .ok f)
    (hpresent : ¬ (f = 0 ∨ c.isForwarder f)) (hfull : c.limit ≤ defined) :
    c.Covers (count + 1) index defined symbols ↔ symbols = [] := by
  rw [covers_succ_iff hf, Nat.sub_eq_zero_of_le hfull]
  simp only [List.take_zero, List.forall₂_nil_left_iff]
  -- the table may be cut right behind this function
  refine ⟨fun ⟨_, _, h⟩ => h, fun h => ⟨[], ⟨?_, ?_, .inr ?_⟩, h⟩⟩
  · intro k g hg
    obtain ⟨rfl, rfl⟩ : k = 0 ∧ f = g := by simpa [List.getElem?_singleton] using hg
    exact hf
  · simp
  · rw [present_cons_of_present hpresent]
    simp

/-- A function within the limit adds its symbol before the others. -/
theorem covers_succ_iff_of_lt (hf : c.header.functionAt c.view index = .ok f)
    (hpresent : ¬ (f = 0 ∨ c.isForwarder f)) (hroom : defined < c.limit) :
    c.Covers (count + 1) index defined symbols
      ↔ ∃ x rest, c.Makes (f, index) x ∧ c.Covers count (index + 1) (defined + 1) rest
        ∧ symbols = x :: rest := by
  have hlimit : c.limit - defined = c.limit - (defined + 1) + 1 := by omega
  have hread : ∀ fs,
      FunctionsRead c.header c.view c.directory (count + 1) index (c.limit - (defined + 1) + 1)
          (f :: fs)
        ↔ FunctionsRead c.header c.view c.directory count (index + 1) (c.limit - (defined + 1))
          fs := by
    intro fs
    apply functionsRead_cons_iff hf
    rw [present_cons_of_present hpresent, List.length_cons]
    omega
  rw [covers_succ_iff hf, hlimit]
  simp only [hread, present_cons_of_present hpresent, List.take_succ_cons,
    List.forall₂_cons_left_iff]
  constructor
  · rintro ⟨fs, hfs, x, rest, hx, hrest, rfl⟩
    exact ⟨x, rest, hx, ⟨fs, hfs, hrest⟩, rfl⟩
  · rintro ⟨x, rest, hx, ⟨fs, hfs, hrest⟩, rfl⟩
    exact ⟨fs, hfs, x, rest, hx, hrest, rfl⟩

theorem ok_nil_eq_iff :
    ((.ok defined, []) : Except ImageError Nat × List Symbol) = (.ok n, symbols)
      ↔ n = defined + symbols.length ∧ symbols = [] := by
  constructor
  · intro h
    cases h
    exact ⟨rfl, rfl⟩
  · rintro ⟨rfl, rfl⟩
    rfl

/-- The loop succeeds if it covers what it is over, and defines that. -/
theorem bound_eq_ok_iff :
    c.bound count index defined = (.ok n, symbols)
      ↔ n = defined + symbols.length ∧ c.Covers count index defined symbols := by
  induction count generalizing index defined symbols with
  | zero =>
      rw [covers_zero_iff]
      exact ok_nil_eq_iff
  | succ count ih =>
      rw [bound_succ]
      cases hf : c.header.functionAt c.view index with
      | error e =>
          constructor
          · intro h
            cases h
          · rintro ⟨-, fs, hread, -⟩
            obtain ⟨f, rest, -, hfirst⟩ := hread.exists_cons
            rw [hf] at hfirst
            cases hfirst
      | ok f =>
          dsimp only
          by_cases habsent : f = 0 ∨ c.isForwarder f
          · rw [if_pos habsent, ih, covers_succ_iff_of_absent hf habsent]
          · rw [if_neg habsent]
            by_cases hfull : c.limit ≤ defined
            · rw [if_pos hfull, covers_succ_iff_of_full hf habsent hfull]
              exact ok_nil_eq_iff
            · rw [if_neg hfull, covers_succ_iff_of_lt hf habsent (Nat.not_le.mp hfull)]
              cases haddress : c.view.mappedAddress f.toNat with
              | error e =>
                  constructor
                  · intro h
                    cases h
                  · rintro ⟨-, x, rest, hx, -⟩
                    have hmapped := hx.address_eq
                    rw [haddress] at hmapped
                    cases hmapped
              | ok address =>
                  dsimp only
                  constructor
                  · intro h
                    generalize hloop : c.bound count (index + 1) (defined + 1) = loop at h
                    obtain ⟨outcome, rest⟩ := loop
                    dsimp only at h
                    cases h
                    obtain ⟨hn, hrest⟩ := ih.mp hloop
                    refine ⟨?_, _, rest, ⟨haddress, rfl⟩, hrest, rfl⟩
                    rw [hn, List.length_cons]
                    omega
                  · rintro ⟨hn, x, rest, ⟨hmapped, hx⟩, hrest, rfl⟩
                    rw [haddress] at hmapped
                    obtain rfl := Except.ok.inj hmapped
                    rw [List.length_cons] at hn
                    rw [ih.mpr ⟨(by omega : n = defined + 1 + rest.length), hrest⟩]
                    exact congrArg (fun y => (Except.ok n, y :: rest)) hx.symm

end ExportContext

-- =============================================================== the walk

/-- The symbol is that of a function with an index, by its place and by
the name table. -/
structure ExportOf (v : View) (options : LoadOptions) (h : ExportHeader) (library : String)
    (p : UInt32 × Nat) (x : Symbol) : Prop where
  kind_eq : x.kind = .exported
  address_eq : x.address.toNat = v.base.toNat + p.1.toNat
  mapped : ∃ o, fileOffset? v.segments x.address = some o
  name_eq : h.Called v library options.maxNameLength.toNat
    (min h.nameCount.toNat options.maxExports.toNat) p.2 x.name

/-- The name of the exporting library, which may have none. -/
inductive LibraryOf (v : View) (limit : Nat) (h : ExportHeader) : String → Prop
  | nameless (hname : h.nameRva = 0) : LibraryOf v limit h ""
  | named {library : String} (hname : h.nameRva ≠ 0)
      (hlibrary : v.string h.nameRva.toNat limit = .ok library) : LibraryOf v limit h library

/-- What an export directory holds for a walk: its header, the name of
the library, the entries of the name table, the functions and the symbols
of those that there is room for. -/
structure ExportTable (v : View) (directory : DataDirectory) (options : LoadOptions)
    (h : ExportHeader) (library : String) (fs : List UInt32) (symbols : List Symbol) : Prop where
  header_eq : ExportHeader.read v directory.rva.toNat = .ok h
  library_of : LibraryOf v options.maxNameLength.toNat h library
  counts_le : h.nameCount ≤ h.functionCount
  names_read : ∀ j < min h.nameCount.toNat options.maxExports.toNat,
    ∃ index name, h.Entry v options.maxNameLength.toNat j index name
  functions_read : FunctionsRead h v directory h.functionCount.toNat 0 options.maxExports.toNat fs
  symbols_of : List.Forall₂ (ExportOf v options h library)
    ((present directory fs 0).take options.maxExports.toNat) symbols

variable {v : View} {directory : DataDirectory} {options : LoadOptions} {h : ExportHeader}
  {library : String} {c : ExportContext}

theorem library_eq_ok_iff {limit : Nat} :
    h.library v limit = .ok library ↔ LibraryOf v limit h library := by
  unfold ExportHeader.library
  by_cases hname : h.nameRva = 0
  · rw [if_pos hname]
    constructor
    · intro hempty
      cases hempty
      exact .nameless hname
    · intro hof
      cases hof with
      | nameless _ => rfl
      | named hne _ => exact absurd hname hne
  · rw [if_neg hname]
    constructor
    · exact .named hname
    · intro hof
      cases hof with
      | nameless heq => exact absurd heq hname
      | named _ hlibrary => exact hlibrary

/-- What the loop makes of a function is its symbol. -/
theorem ExportContext.makes_iff {p : UInt32 × Nat} {x : Symbol}
    (hnames : c.header.namesFrom c.view options.maxNameLength.toNat
      (min c.header.nameCount.toNat options.maxExports.toNat) 0 ∅ = .ok c.names) :
    c.Makes p x ↔ ExportOf c.view options c.header c.library p x := by
  have hname : c.nameOf p.2 = x.name ↔ _ := nameOf_eq_iff hnames
  constructor
  · rintro ⟨haddress, hsymbol⟩
    obtain ⟨hsum, hmapped⟩ := View.mappedAddress_eq_ok_iff.mp haddress
    refine ⟨?_, sum?_eq_some_iff.mp hsum, hmapped, hname.mp ?_⟩
    · rw [hsymbol]
      rfl
    · rw [hsymbol]
      rfl
  · rintro ⟨hkind, haddress, hmapped, hcalled⟩
    refine ⟨View.mappedAddress_eq_ok_iff.mpr ⟨sum?_eq_some_iff.mpr haddress, hmapped⟩, ?_⟩
    unfold symbolAt
    rw [hname.mpr hcalled, ← hkind]

/-- What the walk reads before its first function, by its parts. -/
theorem readContext_eq_ok_iff :
    readContext v directory options = .ok c
      ↔ ∃ h library names, ExportHeader.read v directory.rva.toNat = .ok h
        ∧ LibraryOf v options.maxNameLength.toNat h library
        ∧ h.nameCount ≤ h.functionCount
        ∧ h.namesFrom v options.maxNameLength.toNat
            (min h.nameCount.toNat options.maxExports.toNat) 0 ∅ = .ok names
        ∧ c = ⟨v, directory, h, library, names, options.maxExports.toNat⟩ := by
  unfold readContext
  simp only [except_bind_eq_ok_iff, library_eq_ok_iff]
  constructor
  · rintro ⟨h, hheader, library, hlibrary, hrest⟩
    by_cases hcounts : h.functionCount < h.nameCount
    · rw [if_pos hcounts] at hrest
      cases hrest
    · rw [if_neg hcounts] at hrest
      obtain ⟨names, hnames, hc⟩ := except_bind_eq_ok_iff.mp hrest
      exact ⟨h, library, names, hheader, hlibrary, UInt32.not_lt.mp hcounts, hnames,
        (Except.ok.inj hc).symm⟩
  · rintro ⟨h, library, names, hheader, hlibrary, hcounts, hnames, rfl⟩
    refine ⟨h, hheader, library, hlibrary, ?_⟩
    rw [if_neg (UInt32.not_lt.mpr hcounts)]
    exact except_bind_eq_ok_iff.mpr ⟨names, hnames, rfl⟩

/-- A walk that succeeds has read a context. -/
theorem exists_readContext {n : Nat} (hok : (walkExports v directory options).outcome = .ok n) :
    ∃ c, readContext v directory options = .ok c := by
  rw [walkExports_eq] at hok
  obtain ⟨c, hc, -⟩ := Walk.bind_eq_ok_iff.mp hok
  exact ⟨c, hc⟩

/-- The walk succeeds on the directories that hold something, and defines
what they hold. -/
theorem walkExports_eq_ok_iff {n : Nat} {symbols : List Symbol} :
    ((walkExports v directory options).outcome,
        definitions (walkExports v directory options).steps) = (.ok n, symbols)
      ↔ n = symbols.length
        ∧ ∃ h library fs, ExportTable v directory options h library fs symbols := by
  constructor
  · intro hok
    obtain ⟨c, hc⟩ := exists_readContext (Prod.mk.inj hok).1
    rw [walkExports_eq_bound hc, ExportContext.bound_eq_ok_iff, Nat.zero_add] at hok
    obtain ⟨hn, fs, hread, hsymbols⟩ := hok
    obtain ⟨h, library, names, hheader, hlibrary, hcounts, hnames, rfl⟩ :=
      readContext_eq_ok_iff.mp hc
    refine ⟨hn, h, library, fs, hheader, hlibrary, hcounts, ?_, hread, ?_⟩
    · simpa using ExportHeader.exists_namesFrom_iff.mp ⟨names, hnames⟩
    · exact hsymbols.imp fun p x hx => (ExportContext.makes_iff hnames).mp hx
  · rintro ⟨rfl, h, library, fs, htable⟩
    obtain ⟨names, hnames⟩ : ∃ names, h.namesFrom v options.maxNameLength.toNat
        (min h.nameCount.toNat options.maxExports.toNat) 0 ∅ = .ok names := by
      rw [ExportHeader.exists_namesFrom_iff]
      simpa using htable.names_read
    have hc : readContext v directory options
        = .ok ⟨v, directory, h, library, names, options.maxExports.toNat⟩ :=
      readContext_eq_ok_iff.mpr ⟨h, library, names, htable.header_eq, htable.library_of,
        htable.counts_le, hnames, rfl⟩
    rw [walkExports_eq_bound hc, ExportContext.bound_eq_ok_iff, Nat.zero_add]
    refine ⟨rfl, fs, htable.functions_read, ?_⟩
    exact htable.symbols_of.imp fun p x hx => (ExportContext.makes_iff hnames).mpr hx

/-- A directory with more names than functions is refused before any of
them is read. -/
theorem walkExports_of_counts_lt
    (hheader : ExportHeader.read v directory.rva.toNat = .ok h)
    (hlibrary : LibraryOf v options.maxNameLength.toNat h library)
    (hcounts : h.functionCount < h.nameCount) :
    walkExports v directory options
      = Walk.fail (.exportTable (Numeral.decimal h.nameCount.toNat ++ " names for "
          ++ Numeral.decimal h.functionCount.toNat ++ " functions")) := by
  unfold walkExports
  dsimp only
  rw [hheader, Walk.read_ok_bind, library_eq_ok_iff.mpr hlibrary, Walk.read_ok_bind,
    if_pos hcounts]

/-- What a walk over an export directory with the given symbols leaves. -/
structure ReportsExports (symbols : List Symbol) (w : Walk Nat) : Prop where
  outcome_eq : w.outcome = .ok symbols.length
  definitions_eq : definitions w.steps = symbols
  after_eq : ∀ t : SymbolTable, t.after w.steps = t.defineAll symbols

/-- An export walk succeeds exactly on a directory whose tables can be
read, and then defines its exports as far as the limit goes, each in its
turn, and nothing else. A directory with more names than functions is
none of those. -/
theorem walkExports_defines_directory (v : View) (directory : DataDirectory)
    (options : LoadOptions) :
    ((∃ n, (walkExports v directory options).outcome = .ok n)
        ↔ ∃ h library fs symbols, ExportTable v directory options h library fs symbols)
      ∧ (∀ h library fs symbols, ExportTable v directory options h library fs symbols →
        ReportsExports symbols (walkExports v directory options))
      ∧ ∀ h library, ExportHeader.read v directory.rva.toNat = .ok h →
        LibraryOf v options.maxNameLength.toNat h library → h.functionCount < h.nameCount →
        (walkExports v directory options).outcome
          = .error (.exportTable (Numeral.decimal h.nameCount.toNat ++ " names for "
              ++ Numeral.decimal h.functionCount.toNat ++ " functions")) := by
  have hreports : ∀ h library fs symbols,
      ExportTable v directory options h library fs symbols →
        ReportsExports symbols (walkExports v directory options) := by
    intro h library fs symbols htable
    obtain ⟨houtcome, hdefinitions⟩ :=
      Prod.mk.inj (walkExports_eq_ok_iff.mpr ⟨rfl, h, library, fs, htable⟩)
    refine ⟨houtcome, hdefinitions, fun t => ?_⟩
    rw [SymbolTable.after, hdefinitions]
  refine ⟨⟨?_, ?_⟩, hreports, ?_⟩
  · rintro ⟨n, hn⟩
    obtain ⟨-, h, library, fs, htable⟩ := walkExports_eq_ok_iff.mp (Prod.ext hn rfl)
    exact ⟨h, library, fs, _, htable⟩
  · rintro ⟨h, library, fs, symbols, htable⟩
    exact ⟨_, (hreports h library fs symbols htable).outcome_eq⟩
  · intro h library hheader hlibrary hcounts
    rw [walkExports_of_counts_lt hheader hlibrary hcounts]
    rfl

-- =============================================================== a sample

/-- A library with a directory of six functions, of which the last is not
in the file, and a directory with too many names. -/
def cutShort : View where
  data :=
    List.toArray <| List.flatten
      [ -- 0x1000: a header, six functions and three names
        blank 12, spell 4 0x106A, spell 4 7, spell 4 6, spell 4 3, spell 4 0x1074,
        spell 4 0x1050, spell 4 0x105C,
        -- 0x1028: a header, two functions and three names
        blank 16, spell 4 1, spell 4 2, spell 4 3, blank 12,
        -- 0x1050: name and index tables, with two names for one function
        spell 4 0x1064, spell 4 0x1066, spell 4 0x1068, spell 2 1, spell 2 1, spell 2 3, blank 2,
        -- 0x1064: the names `a`, `b` and `c`, the library `M.x`
        [0x61, 0, 0x62, 0, 0x63, 0, 0x4D, 0x2E, 0x78, 0, 0, 0],
        -- 0x1070: the functions
        [0xC3, 0xC3, 0xC3, 0],
        -- 0x1074: an unused index and one that is elsewhere among the functions
        blank 4, spell 4 0x1070, spell 4 0x1064, spell 4 0x1071, spell 4 0x1072 ]
  segments := [⟨".edata", 0, 0x401000, 0x402000, .empty, samplePage_nonempty⟩]
  base := 0x400000

/-- The walk stops at its limit and defines the two functions before
it. -/
theorem walkExports_cutShort :
    (walkExports cutShort ⟨0x1000, 0x70⟩ (limitedTo .default 2)).outcome = .ok 2
      ∧ definitions (walkExports cutShort ⟨0x1000, 0x70⟩ (limitedTo .default 2)).steps
        = [⟨"b", 0x401070, .exported⟩, ⟨"m!ord10", 0x401071, .exported⟩] := by
  decide +kernel

/-- The walk defines what the directory lists up to the limit, and a
directory with more names than functions is refused. -/
theorem walkExports_defines_directory_cutShort :
    (∃ h library fs symbols,
        ExportTable cutShort ⟨0x1000, 0x70⟩ (limitedTo .default 2) h library fs symbols
          ∧ ReportsExports symbols (walkExports cutShort ⟨0x1000, 0x70⟩ (limitedTo .default 2))
          ∧ symbols = [⟨"b", 0x401070, .exported⟩, ⟨"m!ord10", 0x401071, .exported⟩])
      ∧ (walkExports cutShort ⟨0x1028, 40⟩ .default).outcome
        = .error (.exportTable "3 names for 2 functions") := by
  constructor
  · obtain ⟨hok, hdefinitions⟩ := walkExports_cutShort
    obtain ⟨hiff, hreports, -⟩ :=
      walkExports_defines_directory cutShort ⟨0x1000, 0x70⟩ (limitedTo .default 2)
    obtain ⟨h, library, fs, symbols, htable⟩ := hiff.mp ⟨2, hok⟩
    have hrun := hreports h library fs symbols htable
    exact ⟨h, library, fs, symbols, htable, hrun, hrun.definitions_eq.symm.trans hdefinitions⟩
  · obtain ⟨-, -, hrefused⟩ := walkExports_defines_directory cutShort ⟨0x1028, 40⟩ .default
    have hheader : ExportHeader.read cutShort 0x1028 = .ok ⟨0, 1, 2, 3, 0, 0, 0⟩ := by
      decide +kernel
    exact hrefused _ "" hheader (.nameless rfl) (by decide)

end Dissect.Pe

/-
Symbols without a name, and what a listing of a loaded image leaves out.

# Where an empty name can come from

The entry point has a name of its own, and an imported function and an
exported one without a name of its own stand behind the name of their
library and an exclamation mark. What is left is an exported function
whose entry in the name table is the empty string (`BlankExport`): such
a symbol is defined like any other (`Stages.blankExport_of_lookup?`).

# What it hides

A listing shows an address by the name of its symbol, so an operand that
is nothing but such an address comes out empty and is passed over.
`Session.load_shown` is the account for every loaded image: nothing else
that can be shown is passed over, and an image without an empty entry in
its name table has every operand shown.
-/
import Dissect.Proofs.Listing
import Dissect.Proofs.Pe.Invariant

namespace Dissect.Pe

theorem entryPointName_ne_empty : entryPointName ≠ "" := by
  decide

/-- A qualified name has at least its separator. -/
theorem qualifiedName_ne_empty (library : String) (n : ImportName) :
    qualifiedName library n ≠ "" := by
  simp [qualifiedName]

-- =============================================================== imports

/-- The symbol of a thunk stands behind the name of its library. -/
theorem Importer.name_of_symbolOf {i : Importer} {library : String} {slots index : Nat}
    {value : UInt64} {s : Symbol} (h : i.symbolOf library slots index value = .ok s) :
    ∃ n, s.name = qualifiedName library n := by
  unfold symbolOf at h
  obtain ⟨address, -, h⟩ := except_bind_eq_ok_iff.mp h
  obtain ⟨name, hname, h⟩ := except_bind_eq_ok_iff.mp h
  cases h
  unfold importName at hname
  split at hname
  · split at hname
    · exact ⟨_, (Except.ok.inj hname).symm⟩
    · exact ⟨_, (Except.ok.inj hname).symm⟩
  · split at hname
    · cases hname
    · obtain ⟨text, -, hname⟩ := except_bind_eq_ok_iff.mp hname
      exact ⟨.name text, (Except.ok.inj hname).symm⟩

-- =============================================================== exports

/-- One of the names that the export walk reads is the empty string. -/
def BlankExport (v : View) (directory : DataDirectory) (options : LoadOptions) : Prop :=
  ∃ h entry index, ExportHeader.read v directory.rva.toNat = .ok h
    ∧ entry < min h.nameCount.toNat options.maxExports.toNat
    ∧ h.nameAt v options.maxNameLength.toNat entry = .ok (index, "")

/-- Only an export by name can be without one. -/
theorem blankExport_of_walkExports {v : View} {directory : DataDirectory}
    {options : LoadOptions} {s : Symbol}
    (hs : s ∈ definitions (walkExports v directory options).steps) (hname : s.name = "") :
    BlankExport v directory options := by
  obtain ⟨c, n, hc, hexports⟩ := exports_walkExports v directory options s hs
  obtain ⟨-, -, hheader, hnames⟩ := readContext_eq_ok hc
  have hblank : c.nameOf n = "" := by
    rw [← hexports.name_eq]
    exact hname
  unfold ExportContext.nameOf at hblank
  split at hblank
  · next name hentry =>
    subst hblank
    rcases ExportHeader.namesFrom_eq_ok hnames hentry with h | ⟨j, hj, hat⟩
    · simp at h
    · exact ⟨c.header, j, n, hheader, by omega, hat⟩
  · exact absurd hblank (qualifiedName_ne_empty _ _)

-- ========================================================= loaded images

namespace Stages

variable {options : LoadOptions} {names : OrdinalNames} {data : Bytes}

/-- A symbol without a name is an exported one, and its name is an empty
string of the name table. -/
theorem blankExport_of_lookup? (st : Stages options names data) {a : Address} {s : Symbol}
    (h : st.image.symbols.lookup? a = some s) (hname : s.name = "") :
    s.kind = .exported
      ∧ BlankExport st.view (st.headers.directory exportDirectory) options := by
  obtain ⟨hmem, -⟩ := st.mem_of_lookup? h
  rw [definitions_steps, List.mem_append, List.mem_append] at hmem
  rcases hmem with hentry | hexport | himport
  · by_cases hzero : st.headers.optional.entryRva = 0
    · rw [st.entrySteps_of_zero hzero] at hentry
      simp at hentry
    · obtain ⟨e, -, hdefinitions⟩ := st.definitions_entrySteps hzero
      rw [hdefinitions, List.mem_singleton] at hentry
      subst hentry
      exact absurd hname entryPointName_ne_empty
  · refine ⟨(st.places_exportSteps s hexport).1, ?_⟩
    rcases st.definitions_exportSteps with hnone | hwalk
    · rw [hnone] at hexport
      simp at hexport
    · rw [hwalk] at hexport
      exact blankExport_of_walkExports hexport hname
  · rcases st.definitions_importSteps with hnone | ⟨rva, hwalk⟩
    · rw [hnone] at himport
      simp at himport
    · rw [hwalk] at himport
      obtain ⟨library, slots, index, value, hsymbol⟩ :=
        (Importer.accounts_walk {} rva).bound s himport
      obtain ⟨n, hn⟩ := Importer.name_of_symbolOf hsymbol
      rw [hn] at hname
      exact absurd hname (qualifiedName_ne_empty _ _)

end Stages

namespace Session

/-- What a listing with the symbols of a loaded image shows. -/
structure Shows (session : Session) (data : Bytes) (headers : Headers) (l : Listing) : Prop
    where
  /-- An operand is shown unless there is nothing to show, or nothing but
  the name of a symbol without one. -/
  shown_iff : ∀ (i : Instruction), ∀ o ∈ i.operands,
    (o, l.operandText o) ∈ l.shown i ↔ o.kind.Renderable ∧ ¬ l.Hides o.kind
  /-- Only an empty string of the export name table makes such a symbol,
  and it is an exported one. -/
  hides : ∀ kind, l.Hides kind →
    BlankExport ⟨data, session.segments, headers.optional.imageBase⟩
        (headers.directory exportDirectory) session.options
      ∧ ∃ table a s, l.symbols = some table ∧ kind.namedAddress? = some a
        ∧ table.lookup? a = some s ∧ s.name = "" ∧ s.kind = .exported

/-- Whatever image was loaded, a listing with its symbols shows every
operand that can be shown, unless it is nothing but the address of a
function that was exported under the empty name. -/
theorem load_shown (session : Session) (data : Bytes)
    (h : (session.load data).2.outcome = .ok ()) (registers : RegisterNames)
    (hregisters : ∀ id, registers id ≠ "") :
    ∃ headers table, (session.load data).1.headers? = some headers
      ∧ (session.load data).1.toImage.symbols = some table
      ∧ (session.load data).1.Shows data headers ⟨registers, some table⟩ := by
  obtain ⟨st⟩ := stages_of_load h
  rw [(load_of_stages st).1]
  refine ⟨st.headers, st.image.symbols, rfl, rfl, ?_, ?_⟩
  · intro i o ho
    rw [Listing.mem_shown_iff ho, ne_eq, Listing.operandText_eq_empty_iff hregisters]
    tauto
  · rintro kind ⟨a, ha, hname⟩
    obtain ⟨s, hs, hblank⟩ := Option.map_eq_some_iff.mp hname
    obtain ⟨hkind, hexport⟩ := st.blankExport_of_lookup? hs hblank
    exact ⟨hexport, st.image.symbols, a, s, rfl, ha, hs, hblank, hkind⟩

end Session

-- =============================================================== a sample

/-- An image that exports one function, under the empty name. -/
def blankNamed : Bytes :=
  List.toArray <| List.flatten
    [ -- DOS header
      [0x4D, 0x5A], blank 58, spell 4 64,
      -- signature and COFF header, one section
      signature.toList, spell 2 0x14C, spell 2 1, blank 12, spell 2 104, blank 2,
      -- optional header: no entry point, image base, one directory
      spell 2 0x10B, blank 26, spell 4 0x400000, blank 60, spell 4 1,
      spell 4 0x1000, spell 4 40,
      -- section header: 96 addresses from 0x1000 on, in the file from 232 on
      [0x2E, 0x74], blank 6, spell 4 96, spell 4 0x1000, spell 4 96, spell 4 232, blank 12,
      spell 4 0x60000020,
      -- 0x1000: export header, one function with a name
      blank 16, spell 4 1, spell 4 1, spell 4 1, spell 4 0x1028, spell 4 0x102C,
      spell 4 0x1030,
      -- 0x1028: function, name and index tables, the name
      spell 4 0x1040, spell 4 0x1032, blank 16,
      -- 0x1040: the function pushes its own address
      [0x68], spell 4 0x401040, blank 27 ]

theorem blankNamed_stages :
    Nonempty (Stages .default OrdinalDatabase.builtin.lookup? blankNamed) := by
  apply stages_of_isOk
  decide +kernel

namespace Session

/-- What the listing of that image shows. -/
theorem load_shown_blankNamed :
    (({} : Session).load blankNamed).2.outcome = .ok ()
      ∧ ∃ headers table, (({} : Session).load blankNamed).1.headers? = some headers
          ∧ (({} : Session).load blankNamed).1.toImage.symbols = some table
          ∧ (({} : Session).load blankNamed).1.Shows blankNamed headers
              ⟨fun _ => "r", some table⟩ := by
  obtain ⟨st⟩ := blankNamed_stages
  have h : (({} : Session).load blankNamed).2.outcome = .ok () := (load_of_stages st).2
  exact ⟨h, load_shown {} blankNamed h (fun _ => "r") fun _ => by decide⟩

/-- The instruction at the function is listed without its operand, though
there is a number to show. -/
theorem blankNamed_hides :
    (({} : Session).load blankNamed).2.outcome = .ok ()
      ∧ ∃ table, (({} : Session).load blankNamed).1.toImage.symbols = some table
          ∧ (OperandKind.immediate 0x401040).Renderable
          ∧ Listing.shown ⟨fun _ => "r", some table⟩
              { address := 0x401040, size := 5, mnemonic := "push",
                operands := #[⟨.immediate 0x401040, 0⟩] } = [] := by
  obtain ⟨st⟩ := blankNamed_stages
  have hshown : (({} : Session).load blankNamed).1.toImage.symbols.map
      (fun table => Listing.shown ⟨fun _ => "r", some table⟩
        { address := 0x401040, size := 5, mnemonic := "push",
          operands := #[⟨.immediate 0x401040, 0⟩] }) = some [] := by
    decide +kernel
  obtain ⟨table, htable, hnone⟩ := Option.map_eq_some_iff.mp hshown
  exact ⟨(load_of_stages st).2, table, htable, trivial, hnone⟩

end Session

end Dissect.Pe

/-
Loads of longer files, under looser options.

# The order

`Keeps r r'`: whatever `r` answers, `r'` answers too. `Walk.Keeps w w'`:
if `w` comes to something, `w'` is the very same walk, steps included.
Both are kept by going on (`Keeps.bind`, `Walk.Keeps.bind`), so a reader
or a walk keeps as soon as its reads do.

# What is kept

Bytes behind the file and larger limits for names and for the section
table can only turn refusals into answers, never change an answer. So
each stage of a load keeps, and the stages of a load that succeeded are
the stages of the looser load (`Stages.relax`). The limits on exports
and imports are no part of this: a larger one shows more symbols.
-/
import Dissect.Proofs.Pe.Header
import Dissect.Proofs.Pe.Stages
import Dissect.Proofs.Pe.Terminator

namespace Dissect

variable {α β : Type}

-- ============================================================ the order

/-- Whatever one read answers, the other answers too. -/
def Keeps (r r' : Except ImageError α) : Prop := ∀ a, r = .ok a → r' = .ok a

theorem Keeps.refl (r : Except ImageError α) : Keeps r r := fun _ h => h

/-- Reads that keep keep as a chain. -/
theorem Keeps.bind {r r' : Except ImageError α} {next next' : α → Except ImageError β}
    (h : Keeps r r') (hnext : ∀ a, Keeps (next a) (next' a)) :
    Keeps (r >>= next) (r' >>= next') := by
  intro b hb
  obtain ⟨a, ha, hb⟩ := except_bind_eq_ok_iff.mp hb
  exact except_bind_eq_ok_iff.mpr ⟨a, h a ha, hnext a b hb⟩

namespace Walk

/-- If one walk comes to something, the other is the same walk. -/
def Keeps (w w' : Walk α) : Prop := ∀ a, w.outcome = .ok a → w' = w

theorem Keeps.refl (w : Walk α) : Keeps w w := fun _ _ => rfl

/-- A read that keeps is a walk that does. -/
theorem Keeps.read {r r' : Except ImageError α} (h : Dissect.Keeps r r') :
    Keeps (Walk.read r) (Walk.read r') := by
  intro a ha
  have hr : r = .ok a := ha
  rw [hr, h a hr]

/-- Walks that keep keep one after the other. -/
theorem Keeps.bind {w w' : Walk α} {next next' : α → Walk β} (h : Keeps w w')
    (hnext : ∀ a, w.outcome = .ok a → Keeps (next a) (next' a)) :
    Keeps (w >>= next) (w' >>= next') := by
  intro b hb
  obtain ⟨a, ha, hb⟩ := bind_eq_ok_iff.mp hb
  rw [h a ha, bind_of_ok ha, bind_of_ok ha, hnext a ha b hb]

/-- The branches of a walk may keep apart. -/
theorem Keeps.ite {c : Prop} [Decidable c] {w₁ w₁' w₂ w₂' : Walk α} (h₁ : Keeps w₁ w₁')
    (h₂ : Keeps w₂ w₂') : Keeps (if c then w₁ else w₂) (if c then w₁' else w₂') := by
  split
  · exact h₁
  · exact h₂

end Walk

namespace Pe

variable {data extra : Bytes}

-- ============================================================== headers

/-- A DOS header does not change with what follows the file. -/
theorem keeps_readDosHeader (data extra : Bytes) :
    Keeps (readDosHeader data) (readDosHeader (data ++ extra)) := by
  intro dos h
  obtain ⟨hsize, hmagic, hvalue, hoffset⟩ := readDosHeader_eq_ok_iff.mp h
  refine readDosHeader_eq_ok_iff.mpr
    ⟨?_, Bytes.word16?_append hmagic, hvalue, Bytes.word32?_append hoffset⟩
  rw [Array.size_append]
  omega

theorem keeps_readCoffHeader (data extra : Bytes) (offset : Nat) :
    Keeps (readCoffHeader data offset) (readCoffHeader (data ++ extra) offset) := by
  intro coff h
  obtain ⟨⟨raw, hraw, hmachine⟩, hcount, htimestamp, hsize, hcharacteristics⟩ :=
    readCoffHeader_eq_ok_iff.mp h
  exact readCoffHeader_eq_ok_iff.mpr
    ⟨⟨raw, Bytes.word16?_append hraw, hmachine⟩, Bytes.word16?_append hcount,
      Bytes.word32?_append htimestamp, Bytes.word16?_append hsize,
      Bytes.word16?_append hcharacteristics⟩

/-- The declared bytes of an optional header are the same in a longer
file. -/
theorem keeps_readOptionalHeader (data extra : Bytes) (offset size : Nat) :
    Keeps (readOptionalHeader data offset size)
      (readOptionalHeader (data ++ extra) offset size) := by
  intro r h
  obtain ⟨hsize, hstop, magic, kind, hmagic, hkind, hroom, hfields⟩ :=
    readOptionalHeader_eq_ok_iff.mp h
  refine readOptionalHeader_eq_ok_iff.mpr
    ⟨hsize, ?_, magic, kind, Bytes.word16?_append hmagic, hkind, hroom, ?_⟩
  · rw [Array.size_append]
    omega
  · rw [Bytes.extract_append_of_le hstop]
    exact hfields

/-- Headers do not change with what follows the file. -/
theorem keeps_readHeaders (data extra : Bytes) (offset : Nat) :
    Keeps (readHeaders data offset) (readHeaders (data ++ extra) offset) := by
  intro headers h
  obtain ⟨hsignature, hcoff, hmachine, hoptional⟩ := readHeaders_eq_ok_iff.mp h
  exact readHeaders_eq_ok_iff.mpr
    ⟨Bytes.slice?_append hsignature, keeps_readCoffHeader data extra _ _ hcoff, hmachine,
      keeps_readOptionalHeader data extra _ _ _ hoptional⟩

theorem keeps_readSection (data extra : Bytes) (offset : Nat) :
    Keeps (readSection data offset) (readSection (data ++ extra) offset) := by
  refine Keeps.bind ?_ fun raw => Keeps.refl _
  intro raw h
  exact orTruncated_eq_ok_iff.mpr (Bytes.slice?_append (orTruncated_eq_ok_iff.mp h))

/-- A section table stays under a limit that is no smaller. -/
theorem keeps_readSections (data extra : Bytes) (offset count : Nat) {limit limit' : Nat}
    (hlimit : limit ≤ limit') :
    Keeps (readSections data offset count limit)
      (readSections (data ++ extra) offset count limit') := by
  intro sections h
  obtain ⟨hcount, hall⟩ := readSections_eq_ok_iff.mp h
  exact readSections_eq_ok_iff.mpr
    ⟨Nat.le_trans hcount hlimit, hall.imp fun i s hs => keeps_readSection data extra _ s hs⟩

-- ================================================================ views

namespace View

/-- The view of a longer file. -/
def append (v : View) (extra : Bytes) : View := { v with data := v.data ++ extra }

/-- A read through the view keeps when the read of the file does. -/
theorem keeps_readAt (v : View) (extra : Bytes) (rva : Nat) {read? read?' : Nat → Option α}
    (h : ∀ n a, read? n = some a → read?' n = some a) :
    Keeps (v.readAt read? rva) ((v.append extra).readAt read?' rva) := by
  intro a ha
  obtain ⟨n, hn, hread⟩ := readAt_eq_ok_iff.mp ha
  exact readAt_eq_ok_iff.mpr ⟨n, hn, h n a hread⟩

/-- A word that is read through the segments is there in a longer file. -/
theorem keeps_word16 (v : View) (extra : Bytes) (rva : Nat) :
    Keeps (v.word16 rva) ((v.append extra).word16 rva) :=
  v.keeps_readAt extra rva fun _ _ h => Bytes.word16?_append h

theorem keeps_word32 (v : View) (extra : Bytes) (rva : Nat) :
    Keeps (v.word32 rva) ((v.append extra).word32 rva) :=
  v.keeps_readAt extra rva fun _ _ h => Bytes.word32?_append h

theorem keeps_word64 (v : View) (extra : Bytes) (rva : Nat) :
    Keeps (v.word64 rva) ((v.append extra).word64 rva) :=
  v.keeps_readAt extra rva fun _ _ h => Bytes.word64?_append h

/-- Bytes that are read through the segments are there in a longer
file. -/
theorem keeps_bytes (v : View) (extra : Bytes) (rva count : Nat) :
    Keeps (v.bytes rva count) ((v.append extra).bytes rva count) :=
  v.keeps_readAt extra rva fun _ _ h => Bytes.slice?_append h

/-- A string is the same in a longer file and under a larger limit. -/
theorem keeps_string (v : View) (extra : Bytes) (rva : Nat) {limit limit' : Nat}
    (hlimit : limit ≤ limit') :
    Keeps (v.string rva limit) ((v.append extra).string rva limit') := by
  intro s h
  obtain ⟨n, hn, hstring⟩ := string_eq_ok_iff.mp h
  exact string_eq_ok_iff.mpr ⟨n, hn, Bytes.string?_append hstring hlimit⟩

end View

/-- Options under which a walk answers no less and defines no more: the
limits on symbols are the same and names may be longer. -/
structure Loosens (options options' : LoadOptions) : Prop where
  maxImports_eq : options'.maxImports = options.maxImports
  maxExports_eq : options'.maxExports = options.maxExports
  maxNameLength_le : options.maxNameLength ≤ options'.maxNameLength

variable {options options' : LoadOptions}

/-- Names may be no shorter under looser options. -/
theorem Loosens.nameLimit_le (h : Loosens options options') :
    options.maxNameLength.toNat ≤ options'.maxNameLength.toNat :=
  UInt64.le_iff_toNat_le.mp h.maxNameLength_le

-- ============================================================== exports

/-- The header of an export directory stays. -/
theorem keeps_exportHeader (v : View) (extra : Bytes) (rva : Nat) :
    Keeps (ExportHeader.read v rva) (ExportHeader.read (v.append extra) rva) := by
  refine Keeps.bind (v.keeps_bytes extra _ _) fun _ => ?_
  refine Keeps.bind (v.keeps_word32 extra _) fun _ => ?_
  refine Keeps.bind (v.keeps_word32 extra _) fun _ => ?_
  refine Keeps.bind (v.keeps_word32 extra _) fun _ => ?_
  refine Keeps.bind (v.keeps_word32 extra _) fun _ => ?_
  refine Keeps.bind (v.keeps_word32 extra _) fun _ => ?_
  refine Keeps.bind (v.keeps_word32 extra _) fun _ => ?_
  exact Keeps.bind (v.keeps_word32 extra _) fun _ => Keeps.refl _

namespace ExportHeader

variable {limit limit' : Nat}

theorem keeps_library (h : ExportHeader) (v : View) (extra : Bytes) (hlimit : limit ≤ limit') :
    Keeps (h.library v limit) (h.library (v.append extra) limit') := by
  unfold library
  split
  · exact Keeps.refl _
  · exact v.keeps_string extra _ hlimit

theorem keeps_nameAt (h : ExportHeader) (v : View) (extra : Bytes) (hlimit : limit ≤ limit')
    (entry : Nat) : Keeps (h.nameAt v limit entry) (h.nameAt (v.append extra) limit' entry) := by
  refine Keeps.bind (v.keeps_word32 extra _) fun nameRva => ?_
  refine Keeps.bind (v.keeps_word16 extra _) fun index => ?_
  exact Keeps.bind (v.keeps_string extra _ hlimit) fun _ => Keeps.refl _

/-- The names of a directory stay, entry by entry. -/
theorem keeps_namesFrom (h : ExportHeader) (v : View) (extra : Bytes) (hlimit : limit ≤ limit')
    (count entry : Nat) (names : Std.ExtTreeMap Nat String) :
    Keeps (h.namesFrom v limit count entry names)
      (h.namesFrom (v.append extra) limit' count entry names) := by
  induction count generalizing entry names with
  | zero => exact Keeps.refl _
  | succ count ih =>
      intro all hall
      rw [namesFrom] at hall ⊢
      cases hname : h.nameAt v limit entry with
      | error e =>
          rw [hname] at hall
          cases hall
      | ok found =>
          rw [hname] at hall
          rw [h.keeps_nameAt v extra hlimit entry found hname]
          exact ih _ _ all hall

end ExportHeader

/-- The context of a looser walk is the same but for the view. -/
theorem keeps_readContext (v : View) (extra : Bytes) (directory : DataDirectory)
    (hloose : Loosens options options') {c : ExportContext}
    (h : readContext v directory options = .ok c) :
    readContext (v.append extra) directory options'
      = .ok { c with view := v.append extra } := by
  unfold readContext at h ⊢
  obtain ⟨header, hheader, h⟩ := except_bind_eq_ok_iff.mp h
  obtain ⟨library, hlibrary, h⟩ := except_bind_eq_ok_iff.mp h
  refine except_bind_eq_ok_iff.mpr ⟨header, keeps_exportHeader v extra _ _ hheader, ?_⟩
  refine except_bind_eq_ok_iff.mpr
    ⟨library, header.keeps_library v extra hloose.nameLimit_le _ hlibrary, ?_⟩
  split at h
  · cases h
  · next hcounts =>
    obtain ⟨names, hnames, h⟩ := except_bind_eq_ok_iff.mp h
    cases h
    rw [if_neg hcounts, hloose.maxExports_eq]
    exact except_bind_eq_ok_iff.mpr
      ⟨names, header.keeps_namesFrom v extra hloose.nameLimit_le _ _ _ _ hnames, rfl⟩

/-- The function loop keeps. -/
theorem ExportContext.keeps_bindFrom (c : ExportContext) (extra : Bytes)
    (count index defined : Nat) :
    Walk.Keeps (c.bindFrom count index defined [])
      (({ c with view := c.view.append extra } : ExportContext).bindFrom count index
        defined []) := by
  induction count generalizing index defined with
  | zero => exact Walk.Keeps.refl _
  | succ count ih =>
      rw [bindFrom_succ, bindFrom_succ]
      refine Walk.Keeps.bind (Walk.Keeps.read (c.view.keeps_word32 extra _)) fun rva _ => ?_
      refine Walk.Keeps.ite (ih _ _) (Walk.Keeps.ite ?_ (Walk.Keeps.ite (.refl _) ?_))
      · exact Walk.Keeps.bind (.refl _) fun _ _ => ih _ _
      · refine Walk.Keeps.bind (.refl _) fun address _ => ?_
        refine Walk.Keeps.bind (.refl _) fun _ _ => ?_
        exact Walk.Keeps.bind (.refl _) fun _ _ => ih _ _

/-- The export walk keeps. -/
theorem keeps_walkExports (v : View) (extra : Bytes) (directory : DataDirectory)
    (hloose : Loosens options options') :
    Walk.Keeps (walkExports v directory options)
      (walkExports (v.append extra) directory options') := by
  rw [walkExports_eq, walkExports_eq]
  cases hc : readContext v directory options with
  | error e =>
      intro n hn
      cases hn
  | ok c =>
      obtain ⟨rfl, -⟩ := readContext_eq_ok hc
      rw [keeps_readContext c.view extra directory hloose hc, Walk.read_ok_bind,
        Walk.read_ok_bind]
      exact Walk.Keeps.bind (c.keeps_bindFrom extra _ 0 0) fun _ _ => .refl _

-- ============================================================== imports

/-- A thunk that is read is there in a longer file. -/
theorem keeps_thunk (t : Thunk) (v : View) (extra : Bytes) (rva : Nat) :
    Keeps (t.read v rva) (t.read (v.append extra) rva) := by
  cases t with
  | narrow =>
      intro value h
      unfold Thunk.read at h ⊢
      cases hword : v.word32 rva with
      | error e =>
          rw [hword] at h
          cases h
      | ok w =>
          rw [hword] at h
          rw [v.keeps_word32 extra rva w hword]
          exact h
  | wide => exact v.keeps_word64 extra rva

theorem keeps_descriptor (v : View) (extra : Bytes) (rva : Nat) :
    Keeps (ImportDescriptor.read v rva) (ImportDescriptor.read (v.append extra) rva) := by
  refine Keeps.bind (v.keeps_word32 extra _) fun _ => ?_
  refine Keeps.bind (v.keeps_word32 extra _) fun _ => ?_
  refine Keeps.bind (v.keeps_word32 extra _) fun _ => ?_
  refine Keeps.bind (v.keeps_word32 extra _) fun _ => ?_
  exact Keeps.bind (v.keeps_word32 extra _) fun _ => Keeps.refl _

namespace Importer

/-- An importer of a longer file, under other options. -/
def loosen (i : Importer) (extra : Bytes) (options' : LoadOptions) : Importer :=
  ⟨i.view.append extra, i.names, options', i.thunk⟩

variable {i : Importer}

/-- Looser options leave the limit on imports. -/
theorem limit_loosen (extra : Bytes) (hloose : Loosens i.options options') :
    (i.loosen extra options').limit = i.limit := by
  unfold limit
  rw [show (i.loosen extra options').options = options' from rfl, hloose.maxImports_eq]

theorem keeps_importName (extra : Bytes) (hloose : Loosens i.options options')
    (library : String) (value : UInt64) :
    Keeps (i.importName library value)
      ((i.loosen extra options').importName library value) := by
  unfold importName
  rw [show (i.loosen extra options').thunk = i.thunk from rfl]
  cases i.thunk.ordinal? value with
  | some ordinal => exact Keeps.refl _
  | none =>
      cases sum? value 2 with
      | none => exact Keeps.refl _
      | some rva =>
          exact Keeps.bind (i.view.keeps_string extra _ hloose.nameLimit_le)
            fun _ => Keeps.refl _

/-- The symbol of an import stays, with its name. -/
theorem keeps_symbolOf (extra : Bytes) (hloose : Loosens i.options options')
    (library : String) (slots index : Nat) (value : UInt64) :
    Keeps (i.symbolOf library slots index value)
      ((i.loosen extra options').symbolOf library slots index value) :=
  Keeps.bind (Keeps.refl _) fun _ =>
    Keeps.bind (keeps_importName extra hloose library value) fun _ => Keeps.refl _

/-- The inner loop keeps. -/
theorem keeps_bindFrom (extra : Bytes) (hloose : Loosens i.options options')
    (library : String) (names slots fuel index : Nat) (s : ImportSummary) :
    Walk.Keeps (i.bindFrom library names slots fuel index s []).toWalk
      ((i.loosen extra options').bindFrom library names slots fuel index s []).toWalk := by
  induction fuel generalizing index s with
  | zero =>
      intro summary h
      cases h
  | succ fuel ih =>
      rw [toWalk_bindFrom_succ, toWalk_bindFrom_succ, limit_loosen extra hloose]
      refine Walk.Keeps.bind (.read (keeps_thunk i.thunk i.view extra _)) fun value _ => ?_
      refine Walk.Keeps.ite (.refl _) (Walk.Keeps.ite (.refl _) ?_)
      refine Walk.Keeps.bind (.read (keeps_symbolOf extra hloose _ _ _ _)) fun symbol _ => ?_
      refine Walk.Keeps.bind (.refl _) fun _ _ => ?_
      exact Walk.Keeps.bind (.refl _) fun _ _ => ih _ _

/-- A descriptor keeps. -/
theorem keeps_readDescriptor (extra : Bytes) (hloose : Loosens i.options options')
    (s : ImportSummary) (d : ImportDescriptor) :
    Walk.Keeps (i.readDescriptor s d).toWalk
      ((i.loosen extra options').readDescriptor s d).toWalk := by
  rw [toWalk_readDescriptor, toWalk_readDescriptor]
  refine Walk.Keeps.bind (.read (i.view.keeps_string extra _ hloose.nameLimit_le))
    fun file _ => ?_
  refine Walk.Keeps.ite (.refl _) (Walk.Keeps.ite (.refl _) ?_)
  exact keeps_bindFrom extra hloose _ _ _ _ _ _

/-- The outer loop keeps. -/
theorem keeps_walkFrom (extra : Bytes) (hloose : Loosens i.options options')
    (fuel rva : Nat) (s : ImportSummary) :
    Walk.Keeps (i.walkFrom fuel rva s []).toWalk
      ((i.loosen extra options').walkFrom fuel rva s []).toWalk := by
  induction fuel generalizing rva s with
  | zero =>
      intro summary h
      cases h
  | succ fuel ih =>
      rw [toWalk_walkFrom_succ, toWalk_walkFrom_succ]
      refine Walk.Keeps.bind (.read (keeps_descriptor i.view extra _)) fun d _ => ?_
      refine Walk.Keeps.ite (.refl _) (Walk.Keeps.ite ?_ ?_)
      · exact Walk.Keeps.bind (.refl _) fun _ _ => ih _ _
      · refine Walk.Keeps.bind (keeps_readDescriptor extra hloose _ d) fun s' _ => ?_
        exact Walk.Keeps.ite (.refl _) (ih _ _)

/-- The import walk keeps. -/
theorem keeps_walk (extra : Bytes) (hloose : Loosens i.options options')
    (s : ImportSummary) (rva : Nat) :
    Walk.Keeps (i.walk s rva).toWalk ((i.loosen extra options').walk s rva).toWalk := by
  rw [toWalk_walk, toWalk_walk]
  exact Walk.Keeps.bind (keeps_walkFrom extra hloose _ _ _) fun _ _ => .refl _

end Importer

-- =============================================================== stages

/-- The export stage stays if both loads ask for it or neither does. -/
theorem keeps_walkExportsIfPresent (v : View) (extra : Bytes) (h : Headers)
    (hloose : Loosens options options') (hwalk : options'.walkExports = options.walkExports) :
    Walk.Keeps (walkExportsIfPresent v h options)
      (walkExportsIfPresent (v.append extra) h options') := by
  unfold walkExportsIfPresent
  rw [hwalk]
  refine Walk.Keeps.ite ?_ (.refl _)
  exact Walk.Keeps.bind (keeps_walkExports v extra _ hloose) fun _ _ => .refl _

/-- The import stage stays if both loads ask for it or neither does. -/
theorem keeps_walkImportsIfPresent (v : View) (extra : Bytes) (h : Headers)
    (names : OrdinalNames) (hloose : Loosens options options')
    (hwalk : options'.walkImports = options.walkImports) :
    Walk.Keeps (walkImportsIfPresent v h names options)
      (walkImportsIfPresent (v.append extra) h names options') := by
  unfold walkImportsIfPresent
  rw [hwalk]
  refine Walk.Keeps.ite ?_ (.refl _)
  exact Walk.Keeps.bind
    (Importer.keeps_walk (i := ⟨v, names, options, thunkOf h⟩) extra hloose {} _)
    fun _ _ => .refl _

/-- Options that ask for the same and refuse no more: the same
directories are walked under the same limits on symbols, and section
tables and names may be longer. The largest size of a file is no matter
of a load. -/
structure Relaxes (options options' : LoadOptions) : Prop
    extends Loosens options options' where
  walkExports_eq : options'.walkExports = options.walkExports
  walkImports_eq : options'.walkImports = options.walkImports
  maxSections_le : options.maxSections ≤ options'.maxSections

namespace Stages

variable {names : OrdinalNames}

/-- The stages of a load are those of a longer file under looser
options. -/
def relax (st : Stages options names data) (extra : Bytes) (h : Relaxes options options') :
    Stages options' names (data ++ extra) where
  dos := st.dos
  headers := st.headers
  sections := st.sections
  variant := st.variant
  dos_eq := keeps_readDosHeader data extra _ st.dos_eq
  headers_eq := keeps_readHeaders data extra _ _ st.headers_eq
  sections_eq :=
    keeps_readSections data extra _ _ (UInt64.le_iff_toNat_le.mp h.maxSections_le) _
      st.sections_eq
  entry_eq := st.entry_eq
  exports_eq := by
    have hkeeps := keeps_walkExportsIfPresent st.view extra st.headers h.toLoosens
      h.walkExports_eq () st.exports_eq
    show (walkExportsIfPresent (st.view.append extra) st.headers options').outcome = .ok ()
    rw [hkeeps]
    exact st.exports_eq
  imports_eq := by
    have hkeeps := keeps_walkImportsIfPresent st.view extra st.headers names h.toLoosens
      h.walkImports_eq st.variant st.imports_eq
    show (walkImportsIfPresent (st.view.append extra) st.headers names options').outcome
      = .ok st.variant
    rw [hkeeps]
    exact st.imports_eq

/-- The image of the looser load is the same. -/
theorem image_relax (st : Stages options names data) (extra : Bytes)
    (h : Relaxes options options') : (st.relax extra h).image = st.image := by
  have hexports : (st.relax extra h).exportSteps = st.exportSteps :=
    congrArg Walk.steps (keeps_walkExportsIfPresent st.view extra st.headers h.toLoosens
      h.walkExports_eq () st.exports_eq)
  have himports : (st.relax extra h).importSteps = st.importSteps :=
    congrArg Walk.steps (keeps_walkImportsIfPresent st.view extra st.headers names
      h.toLoosens h.walkImports_eq st.variant st.imports_eq)
  have hsteps : (st.relax extra h).steps = st.steps := by
    unfold steps
    rw [hexports, himports]
    rfl
  unfold image
  rw [hsteps]
  rfl

end Stages

/-- A load that succeeds comes to the same image when bytes are put
behind the file and when the options are relaxed. -/
theorem load_append_of_relaxes {options options' : LoadOptions} (names : OrdinalNames)
    (data extra : Bytes) {image : Loaded} (hrelaxes : Relaxes options options')
    (h : (load options names data).outcome = .ok image) :
    (load options' names (data ++ extra)).outcome = .ok image := by
  obtain ⟨st, rfl⟩ := load_eq_ok_iff.mp h
  exact load_eq_ok_iff.mpr ⟨st.relax extra hrelaxes, st.image_relax extra hrelaxes⟩

/-- The sample with bytes behind it, under looser options. -/
theorem load_append_of_relaxes_sample :
    Relaxes .default { maxSections := 65535, maxNameLength := 600, maxFileSize := 1 }
      ∧ ∃ image,
          (load .default OrdinalDatabase.builtin.lookup? sample).outcome = .ok image
          ∧ (load { maxSections := 65535, maxNameLength := 600, maxFileSize := 1 }
              OrdinalDatabase.builtin.lookup? (sample ++ #[0x4D, 0x5A, 0xFF])).outcome
              = .ok image := by
  have hrelaxes : Relaxes .default
      { maxSections := 65535, maxNameLength := 600, maxFileSize := 1 } :=
    { maxImports_eq := rfl
      maxExports_eq := rfl
      maxNameLength_le := by decide
      walkExports_eq := rfl
      walkImports_eq := rfl
      maxSections_le := by decide }
  obtain ⟨st⟩ := sample_stages
  have h := load_eq_ok_iff.mpr ⟨st, rfl⟩
  exact ⟨hrelaxes, st.image, h, load_append_of_relaxes _ sample _ hrelaxes h⟩

end Pe

end Dissect

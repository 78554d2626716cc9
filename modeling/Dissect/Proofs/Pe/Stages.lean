/-
The stages of a successful load.

`Stages` is what the stages of a load come to, with the proof that each
of them succeeded. A load succeeds exactly when there are such stages,
and the image is theirs (`load_eq_ok_iff`): statements about loads, of
one image or of several, are statements about stages, and nothing opens
the loader again.

The symbols of an image come from three lists in order: the entry
point, the exports, the imports (`Stages.lookup?_image`). Each stage
defines symbols of a kind of its own, at addresses that the segments
map.
-/
import Dissect.Pe.Load
import Dissect.Proofs.Pe.Export
import Dissect.Proofs.Pe.Import
import Dissect.Proofs.Symbol.Table

namespace Dissect.Pe

/-- The view that headers and sections give of a file. -/
def viewOf (data : Bytes) (headers : Headers) (sections : List Section) : View :=
  ⟨data, segmentsOf sections headers.optional.imageBase, headers.optional.imageBase⟩

/-- What the stages of a load come to when all of them succeed. -/
structure Stages (options : LoadOptions) (names : OrdinalNames) (data : Bytes) where
  dos : DosHeader
  headers : Headers
  sections : List Section
  variant : Variant
  dos_eq : readDosHeader data = .ok dos
  headers_eq : readHeaders data dos.peOffset.toNat = .ok headers
  sections_eq :
    readSections data (sectionTableOffset dos headers) headers.coff.sectionCount.toNat
      options.maxSections.toNat = .ok sections
  entry_eq :
    (walkEntryPoint (viewOf data headers sections) headers.optional.entryRva).outcome = .ok ()
  exports_eq :
    (walkExportsIfPresent (viewOf data headers sections) headers options).outcome = .ok ()
  imports_eq :
    (walkImportsIfPresent (viewOf data headers sections) headers names options).outcome
      = .ok variant

namespace Stages

variable {options : LoadOptions} {names : OrdinalNames} {data : Bytes}

/-- The view that the directories are walked through. -/
def view (st : Stages options names data) : View := viewOf data st.headers st.sections

/-- What happened to the section table. -/
def sectionNotes (st : Stages options names data) : List Event :=
  skipped st.sections st.headers.optional.imageBase
    ++ [.sectionsRead st.sections.length st.view.segments.length]

/-- The steps of the entry point. -/
def entrySteps (st : Stages options names data) : List Step :=
  (walkEntryPoint st.view st.headers.optional.entryRva).steps

/-- The steps of the export directory. -/
def exportSteps (st : Stages options names data) : List Step :=
  (walkExportsIfPresent st.view st.headers options).steps

/-- The steps of the import directory. -/
def importSteps (st : Stages options names data) : List Step :=
  (walkImportsIfPresent st.view st.headers names options).steps

/-- All steps of the load. -/
def steps (st : Stages options names data) : List Step :=
  st.sectionNotes.map .note ++ (st.entrySteps ++ (st.exportSteps ++ st.importSteps))

/-- The image that is loaded. -/
def image (st : Stages options names data) : Loaded :=
  ⟨st.headers, st.view.segments, SymbolTable.empty.after st.steps, st.variant⟩

end Stages

variable {options : LoadOptions} {names : OrdinalNames} {data : Bytes}

-- ============================================================ inversion

/-- A walk of an image that comes to something went through all of its
stages. -/
theorem exists_stages {s : Structure} (h : (walkImage options names data).outcome = .ok s) :
    Nonempty (Stages options names data) := by
  unfold walkImage at h
  obtain ⟨dos, hdos, h⟩ := Walk.bind_eq_ok_iff.mp h
  obtain ⟨headers, hheaders, h⟩ := Walk.bind_eq_ok_iff.mp h
  obtain ⟨sections, hsections, h⟩ := Walk.bind_eq_ok_iff.mp h
  obtain ⟨⟨⟩, -, h⟩ := Walk.bind_eq_ok_iff.mp h
  obtain ⟨⟨⟩, -, h⟩ := Walk.bind_eq_ok_iff.mp h
  obtain ⟨⟨⟩, hentry, h⟩ := Walk.bind_eq_ok_iff.mp h
  obtain ⟨⟨⟩, hexports, h⟩ := Walk.bind_eq_ok_iff.mp h
  obtain ⟨variant, himports, -⟩ := Walk.bind_eq_ok_iff.mp h
  exact ⟨⟨dos, headers, sections, variant, hdos, hheaders, hsections, hentry, hexports,
    himports⟩⟩

/-- Stages that all succeed make the walk of the image. -/
theorem Stages.walkImage_eq (st : Stages options names data) :
    walkImage options names data
      = ⟨st.steps, .ok ⟨st.headers, st.view.segments, st.variant⟩⟩ := by
  unfold walkImage
  rw [st.dos_eq, Walk.read_ok_bind, st.headers_eq, Walk.read_ok_bind, st.sections_eq,
    Walk.read_ok_bind]
  show (do
      Walk.notes (skipped st.sections st.headers.optional.imageBase)
      Walk.note (.sectionsRead st.sections.length st.view.segments.length)
      walkEntryPoint st.view st.headers.optional.entryRva
      walkExportsIfPresent st.view st.headers options
      let variant ← walkImportsIfPresent st.view st.headers names options
      pure (⟨st.headers, st.view.segments, variant⟩ : Structure)) = _
  have hentry : (walkEntryPoint st.view st.headers.optional.entryRva).outcome = .ok () :=
    st.entry_eq
  have hexports : (walkExportsIfPresent st.view st.headers options).outcome = .ok () :=
    st.exports_eq
  have himports : (walkImportsIfPresent st.view st.headers names options).outcome
      = .ok st.variant := st.imports_eq
  rw [Walk.bind_of_ok himports, Walk.bind_of_ok hexports, Walk.bind_of_ok hentry]
  simp [Stages.steps, Stages.sectionNotes, Stages.entrySteps, Stages.exportSteps,
    Stages.importSteps]

/-- A load succeeds exactly when its stages do, and the image is
theirs. -/
theorem load_eq_ok_iff {image : Loaded} :
    (load options names data).outcome = .ok image
      ↔ ∃ st : Stages options names data, st.image = image := by
  constructor
  · intro h
    cases hwalk : (walkImage options names data).outcome with
    | error e =>
        rw [load, conclude, hwalk] at h
        cases h
    | ok s =>
        obtain ⟨st⟩ := exists_stages hwalk
        refine ⟨st, ?_⟩
        rw [load, st.walkImage_eq] at h
        exact Except.ok.inj h
  · rintro ⟨st, rfl⟩
    rw [load, st.walkImage_eq]
    rfl

/-- A load that reports no error went through all stages. -/
theorem stages_of_isOk (h : (load options names data).outcome.isOk = true) :
    Nonempty (Stages options names data) := by
  cases hload : (load options names data).outcome with
  | error e =>
      rw [hload] at h
      cases h
  | ok image =>
      obtain ⟨st, -⟩ := load_eq_ok_iff.mp hload
      exact ⟨st⟩

namespace Stages

-- ========================================================= what is where

/-- The symbols of the image are those of the three stages that define
any. -/
theorem definitions_steps (st : Stages options names data) :
    definitions st.steps
      = definitions st.entrySteps
        ++ (definitions st.exportSteps ++ definitions st.importSteps) := by
  unfold steps
  rw [definitions_append, definitions_notes, List.nil_append, definitions_append,
    definitions_append]

/-- At an address the image shows the last import, or else the last
export, or else the entry point. -/
theorem lookup?_image (st : Stages options names data) (a : Address) :
    st.image.symbols.lookup? a
      = ((lastAt? (definitions st.importSteps) a).or
          (lastAt? (definitions st.exportSteps) a)).or
        (lastAt? (definitions st.entrySteps) a) := by
  show (SymbolTable.empty.defineAll (definitions st.steps)).lookup? a = _
  rw [SymbolTable.lookup?_defineAll, SymbolTable.lookup?_empty, Option.or_none,
    definitions_steps, lastAt?_append, lastAt?_append]

/-- An image without an entry point has no symbol for it. -/
theorem entrySteps_of_zero (st : Stages options names data)
    (h : st.headers.optional.entryRva = 0) : st.entrySteps = [] := by
  unfold entrySteps walkEntryPoint
  rw [if_pos h]
  rfl

/-- The entry point of an image that has one is mapped, and defined
once. -/
theorem definitions_entrySteps (st : Stages options names data)
    (h : st.headers.optional.entryRva ≠ 0) :
    ∃ a, st.view.mappedAddress st.headers.optional.entryRva.toNat = .ok a
      ∧ definitions st.entrySteps = [⟨entryPointName, a, .entryPoint⟩] := by
  have hentry := st.entry_eq
  unfold walkEntryPoint at hentry
  rw [if_neg h] at hentry
  obtain ⟨a, ha, -⟩ := Walk.bind_eq_ok_iff.mp hentry
  refine ⟨a, ha, ?_⟩
  unfold entrySteps walkEntryPoint
  rw [if_neg h, show st.view.mappedAddress _ = .ok a from ha]
  rfl

/-- The entry point is a symbol of its own kind at a mapped address. -/
theorem places_entrySteps (st : Stages options names data) :
    ∀ s ∈ definitions st.entrySteps, st.view.Places .entryPoint s := by
  intro s hs
  by_cases h : st.headers.optional.entryRva = 0
  · rw [st.entrySteps_of_zero h] at hs
    simp at hs
  · obtain ⟨a, ha, hdefinitions⟩ := st.definitions_entrySteps h
    rw [hdefinitions, List.mem_singleton] at hs
    subst hs
    exact ⟨rfl, _, ha⟩

/-- The export stage does nothing, or is the export walk. -/
theorem definitions_exportSteps (st : Stages options names data) :
    definitions st.exportSteps = []
      ∨ definitions st.exportSteps
          = definitions
              (walkExports st.view (st.headers.directory exportDirectory) options).steps := by
  unfold exportSteps walkExportsIfPresent
  dsimp only
  split
  · right
    generalize walkExports st.view _ options = walk
    cases hwalk : walk.outcome with
    | error e => rw [Walk.bind_of_error hwalk]
    | ok n =>
        rw [Walk.bind_of_ok hwalk]
        simp
  · exact .inl rfl

/-- The import stage does nothing, or is the import walk. -/
theorem definitions_importSteps (st : Stages options names data) :
    definitions st.importSteps = []
      ∨ ∃ rva, definitions st.importSteps
          = definitions
              ((⟨st.view, names, options, thunkOf st.headers⟩ : Importer).walk {} rva).steps := by
  unfold importSteps walkImportsIfPresent
  dsimp only
  split
  · right
    refine ⟨(st.headers.directory importDirectory).rva.toNat, ?_⟩
    rw [← ImportRun.toWalk_steps]
    generalize ImportRun.toWalk _ = walk
    cases hwalk : walk.outcome with
    | error e => rw [Walk.bind_of_error hwalk]
    | ok n =>
        rw [Walk.bind_of_ok hwalk]
        simp
  · exact .inl rfl

/-- The export stage defines exported symbols at mapped addresses. -/
theorem places_exportSteps (st : Stages options names data) :
    ∀ s ∈ definitions st.exportSteps, st.view.Places .exported s := by
  rcases st.definitions_exportSteps with h | h
  · simp [h]
  · rw [h]
    exact places_walkExports st.view _ options

/-- The import stage defines imported symbols at mapped addresses. -/
theorem places_importSteps (st : Stages options names data) :
    ∀ s ∈ definitions st.importSteps, st.view.Places .imported s := by
  rcases st.definitions_importSteps with h | ⟨rva, h⟩
  · simp [h]
  · rw [h]
    exact (Importer.accounts_walk {} rva).places

/-- The export stage keeps to its limit. -/
theorem length_exportSteps_le (st : Stages options names data) :
    (definitions st.exportSteps).length ≤ options.maxExports.toNat := by
  rcases st.definitions_exportSteps with h | h
  · simp [h]
  · rw [h]
    exact length_walkExports_le st.view _ options

/-- The import stage keeps to its limit. -/
theorem length_importSteps_le (st : Stages options names data) :
    (definitions st.importSteps).length ≤ options.maxImports.toNat := by
  rcases st.definitions_importSteps with h | ⟨rva, h⟩
  · simp [h]
  · have haccounts := Importer.accounts_walk
      (i := ⟨st.view, names, options, thunkOf st.headers⟩) {} rva
    have hcount := haccounts.count
    have hwithin := haccounts.within (Nat.zero_le _)
    rw [hcount, Nat.zero_add, ← h] at hwithin
    exact hwithin

end Stages

-- =============================================================== a sample

/-- The bytes of a number, least significant first. -/
def spell : (width n : Nat) → List UInt8
  | 0, _ => []
  | width + 1, n => UInt8.ofNat n :: spell width (n / 256)

/-- Bytes that nothing reads or that are read as zero. -/
def blank (count : Nat) : List UInt8 := List.replicate count 0

/-- Where the tables of samples are mapped. -/
theorem samplePage_nonempty : (0x401000 : Address) < 0x402000 := by decide

/-- A small image with an entry point, one export and one import. -/
def sample : Bytes :=
  List.toArray <| List.flatten
    [ -- DOS header
      [0x4D, 0x5A], blank 58, spell 4 64,
      -- signature and COFF header, one section
      signature.toList, spell 2 0x14C, spell 2 1, blank 12, spell 2 112, blank 2,
      -- optional header: entry point, image base, two directories
      spell 2 0x10B, blank 14, spell 4 0x1000, blank 8, spell 4 0x400000, blank 60, spell 4 2,
      spell 4 0x1000, spell 4 50, spell 4 0x1040, spell 4 40,
      -- section header: 256 addresses from 0x1000 on, in the file from 240 on
      [0x2E, 0x74], blank 6, spell 4 256, spell 4 0x1000, spell 4 256, spell 4 240, blank 12,
      spell 4 0x60000020,
      -- 0x1000: export header, one function with a name
      blank 12, spell 4 0x1038, spell 4 1, spell 4 1, spell 4 1, spell 4 0x1028,
      spell 4 0x102C, spell 4 0x1030,
      -- 0x1028: function, name and index tables, library and function names
      spell 4 0x1080, spell 4 0x103A, blank 8, [0x6D, 0], [0x66, 0], blank 4,
      -- 0x1040: one import descriptor and the end of them
      spell 4 0x1068, blank 8, spell 4 0x1078, spell 4 0x1070, blank 20,
      -- 0x1068: lookup table with ordinal 3, slots, library name
      spell 4 0x80000003, blank 4, blank 8, [0x64, 0x2E, 0x64, 0x6C, 0x6C, 0], blank 2,
      -- 0x1080: the exported function
      [0xC3, 0] ]

/-- The sample goes through all stages. -/
theorem sample_stages : Nonempty (Stages .default OrdinalDatabase.builtin.lookup? sample) := by
  apply stages_of_isOk
  decide +kernel

end Dissect.Pe

/-
Loading a PE image.

# The stages

Headers, section table, entry point, export directory, import
directory, in this order; the first error ends the load. The symbols of
a later stage take the place of those of an earlier one at the same
address.

# Sessions

A session holds the image of its last successful load. A load that fails
leaves the session as it was.
-/
import Dissect.Pe.Export
import Dissect.Pe.Import

namespace Dissect.Pe

/-- The name of the entry point's symbol. -/
def entryPointName : String := "entrypoint"

/-- The number of the export directory. -/
def exportDirectory : Nat := 0

/-- The number of the import directory. -/
def importDirectory : Nat := 1

/-- What the structures of an image come to, symbols apart. -/
structure Structure where
  headers : Headers
  segments : List Segment
  variant : Variant
  deriving DecidableEq

/-- A loaded image. -/
structure Loaded where
  headers : Headers
  segments : List Segment
  symbols : SymbolTable
  variant : Variant
  deriving DecidableEq

-- =============================================================== stages

/-- The sections of a table that become no segment, as events. -/
def skipped (sections : List Section) (base : Address) : List Event :=
  (sections.filter fun s => s.isEmptyAt base).map fun s => .sectionSkipped s.name

/-- Define the entry point, if the image has one. -/
def walkEntryPoint (v : View) (rva : UInt32) : Walk Unit :=
  if rva = 0 then pure ()
  else do
    let address ← Walk.read (v.mappedAddress rva.toNat)
    Walk.note (.entryPoint address)
    Walk.define ⟨entryPointName, address, .entryPoint⟩

/-- Walk the export directory, if it is there and wanted. -/
def walkExportsIfPresent (v : View) (h : Headers) (options : LoadOptions) : Walk Unit :=
  let directory := h.directory exportDirectory
  if options.walkExports && directory.isPresent then do
    let _ ← walkExports v directory options
    pure ()
  else pure ()

/-- The width of the image's thunks. -/
def thunkOf (h : Headers) : Thunk := if h.optional.is64Bit then .wide else .narrow

/-- Walk the import directory, if it is there and wanted; what the
libraries say about the image. -/
def walkImportsIfPresent (v : View) (h : Headers) (names : OrdinalNames)
    (options : LoadOptions) : Walk Variant :=
  let directory := h.directory importDirectory
  if options.walkImports && directory.isPresent then do
    let importer : Importer := ⟨v, names, options, thunkOf h⟩
    let summary ← (importer.walk {} directory.rva.toNat).toWalk
    pure (if summary.visualBasic then .visualBasic else .generic)
  else pure .generic

/-- Walk the whole image. -/
def walkImage (options : LoadOptions) (names : OrdinalNames) (data : Bytes) :
    Walk Structure := do
  let dos ← Walk.read (readDosHeader data)
  let headers ← Walk.read (readHeaders data dos.peOffset.toNat)
  let base := headers.optional.imageBase
  let sections ← Walk.read
    (readSections data (sectionTableOffset dos headers) headers.coff.sectionCount.toNat
      options.maxSections.toNat)
  let segments := segmentsOf sections base
  Walk.notes (skipped sections base)
  Walk.note (.sectionsRead sections.length segments.length)
  let v : View := ⟨data, segments, base⟩
  walkEntryPoint v headers.optional.entryRva
  walkExportsIfPresent v headers options
  let variant ← walkImportsIfPresent v headers names options
  pure ⟨headers, segments, variant⟩

-- ================================================================ loads

/-- The image that a structure and the steps that led to it make. -/
def Structure.loaded (s : Structure) (steps : List Step) : Loaded :=
  ⟨s.headers, s.segments, SymbolTable.empty.after steps, s.variant⟩

/-- The report of a successful load. -/
def Loaded.report (i : Loaded) : Event :=
  .loaded i.headers.optional.bits i.segments.length i.symbols.size i.variant

/-- What the load of a file comes to when its walk is over. -/
def conclude (data : Bytes) (walk : Walk Structure) : Loading Loaded :=
  let events := .loading data.size :: eventsFrom .empty walk.steps
  match walk.outcome with
  | .error e => ⟨events, .error (.image e)⟩
  | .ok s =>
    let image := s.loaded walk.steps
    ⟨events ++ [image.report], .ok image⟩

/-- Load an image. -/
def load (options : LoadOptions) (names : OrdinalNames) (data : Bytes) : Loading Loaded :=
  conclude data (walkImage options names data)

-- ============================================================= sessions

/-- A loader and the image it holds. -/
structure Session where
  options : LoadOptions := .default
  names : OrdinalNames := OrdinalDatabase.builtin.lookup?
  image : Option Loaded := none

namespace Session

/-- Load an image over the one that is held, if it can be loaded. -/
def load (s : Session) (data : Bytes) : Session × Loading Unit :=
  let loading := Pe.load s.options s.names data
  match loading.outcome with
  | .ok image => ({ s with image := some image }, ⟨loading.events, .ok ()⟩)
  | .error e => (s, ⟨loading.events, .error e⟩)

/-- The headers of the image that is loaded. -/
def headers? (s : Session) : Option Headers := s.image.map (·.headers)

/-- The image base of the image that is loaded. -/
def imageBase? (s : Session) : Option UInt64 := s.headers?.map (·.optional.imageBase)

/-- The machine that the loaded image is for. -/
def machine? (s : Session) : Option Machine := s.headers?.map (·.coff.machine)

/-- The segments of the image that is loaded; without one there are
none. -/
def segments (s : Session) : List Segment := (s.image.map (·.segments)).getD []

/-- What the imports say about the image. -/
def variant (s : Session) : Variant := (s.image.map (·.variant)).getD .generic

/-- The address of the entry point, if the image has one. -/
def entryPoint? (s : Session) : Option Address := do
  let h ← s.headers?
  if h.optional.entryRva = 0 then none
  else sum? h.optional.imageBase h.optional.entryRva.toNat

/-- What is loaded, in the form that all formats share. -/
def toImage (s : Session) : Image where
  format := "pe"
  bits := (s.headers?.map (·.optional.bits)).getD 0
  processor := s.machine?.bind (·.processor?)
  entryPoint := s.entryPoint?
  analyzer := s.variant.analyzer
  segments := s.segments
  symbols := s.image.map (·.symbols)

/-- The file offset behind a relative address; a session without an image
has base zero and no segments. -/
def rvaToOffset (s : Session) (rva : UInt64) : Except LoadError UInt64 :=
  match sum? (s.imageBase?.getD 0) rva.toNat with
  | some a => s.toImage.offset a
  | none => .error (.unresolved rva)

/-- A fresh session, loaded once. -/
def openImage (options : LoadOptions) (data : Bytes) : Loading Image :=
  let (s, loading) := ({ options := options } : Session).load data
  ⟨loading.events, loading.outcome.map fun _ => s.toImage⟩

/-- How a session without an image is shown. -/
def describeUnloaded (s : Session) : String :=
  "PeFormat \x7b options: " ++ s.options.describe ++ ", image: None, .. \x7d"

end Session

end Dissect.Pe

/-
Loading with bounded arithmetic.

`load` is the loader as a machine with 64-bit words runs it: it ends in
a load, successful or not, or in the fault of the first operation that
leaves its range. For every file, every choice of options and every
source of ordinal names it ends in the load that the unbounded loader
comes to. So nothing ever faults, and no position, count or length that
the loader computes without limits is different on a machine.

The stages are put together from their own agreements. The import stage
is the one that asks for something: that the segments are near the image
base, which they are because a section table made them.
-/
import Dissect.Pe.Load
import Dissect.Proofs.Pe.Bounded.Exports
import Dissect.Proofs.Pe.Bounded.Headers
import Dissect.Proofs.Pe.Bounded.Imports
import Dissect.Proofs.Pe.Stages

namespace Dissect.Pe.Bounded

/-- The entry point, if there is one. -/
def walkEntryPoint (v : View) (rva : UInt32) : Guarded Unit :=
  if rva = 0 then pure ()
  else do
    let address ← mappedAddress v rva.toNat
    note (.entryPoint address)
    define ⟨entryPointName, address, .entryPoint⟩

/-- The exports, if they are there and asked for. -/
def walkExportsIfPresent (v : View) (h : Headers) (options : LoadOptions) : Guarded Unit :=
  let directory := h.directory exportDirectory
  if options.walkExports && directory.isPresent then do
    let _ ← walkExports v directory options
    pure ()
  else pure ()

/-- The imports, if they are there and asked for, and the variant they
tell. -/
def walkImportsIfPresent (v : View) (h : Headers) (names : OrdinalNames)
    (options : LoadOptions) : Guarded Variant :=
  let directory := h.directory importDirectory
  if options.walkImports && directory.isPresent then do
    let importer : Importer := ⟨v, names, options, thunkOf h⟩
    let summary ← walkImports importer directory.rva.toNat
    pure (if summary.visualBasic then .visualBasic else .generic)
  else pure .generic

/-- The walk of an image, stage by stage. -/
def walkImage (options : LoadOptions) (names : OrdinalNames) (data : Bytes) :
    Guarded Structure := do
  let dos ← readDosHeader data
  let headers ← readHeaders data dos.peOffset.toNat
  let base := headers.optional.imageBase
  let table ← sectionTableOffset dos headers
  let sections ← readSections data table headers.coff.sectionCount.toNat
    options.maxSections.toNat
  let segments := segmentsOf sections base
  notes (skipped sections base)
  note (.sectionsRead sections.length segments.length)
  let v : View := ⟨data, segments, base⟩
  walkEntryPoint v headers.optional.entryRva
  walkExportsIfPresent v headers options
  let variant ← walkImportsIfPresent v headers names options
  pure ⟨headers, segments, variant⟩

/-- Load an image on a machine with 64-bit words. -/
def load (options : LoadOptions) (names : OrdinalNames) (data : Bytes) :
    Except Fault (Loading Loaded) :=
  match walkImage options names data with
  | .fault f => .error f
  | .within walk => .ok (conclude data walk)

-- ============================================================== agreement

/-- Only the lookup of the entry point computes anything. -/
theorem walkEntryPoint_eq (v : View) (rva : UInt32) :
    walkEntryPoint v rva = .within (Pe.walkEntryPoint v rva) := by
  unfold walkEntryPoint Pe.walkEntryPoint
  split
  · rfl
  · exact within_bind (mappedAddress_eq _ _) fun address _ => rfl

section Stages

variable {v : View} (hsize : v.data.size < sizeLimit)
include hsize

theorem walkExportsIfPresent_eq (h : Headers) (options : LoadOptions) :
    walkExportsIfPresent v h options = .within (Pe.walkExportsIfPresent v h options) := by
  unfold walkExportsIfPresent Pe.walkExportsIfPresent
  dsimp only
  split
  · exact within_bind (walkExports_eq hsize _ options) fun _ _ => rfl
  · rfl

/-- The import stage never faults among segments near the image base. -/
theorem walkImportsIfPresent_eq (hnear : v.Near) (h : Headers) (names : OrdinalNames)
    (options : LoadOptions) :
    walkImportsIfPresent v h names options
      = .within (Pe.walkImportsIfPresent v h names options) := by
  unfold walkImportsIfPresent Pe.walkImportsIfPresent
  dsimp only
  split
  · refine within_bind (walkImports_eq ?_ ?_ (UInt32.toNat_lt _)) fun s _ => rfl
    · exact hsize
    · exact hnear
  · rfl

end Stages

/-- The walk of an image never faults. -/
theorem walkImage_eq (options : LoadOptions) (names : OrdinalNames) {data : Bytes}
    (hsize : data.size < sizeLimit) :
    walkImage options names data = .within (Pe.walkImage options names data) := by
  unfold walkImage Pe.walkImage
  refine within_bind (readDosHeader_eq hsize) fun dos _ => ?_
  refine within_bind (readHeaders_eq hsize dos.peOffset.toNat_lt) fun headers _ => ?_
  have htable : Pe.sectionTableOffset dos headers < 2 ^ 33 := by
    have hpe := dos.peOffset.toNat_lt
    have hoptional := headers.coff.optionalSize.toNat_lt
    unfold Pe.sectionTableOffset coffHeaderSize
    omega
  dsimp only
  rw [sectionTableOffset_eq, pure_bind]
  refine within_bind (readSections_eq data htable headers.coff.sectionCount.toNat_lt _)
    fun sections _ => ?_
  refine within_bind rfl fun _ _ => within_bind rfl fun _ _ => ?_
  refine within_bind (walkEntryPoint_eq _ _) fun _ _ => ?_
  refine within_bind (walkExportsIfPresent_eq ?_ _ _) fun _ _ => ?_
  · exact hsize
  -- The view is one of a section table, so its segments are near.
  refine within_bind (walkImportsIfPresent_eq ?_ ?_ _ _ _) fun variant _ => rfl
  · exact hsize
  · exact View.near_segmentsOf data sections headers.optional.imageBase

/-- Loading never leaves the range of the machine's arithmetic: the
bounded loader ends in the load that the unbounded one comes to, and no
segment's range is negative. -/
theorem load_eq_ok (options : LoadOptions) (names : OrdinalNames) (data : Bytes)
    (hsize : data.size < 2 ^ 63) :
    load options names data = .ok (Pe.load options names data)
      ∧ ∀ s : Segment, segmentSize s = pure s.size.toNat := by
  refine ⟨?_, segmentSize_eq⟩
  rw [load, walkImage_eq options names hsize, Pe.load]

/-- The sample image loads on a machine. -/
theorem load_eq_ok_sample :
    sample.size < 2 ^ 63
      ∧ load .default OrdinalDatabase.builtin.lookup? sample
        = .ok (Pe.load .default OrdinalDatabase.builtin.lookup? sample) := by
  have hsize : sample.size < 2 ^ 63 := by decide +kernel
  exact ⟨hsize, (load_eq_ok .default OrdinalDatabase.builtin.lookup? sample hsize).1⟩

end Dissect.Pe.Bounded

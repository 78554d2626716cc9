/-
The import directory: which functions an image needs from which
libraries, and where the loader puts their addresses.

# Thunks

A thunk is a word that names one function: by ordinal if its top bit is
set, otherwise by the relative address of a hint and a name. The
thunks of a library end with a zero. Images of the two address widths
differ in the width of their thunks and in nothing else.

# The walk

A descriptor has two tables: the names are read from the lookup table,
and the symbol of a name is the slot of the same index in the other,
because that is the one that code goes through. Descriptors end with an
all-zero one; one without a library is passed over. When the limit is
met the walk is over.

The account of a walk outlives an error: an `ImportRun` has it, the
steps, and the error.
-/
import Dissect.Options
import Dissect.Pe.ImportName
import Dissect.Pe.Ordinal
import Dissect.Pe.View
import Dissect.Walk

namespace Dissect.Pe

-- =============================================================== thunks

/-- The width of thunks. -/
inductive Thunk where
  | narrow
  | wide
  deriving DecidableEq, Repr

namespace Thunk

/-- Bytes of a thunk. -/
def width : Thunk → Nat
  | .narrow => 4
  | .wide => 8

/-- The bit that marks an ordinal. -/
def ordinalFlag : Thunk → UInt64
  | .narrow => 0x80000000
  | .wide => 0x8000000000000000

/-- The thunk at a relative address. -/
def read (t : Thunk) (v : View) (rva : Nat) : Except ImageError UInt64 :=
  match t with
  | .narrow => (v.word32 rva).map (·.toUInt64)
  | .wide => v.word64 rva

/-- The ordinal of a thunk that has one: the value without its flag. -/
def ordinal? (t : Thunk) (value : UInt64) : Option UInt64 :=
  if value &&& t.ordinalFlag != 0 then some (value ^^^ t.ordinalFlag) else none

end Thunk

-- ========================================================== descriptors

/-- The size of an import descriptor. -/
def descriptorSize : Nat := 20

/-- What an image imports from one library. -/
structure ImportDescriptor where
  /-- The table of names, zero if the slots hold them. -/
  lookupRva : UInt32
  timestamp : UInt32
  forwarderChain : UInt32
  libraryRva : UInt32
  /-- The table of slots. -/
  slotsRva : UInt32
  deriving DecidableEq, Repr

namespace ImportDescriptor

/-- The descriptor at a relative address. -/
def read (v : View) (rva : Nat) : Except ImageError ImportDescriptor := do
  let lookupRva ← v.word32 rva
  let timestamp ← v.word32 (rva + 4)
  let forwarderChain ← v.word32 (rva + 8)
  let libraryRva ← v.word32 (rva + 12)
  let slotsRva ← v.word32 (rva + 16)
  pure ⟨lookupRva, timestamp, forwarderChain, libraryRva, slotsRva⟩

/-- All zero: the end of the descriptors. -/
def isNull (d : ImportDescriptor) : Bool := d == ⟨0, 0, 0, 0, 0⟩

/-- Where the names are read from. -/
def namesRva (d : ImportDescriptor) : UInt32 :=
  if d.lookupRva ≠ 0 then d.lookupRva else d.slotsRva

end ImportDescriptor

-- ============================================================== the walk

/-- The account of an import walk. -/
structure ImportSummary where
  descriptors : Nat := 0
  imports : Nat := 0
  /-- A library of the Visual Basic runtime was met. -/
  visualBasic : Bool := false
  /-- The limit was met. -/
  capped : Bool := false
  deriving DecidableEq, Repr, Inhabited

/-- An import walk so far: the account, the steps and the error that
ended it. -/
structure ImportRun where
  summary : ImportSummary
  steps : List Step
  fault : Option ImageError
  deriving DecidableEq, Repr

namespace ImportRun

/-- A run that did nothing. -/
def idle (s : ImportSummary) : ImportRun := ⟨s, [], none⟩

/-- A run that ended with an error. -/
def failed (s : ImportSummary) (e : ImageError) : ImportRun := ⟨s, [], some e⟩

/-- The walk that a run is. -/
def toWalk (r : ImportRun) : Walk ImportSummary :=
  match r.fault with
  | some e => ⟨r.steps, .error e⟩
  | none => ⟨r.steps, .ok r.summary⟩

end ImportRun

/-- The most entries of a width that a table can have: at an entry past
them addresses have ended, and nothing is mapped there. -/
def entryLimit (width : Nat) : Nat := UInt64.size / width + 1

/-- What an import walk goes by. -/
structure Importer where
  view : View
  names : OrdinalNames
  options : LoadOptions
  thunk : Thunk

namespace Importer

/-- At most this many symbols. -/
def limit (i : Importer) : Nat := i.options.maxImports.toNat

/-- The name of an ordinal, if it fits the database and is there. -/
def ordinalName? (i : Importer) (library : String) (ordinal : UInt64) : Option String :=
  if ordinal.toNat < UInt16.size then i.names library (UInt16.ofNat ordinal.toNat) else none

/-- The name a thunk stands for. The name of a hint and a name is behind
the two bytes of the hint. -/
def importName (i : Importer) (library : String) (value : UInt64) :
    Except ImageError String :=
  match i.thunk.ordinal? value with
  | some ordinal =>
    match i.ordinalName? library ordinal with
    | some name => .ok (qualifiedName library (.name name))
    | none => .ok (qualifiedName library (.ordinal ordinal.toNat))
  | none =>
    match sum? value 2 with
    | none => .error (.unmapped value.toNat)
    | some rva => do
      let name ← i.view.string rva.toNat i.options.maxNameLength.toNat
      pure (qualifiedName library (.name name))

/-- The slot and the name of the thunk with an index. -/
def symbolOf (i : Importer) (library : String) (slots index : Nat) (value : UInt64) :
    Except ImageError Symbol := do
  let address ← i.view.mappedAddress (slots + index * i.thunk.width)
  let name ← i.importName library value
  pure ⟨name, address, .imported⟩

/-- Define a symbol for each thunk from an index on, up to the first
zero. The steps so far, of which the last comes first, are those of the
run. -/
def bindFrom (i : Importer) (library : String) (names slots : Nat) :
    (fuel index : Nat) → ImportSummary → List Step → ImportRun
  | 0, index, s, done =>
    ⟨s, done.reverse, some (.unmapped (names + index * i.thunk.width))⟩
  | fuel + 1, index, s, done =>
    match i.thunk.read i.view (names + index * i.thunk.width) with
    | .error e => ⟨s, done.reverse, some e⟩
    | .ok value =>
      if value = 0 then ⟨s, done.reverse, none⟩
      else if i.limit ≤ s.imports then
        ⟨{ s with capped := true }, (.note (.importLimit i.limit library) :: done).reverse,
          none⟩
      else
        match i.symbolOf library slots index value with
        | .error e => ⟨s, done.reverse, some e⟩
        | .ok symbol =>
          i.bindFrom library names slots fuel (index + 1)
            { s with imports := s.imports + 1 }
            (.define symbol :: .note (.importFound symbol.address symbol.name) :: done)

/-- The library is of the Visual Basic runtime. -/
def isVisualBasic (library : String) : Bool := Text.contains "msvbvm".toList library.toList

/-- The imports of one descriptor. -/
def readDescriptor (i : Importer) (s : ImportSummary) (d : ImportDescriptor) : ImportRun :=
  match i.view.string d.libraryRva.toNat i.options.maxNameLength.toNat with
  | .error e => .failed s e
  | .ok file =>
    let library := Text.lowerAscii file
    let s := { s with visualBasic := s.visualBasic || isVisualBasic library }
    if d.namesRva = 0 then .idle s
    else if d.slotsRva = 0 then
      .failed s (.importTable ("descriptor for " ++ library ++ " has no FirstThunk"))
    else
      i.bindFrom library d.namesRva.toNat d.slotsRva.toNat (entryLimit i.thunk.width) 0 s []

/-- The imports of the descriptors from a relative address on, up to the
all-zero one. The steps so far, of which the last comes first, are those
of the run. -/
def walkFrom (i : Importer) :
    (fuel rva : Nat) → ImportSummary → List Step → ImportRun
  | 0, rva, s, done => ⟨s, done.reverse, some (.unmapped rva)⟩
  | fuel + 1, rva, s, done =>
    match ImportDescriptor.read i.view rva with
    | .error e => ⟨s, done.reverse, some e⟩
    | .ok d =>
      if d.isNull then ⟨s, done.reverse, none⟩
      else if d.libraryRva = 0 then
        i.walkFrom fuel (rva + descriptorSize) s (.note (.descriptorSkipped rva) :: done)
      else
        let run := i.readDescriptor { s with descriptors := s.descriptors + 1 } d
        if run.fault.isSome || run.summary.capped then
          ⟨run.summary, done.reverse ++ run.steps, run.fault⟩
        else
          i.walkFrom fuel (rva + descriptorSize) run.summary (run.steps.reverse ++ done)

/-- Walk the import directory at a relative address, with the account of
earlier descriptors. -/
def walk (i : Importer) (s : ImportSummary) (rva : Nat) : ImportRun :=
  let run := i.walkFrom (entryLimit descriptorSize) rva s []
  match run.fault with
  | some _ => run
  | none =>
    { run with
      steps := run.steps
        ++ [.note (.importsWalked run.summary.descriptors run.summary.imports)] }

-- ================================================================= laws

/-- The steps so far come before the others and have no part in what the
loop comes to. -/
theorem bindFrom_eq_append (i : Importer) (library : String) (names slots fuel index : Nat)
    (s : ImportSummary) (done : List Step) :
    i.bindFrom library names slots fuel index s done
      = { i.bindFrom library names slots fuel index s [] with
          steps := done.reverse
            ++ (i.bindFrom library names slots fuel index s []).steps } := by
  induction fuel generalizing index s done with
  | zero => simp [bindFrom]
  | succ fuel ih =>
    unfold bindFrom
    split
    · simp
    · split
      · simp
      · split
        · simp
        · split
          · simp
          · rw [ih, ih _ _ [_, _]]
            simp

/-- The steps so far come before the others and have no part in what the
walk comes to. -/
theorem walkFrom_eq_append (i : Importer) (fuel rva : Nat) (s : ImportSummary)
    (done : List Step) :
    i.walkFrom fuel rva s done
      = { i.walkFrom fuel rva s [] with
          steps := done.reverse ++ (i.walkFrom fuel rva s []).steps } := by
  induction fuel generalizing rva s done with
  | zero => simp [walkFrom]
  | succ fuel ih =>
    unfold walkFrom
    split
    · simp
    · split
      · simp
      · split
        · rw [ih, ih _ _ [_]]
          simp
        · dsimp only
          split
          · simp
          · rw [ih, ih _ _ (_ ++ [])]
            simp

end Importer

end Dissect.Pe

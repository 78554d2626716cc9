/-
The headers of a PE image: DOS header, COFF header, optional header and
data directories.

# Where things are

The file starts with `MZ`; the word at 60 is the offset of the `PE`
signature. The COFF header follows the signature, the optional header
follows the COFF header and has the size that the COFF header declares,
and the section table follows the optional header.

The two kinds of optional header differ in the width of the image base
and in where the data directories start. All of its fields are read
from its declared bytes and from nothing after them.

# Refusals

A header that ends early is reported with the length it needed and the
length there was: of the file, or of the declared optional header.
-/
import Dissect.Bytes
import Dissect.Error

namespace Dissect.Pe

-- ============================================================= machines

/-- The machine an image is for. -/
inductive Machine where
  | unknown
  | i386
  | x86x64
  | arm
  | armThumb
  | arm64
  | other (raw : UInt16)
  deriving DecidableEq, Repr, Inhabited

namespace Machine

/-- The machine of a raw value. -/
def ofRaw (raw : UInt16) : Machine :=
  match raw.toNat with
  | 0x0000 => .unknown
  | 0x014C => .i386
  | 0x8664 => .x86x64
  | 0x01C0 => .arm
  | 0x01C4 => .armThumb
  | 0xAA64 => .arm64
  | _ => .other raw

/-- The raw value of a machine. -/
def raw : Machine → UInt16
  | .unknown => 0x0000
  | .i386 => 0x014C
  | .x86x64 => 0x8664
  | .arm => 0x01C0
  | .armThumb => 0x01C4
  | .arm64 => 0xAA64
  | .other raw => raw

/-- The processor that decodes the machine's code. -/
def processor? : Machine → Option String
  | .i386 => some "x86_32"
  | .x86x64 => some "x86_64"
  | .arm => some "arm"
  | .armThumb => some "arm"
  | .arm64 => some "arm64"
  | .unknown => none
  | .other _ => none

/-- How a machine is shown. -/
def describe : Machine → String
  | .unknown => "Unknown"
  | .i386 => "I386"
  | .x86x64 => "X86_64"
  | .arm => "Arm"
  | .armThumb => "ArmNT"
  | .arm64 => "Arm64"
  | .other raw => "Other(" ++ Numeral.decimal raw.toNat ++ ")"

/-- Images for the machine are loaded. -/
def isSupported : Machine → Bool
  | .unknown => false
  | .other _ => false
  | _ => true

end Machine

-- =========================================================== the layout

/-- What a read answers, or an error in its place. -/
def orTruncated {α : Type} (expected actual : Nat) : Option α → Except ImageError α
  | some a => .ok a
  | none => .error (.truncated expected actual)

/-- The DOS header, as far as it matters. -/
structure DosHeader where
  magic : UInt16
  /-- The file offset of the `PE` signature. -/
  peOffset : UInt32
  deriving DecidableEq, Repr

/-- The COFF header. -/
structure CoffHeader where
  machine : Machine
  sectionCount : UInt16
  timestamp : UInt32
  /-- The declared size of the optional header. -/
  optionalSize : UInt16
  characteristics : UInt16
  deriving DecidableEq, Repr

/-- Where a directory lies, relative to the image base. -/
structure DataDirectory where
  rva : UInt32 := 0
  size : UInt32 := 0
  deriving DecidableEq, Repr, Inhabited

/-- The entry of a directory that is not there. -/
def absentDirectory : DataDirectory := {}

/-- A directory without an address or without a size is absent. -/
def DataDirectory.isPresent (d : DataDirectory) : Bool := d.rva != 0 && d.size != 0

/-- The two kinds of optional header. -/
inductive Kind where
  | pe32
  | pe32Plus
  deriving DecidableEq, Repr

namespace Kind

/-- The kind of a magic number. -/
def ofMagic? (magic : UInt16) : Option Kind :=
  if magic = 0x10B then some .pe32 else if magic = 0x20B then some .pe32Plus else none

/-- Where the data directories start in the optional header. -/
def directoriesAt : Kind → Nat
  | .pe32 => 96
  | .pe32Plus => 112

end Kind

/-- The optional header. -/
structure OptionalHeader where
  magic : UInt16
  /-- The entry point, relative to the image base; zero if there is
  none. -/
  entryRva : UInt32
  imageBase : UInt64
  sectionAlignment : UInt32
  fileAlignment : UInt32
  imageSize : UInt32
  /-- The declared number of data directories. -/
  directoryCount : UInt32
  deriving DecidableEq, Repr

namespace OptionalHeader

/-- Addresses of the image are 64 bits wide. -/
def is64Bit (h : OptionalHeader) : Bool := h.magic == 0x20B

/-- The width of the image's addresses. -/
def bits (h : OptionalHeader) : Nat := if h.is64Bit then 64 else 32

end OptionalHeader

/-- All headers behind the `PE` signature. -/
structure Headers where
  coff : CoffHeader
  optional : OptionalHeader
  directories : List DataDirectory
  deriving DecidableEq, Repr

/-- The directory with a number; there is none past the last. -/
def Headers.directory (h : Headers) (n : Nat) : DataDirectory :=
  h.directories.getD n absentDirectory

-- ============================================================== reading

/-- The size of the DOS header. -/
def dosHeaderSize : Nat := 64

/-- The size of the COFF header. -/
def coffHeaderSize : Nat := 20

/-- Every image has this many data directories, absent ones included. -/
def directoryLimit : Nat := 16

/-- The DOS header of a file. -/
def readDosHeader (data : Bytes) : Except ImageError DosHeader := do
  if data.size < dosHeaderSize then
    throw (.truncated dosHeaderSize data.size)
  let magic ← orTruncated 2 data.size (data.word16? 0)
  if magic ≠ 0x5A4D then
    throw .dosSignature
  let peOffset ← orTruncated dosHeaderSize data.size (data.word32? 60)
  pure ⟨magic, peOffset⟩

/-- The COFF header at an offset. -/
def readCoffHeader (data : Bytes) (offset : Nat) : Except ImageError CoffHeader := do
  let needed := offset + coffHeaderSize
  let machine ← orTruncated needed data.size (data.word16? offset)
  let sectionCount ← orTruncated needed data.size (data.word16? (offset + 2))
  let timestamp ← orTruncated needed data.size (data.word32? (offset + 4))
  let optionalSize ← orTruncated needed data.size (data.word16? (offset + 16))
  let characteristics ← orTruncated needed data.size (data.word16? (offset + 18))
  pure ⟨.ofRaw machine, sectionCount, timestamp, optionalSize, characteristics⟩

/-- The directory at an offset of some header bytes. -/
def readDirectory? (header : Bytes) (offset : Nat) : Option DataDirectory := do
  let rva ← header.word32? offset
  let size ← header.word32? (offset + 4)
  some ⟨rva, size⟩

/-- Up to `count` directories from an offset on, as far as the bytes
hold them. -/
def readDirectoriesFrom (header : Bytes) : Nat → Nat → List DataDirectory
  | _, 0 => []
  | offset, count + 1 =>
    match readDirectory? header offset with
    | some d => d :: readDirectoriesFrom header (offset + 8) count
    | none => []

/-- The data directories: the declared ones that the bytes hold, and
absent ones up to the fixed number. -/
def readDirectories (header : Bytes) (offset declared : Nat) : List DataDirectory :=
  let held := readDirectoriesFrom header offset (min declared directoryLimit)
  held ++ List.replicate (directoryLimit - held.length) absentDirectory

/-- The image base: 64 bits wide in one kind of header, 32 in the
other. -/
def readImageBase? (header : Bytes) : Kind → Option UInt64
  | .pe32Plus => header.word64? 24
  | .pe32 => (header.word32? 28).map (·.toUInt64)

/-- The optional header and the data directories of `size` bytes at an
offset. -/
def readOptionalHeader (data : Bytes) (offset size : Nat) :
    Except ImageError (OptionalHeader × List DataDirectory) := do
  let stop := offset + size
  if size < 2 ∨ data.size < stop then
    throw (.truncated (max stop (offset + 2)) data.size)
  let magic ← orTruncated (offset + 2) data.size (data.word16? offset)
  match Kind.ofMagic? magic with
  | none => throw (.magic magic)
  | some kind =>
    let directoriesAt := kind.directoriesAt
    if size < directoriesAt then
      throw (.truncated (offset + directoriesAt) stop)
    let header : Bytes := data.extract offset stop
    let field (place : Nat) : Except ImageError UInt32 :=
      orTruncated (offset + place + 4) stop (header.word32? place)
    let imageBase ← orTruncated (offset + 32) stop (readImageBase? header kind)
    let optional : OptionalHeader :=
      { magic := magic
        entryRva := ← field 16
        imageBase := imageBase
        sectionAlignment := ← field 32
        fileAlignment := ← field 36
        imageSize := ← field 56
        directoryCount := ← field (directoriesAt - 4) }
    pure (optional, readDirectories header directoriesAt optional.directoryCount.toNat)

/-- The `PE` signature. -/
def signature : Bytes := #[0x50, 0x45, 0x00, 0x00]

/-- The headers behind a signature at an offset, for a machine that is
supported. -/
def readHeaders (data : Bytes) (offset : Nat) : Except ImageError Headers := do
  let found ← orTruncated (offset + 4) data.size (data.slice? offset 4)
  if found ≠ signature then
    throw .peSignature
  let coff ← readCoffHeader data (offset + 4)
  if !coff.machine.isSupported then
    throw (.machine coff.machine.raw)
  let (optional, directories) ←
    readOptionalHeader data (offset + 4 + coffHeaderSize) coff.optionalSize.toNat
  pure ⟨coff, optional, directories⟩

/-- The file offset of the section table. -/
def sectionTableOffset (dos : DosHeader) (h : Headers) : Nat :=
  dos.peOffset.toNat + 4 + coffHeaderSize + h.coff.optionalSize.toNat

end Dissect.Pe

/-
Everything that can go wrong, and what is said about it.

`ImageError` is what reading the structures of an image can run into,
`DecodeError` what decoding an instruction can, and `LoadError` is what
a caller of the library sees: one of the two, with its cause, or a
failure of the library's own. Each has one `message`.
-/
import Dissect.Text.Numeral

namespace Dissect

/-- A structure of an image that cannot be read. -/
inductive ImageError where
  /-- The file does not start with `MZ`. -/
  | dosSignature
  /-- There is no `PE` signature where the file says. -/
  | peSignature
  /-- A machine that no image is loaded for. -/
  | machine (raw : UInt16)
  /-- An optional header of no known kind. -/
  | magic (raw : UInt16)
  /-- A header ends before it is complete. -/
  | truncated (expected actual : Nat)
  /-- A relative address that no segment maps. -/
  | unmapped (rva : Nat)
  /-- A file offset with too few bytes behind it. -/
  | outOfFile (offset : Nat)
  /-- A string that is not terminated in time. -/
  | unterminated (rva : Nat)
  /-- A section table longer than allowed. -/
  | sectionCount (count limit : Nat)
  /-- An import table that contradicts itself. -/
  | importTable (detail : String)
  /-- An export table that contradicts itself. -/
  | exportTable (detail : String)
  deriving DecidableEq, Repr, Inhabited

/-- What is said about an image error. -/
def ImageError.message : ImageError → String
  | .dosSignature => "Invalid DOS signature"
  | .peSignature => "Invalid PE signature"
  | .machine raw => "Invalid machine type: " ++ Numeral.paddedHex 4 raw.toNat
  | .magic raw => "Invalid optional header magic: " ++ Numeral.paddedHex 4 raw.toNat
  | .truncated expected actual =>
    "Truncated header: expected " ++ Numeral.decimal expected ++ " bytes, got "
      ++ Numeral.decimal actual
  | .unmapped rva => "Invalid RVA: " ++ Numeral.paddedHex 8 rva
  | .outOfFile offset => "Invalid file offset: " ++ Numeral.hex offset
  | .unterminated rva => "Invalid string at RVA " ++ Numeral.paddedHex 8 rva
  | .sectionCount count limit =>
    "Too many sections: " ++ Numeral.decimal count ++ " (limit "
      ++ Numeral.decimal limit ++ ")"
  | .importTable detail => "Malformed import table: " ++ detail
  | .exportTable detail => "Malformed export table: " ++ detail

/-- An instruction that cannot be decoded. -/
inductive DecodeError where
  /-- The bytes end inside the instruction. -/
  | insufficientBytes
  /-- No decoder for the architecture. -/
  | unsupportedArchitecture (detail : String)
  deriving DecidableEq, Repr, Inhabited

/-- What is said about a decode error. -/
def DecodeError.message : DecodeError → String
  | .insufficientBytes => "Insufficient bytes to decode an instruction"
  | .unsupportedArchitecture detail => "Unsupported architecture: " ++ detail

/-- What a caller of the library sees. -/
inductive LoadError where
  /-- The image is malformed. -/
  | image (cause : ImageError)
  /-- No segment of the image contains the address. -/
  | unresolved (address : UInt64)
  /-- No format took the image. -/
  | unsupportedFormat (detail : String)
  /-- No decoder for the processor. -/
  | unsupportedProcessor (name : String)
  /-- An instruction could not be decoded. -/
  | decode (cause : DecodeError)
  /-- The file is larger than allowed. -/
  | fileTooLarge (limit found : Nat)
  /-- The file could not be read, with the system's words. -/
  | file (cause : String)
  /-- A record could not be read or written. -/
  | serialization (detail : String)
  deriving DecidableEq, Repr, Inhabited

namespace LoadError

/-- What is said about an error. -/
def message : LoadError → String
  | .image cause => "Structural validation failed: " ++ cause.message
  | .unresolved address => "Unresolved address: " ++ Numeral.hex address.toNat
  | .unsupportedFormat detail => "Unsupported format: " ++ detail
  | .unsupportedProcessor name => "Unsupported processor: " ++ name
  | .decode cause => "Decode error: " ++ cause.message
  | .fileTooLarge limit found =>
    "File size of " ++ Numeral.decimal found ++ " bytes exceeds the limit of "
      ++ Numeral.decimal limit ++ " bytes"
  | .file cause => "I/O error: " ++ cause
  | .serialization detail => "Serialization error: " ++ detail

/-- What is said about the cause of an error that has one. -/
def cause? : LoadError → Option String
  | .image cause => some cause.message
  | .decode cause => some cause.message
  | .file cause => some cause
  | _ => none

end LoadError

end Dissect

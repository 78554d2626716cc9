/-
What happens during a load, as data.

An event is a fact about the load: an import was bound, a section was
passed over, a symbol was replaced. Its level, its message and its
fields are read off it, the message first.
-/
import Dissect.Image

namespace Dissect

/-- How much an event matters. -/
inductive Level where
  | error
  | warn
  | info
  | debug
  | trace
  deriving DecidableEq, Repr

/-- The name of a level. -/
def Level.name : Level → String
  | .error => "ERROR"
  | .warn => "WARN"
  | .info => "INFO"
  | .debug => "DEBUG"
  | .trace => "TRACE"

/-- Something that happened during a load. -/
inductive Event where
  /-- A load of so many bytes began. -/
  | loading (size : Nat)
  /-- A section became no segment. -/
  | sectionSkipped (name : String)
  /-- The section table was read. -/
  | sectionsRead (sections segments : Nat)
  /-- The entry point is mapped. -/
  | entryPoint (address : Address)
  /-- An exported function lives in another library. -/
  | exportForwarded (index : Nat)
  /-- No more exports are taken. -/
  | exportLimit (limit : Nat)
  /-- An exported function was found. -/
  | exportFound (address : Address) (name : String)
  /-- The export directory was walked. -/
  | exportsWalked (library : String) (exports : Nat)
  /-- An import descriptor names no library. -/
  | descriptorSkipped (rva : Nat)
  /-- No more imports are taken. -/
  | importLimit (limit : Nat) (library : String)
  /-- An imported function was found. -/
  | importFound (address : Address) (name : String)
  /-- The import directory was walked. -/
  | importsWalked (descriptors imports : Nat)
  /-- A symbol took the place of another. -/
  | overwritten (old new : Symbol)
  /-- The load succeeded. -/
  | loaded (bits segments symbols : Nat) (variant : Variant)
  /-- A format took the image. -/
  | accepted (format : String)
  /-- A format did not take the image. -/
  | rejected (format : String) (error : LoadError)
  /-- No format took the image. -/
  | unclaimed (error : LoadError)
  deriving DecidableEq, Repr

namespace Event

/-- How much it matters. -/
def level : Event → Level
  | .loading _ => .info
  | .sectionSkipped _ => .debug
  | .sectionsRead _ _ => .debug
  | .entryPoint _ => .trace
  | .exportForwarded _ => .trace
  | .exportLimit _ => .warn
  | .exportFound _ _ => .trace
  | .exportsWalked _ _ => .debug
  | .descriptorSkipped _ => .warn
  | .importLimit _ _ => .warn
  | .importFound _ _ => .trace
  | .importsWalked _ _ => .debug
  | .overwritten _ _ => .debug
  | .loaded _ _ _ _ => .info
  | .accepted _ => .info
  | .rejected _ _ => .debug
  | .unclaimed _ => .error

/-- What is said. -/
def message : Event → String
  | .loading _ => "Loading PE image"
  | .sectionSkipped _ => "Skipping empty section"
  | .sectionsRead _ _ => "Section table parsed"
  | .entryPoint _ => "Entry point"
  | .exportForwarded _ => "Skipping forwarded export"
  | .exportLimit _ => "Export limit reached"
  | .exportFound _ _ => "Export"
  | .exportsWalked _ _ => "Export directory walked"
  | .descriptorSkipped _ => "Skipping import descriptor without a name"
  | .importLimit _ _ => "Import limit reached"
  | .importFound _ _ => "Import"
  | .importsWalked _ _ => "Import directory walked"
  | .overwritten _ _ => "Symbol overwritten"
  | .loaded _ _ _ _ => "PE image loaded"
  | .accepted _ => "Image accepted"
  | .rejected _ _ => "Format rejected image"
  | .unclaimed _ => "Operation failed"

/-- The particulars: names and values. -/
def details : Event → List (String × String)
  | .loading size => [("size", Numeral.decimal size)]
  | .sectionSkipped name => [("section", name)]
  | .sectionsRead sections segments =>
    [("sections", Numeral.decimal sections), ("segments", Numeral.decimal segments)]
  | .entryPoint address => [("address", Numeral.hex address.toNat)]
  | .exportForwarded index => [("index", Numeral.decimal index)]
  | .exportLimit limit => [("limit", Numeral.decimal limit)]
  | .exportFound address name => [("address", Numeral.hex address.toNat), ("name", name)]
  | .exportsWalked library exports =>
    [("dll", library), ("exports", Numeral.decimal exports)]
  | .descriptorSkipped rva => [("rva", Numeral.hex rva)]
  | .importLimit limit library => [("limit", Numeral.decimal limit), ("dll", library)]
  | .importFound address name => [("address", Numeral.hex address.toNat), ("name", name)]
  | .importsWalked descriptors imports =>
    [("descriptors", Numeral.decimal descriptors), ("imports", Numeral.decimal imports)]
  | .overwritten old new =>
    [ ("address", Numeral.hex new.address.toNat), ("old", old.name),
      ("old_kind", old.kind.name), ("new", new.name), ("new_kind", new.kind.name) ]
  | .loaded bits segments symbols variant =>
    [ ("bits", Numeral.decimal bits), ("segments", Numeral.decimal segments),
      ("symbols", Numeral.decimal symbols), ("variant", variant.describe) ]
  | .accepted format => [("format", format)]
  | .rejected format error => [("format", format), ("error", error.message)]
  | .unclaimed error =>
    [("error", error.message), ("message", "No format accepted the image")]

/-- All fields, the message first. -/
def fields (e : Event) : List (String × String) := ("message", e.message) :: e.details

end Event

/-- A load: what was reported, and what it came to. -/
structure Loading (α : Type) where
  events : List Event
  outcome : Except LoadError α

/-- What is reported when a symbol is defined: the symbol whose place it
takes, if there is one. -/
def SymbolTable.overwriting (t : SymbolTable) (s : Symbol) : List Event :=
  match t.lookup? s.address with
  | some old => [.overwritten old s]
  | none => []

end Dissect

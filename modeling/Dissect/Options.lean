/-
Load options: which directories are walked, and the bounds on what an
untrusted image can make the loader do.

Every option has a default, so a JSON record may leave any of them out.
Options are written back as an indented record with every field.
-/
import Dissect.Json.Parser
import Dissect.Json.Printer
import Dissect.Json.Record

namespace Dissect

/-- How an image is loaded. -/
structure LoadOptions where
  /-- Walk the export directory. -/
  walkExports : Bool := true
  /-- Walk the import directory. -/
  walkImports : Bool := true
  /-- Longer section tables are refused. -/
  maxSections : UInt64 := 96
  /-- The import walk stops after this many symbols. -/
  maxImports : UInt64 := 10000
  /-- The export walk stops after this many symbols. -/
  maxExports : UInt64 := 10000
  /-- The longest name read for a library or a symbol, in bytes. -/
  maxNameLength : UInt64 := 512
  /-- The largest file that is read. -/
  maxFileSize : UInt64 := 536870912
  deriving DecidableEq, Repr, Inhabited

namespace LoadOptions

/-- The options with every default. -/
def default : LoadOptions := {}

/-- The field names of an options record. -/
def fieldNames : List String :=
  [ "parse_exports", "parse_imports", "max_sections", "max_imports",
    "max_exports", "max_name_len", "max_file_size" ]

/-- The values of an options record, in field order. -/
def fieldValues (o : LoadOptions) : List Json :=
  [ .bool o.walkExports, .bool o.walkImports, Json.ofNat o.maxSections.toNat,
    Json.ofNat o.maxImports.toNat, Json.ofNat o.maxExports.toNat,
    Json.ofNat o.maxNameLength.toNat, Json.ofNat o.maxFileSize.toNat ]

/-- An options record. -/
def toJson (o : LoadOptions) : Json := Json.ofMembers (fieldNames.zip o.fieldValues)

/-- The text of an options record. -/
def render (o : LoadOptions) : String := o.toJson.indented

/-- What was given for a field, or its default. -/
def orDefault {α : Type} (fallback : α) (read? : Json → Option α) :
    Option Json → Option α
  | none => some fallback
  | some j => read? j

/-- Options from a JSON record; a field that is left out has its
default. -/
def ofJson? (j : Json) : Option LoadOptions := do
  match ← j.record? fieldNames with
  | [exports, imports, sections, maxImports, maxExports, nameLength, fileSize] =>
    some
      { walkExports := ← orDefault default.walkExports Json.bool? exports
        walkImports := ← orDefault default.walkImports Json.bool? imports
        maxSections := ← orDefault default.maxSections Json.word64? sections
        maxImports := ← orDefault default.maxImports Json.word64? maxImports
        maxExports := ← orDefault default.maxExports Json.word64? maxExports
        maxNameLength := ← orDefault default.maxNameLength Json.word64? nameLength
        maxFileSize := ← orDefault default.maxFileSize Json.word64? fileSize }
  | _ => none

/-- Options from JSON text. -/
def parse? (text : String) : Option LoadOptions := (Json.parse? text).bind ofJson?

/-- How options are shown on one line. -/
def describe (o : LoadOptions) : String :=
  let fields := (fieldNames.zip o.fieldValues).map fun f => f.1 ++ ": " ++ f.2.compact
  "LoadOptions \x7b " ++ ", ".intercalate fields ++ " \x7d"

end LoadOptions

end Dissect

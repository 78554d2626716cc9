/-
The registry: which formats are tried on an image, and which decoder
serves which processor.

# Formats

Formats are tried in the order of their first registration; registering
a name again replaces the format in place. The first that takes an image
wins. If none does, the last refusal is the answer, and a registry
without formats refuses everything.

# Processors

A processor has the decoder registered for it last.
-/
import Dissect.Pe.Load
import Dissect.Text.Quoted
import Dissect.X86.Subset
import Std.Data.ExtTreeMap

namespace Dissect

/-- A format: how it loads an image. -/
structure Format where
  load : LoadOptions → Bytes → Loading Image

/-- The PE format. -/
def Format.pe : Format := ⟨Pe.Session.openImage⟩

/-- Formats and decoders. -/
structure Registry where
  options : LoadOptions := .default
  formats : List (String × Format) := []
  processors : Std.ExtTreeMap String Decoder := ∅

namespace Registry

-- ========================================================= registration

/-- Put a format under a name: in place if the name is there, at the end
otherwise. -/
def placeFormat (name : String) (f : Format) : List (String × Format) → List (String × Format)
  | [] => [(name, f)]
  | (n, g) :: rest =>
    if n = name then (n, f) :: rest else (n, g) :: placeFormat name f rest

/-- Register a format. -/
def registerFormat (r : Registry) (name : String) (f : Format) : Registry :=
  { r with formats := placeFormat name f r.formats }

/-- Register the decoder of a processor. -/
def registerProcessor (r : Registry) (name : String) (d : Decoder) : Registry :=
  { r with processors := r.processors.insert name d }

/-- Register the PE format and the x86 processors. -/
def registerDefaults (r : Registry) : Registry :=
  ((r.registerFormat "pe" .pe).registerProcessor "x86_32" (X86.decoder .bits32)).registerProcessor
    "x86_64" (X86.decoder .bits64)

/-- An empty registry with options for the formats. -/
def ofOptions (options : LoadOptions) : Registry := { options := options }

/-- A registry with what comes with the library. -/
def defaults : Registry := (ofOptions .default).registerDefaults

/-- The names of the formats, in the order they are tried. -/
def formatNames (r : Registry) : List String := r.formats.map (·.1)

/-- The names of the processors, in ascending order. -/
def processorNames (r : Registry) : List String := r.processors.keys

-- ============================================================ answering

/-- Try formats in order; `last` is the refusal so far. -/
def tryFormats (options : LoadOptions) (data : Bytes) (last : Option LoadError) :
    List (String × Format) → Loading Image
  | [] =>
    let e := last.getD (.unsupportedFormat "no formats registered")
    ⟨[.unclaimed e], .error e⟩
  | (name, f) :: rest =>
    let loading := f.load options data
    match loading.outcome with
    | .ok image => ⟨loading.events ++ [.accepted name], .ok image⟩
    | .error e =>
      let others := tryFormats options data (some e) rest
      ⟨loading.events ++ .rejected name e :: others.events, others.outcome⟩

/-- Load an image with the first format that takes it. -/
def load (r : Registry) (data : Bytes) : Loading Image :=
  tryFormats r.options data none r.formats

/-- The decoder of a processor. -/
def decoderFor (r : Registry) (processor : String) : Except LoadError Decoder :=
  match r.processors[processor]? with
  | some d => .ok d
  | none => .error (.unsupportedProcessor processor)

/-- How a registry is shown. -/
def describe (r : Registry) : String :=
  "Registry \x7b options: " ++ r.options.describe ++ ", formats: "
    ++ Text.quotedList r.formatNames ++ ", processors: "
    ++ Text.quotedList r.processorNames ++ " \x7d"

end Registry

end Dissect

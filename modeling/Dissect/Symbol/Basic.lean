/-
Symbols: named program entities at an address.
-/
import Dissect.Segment.Basic

namespace Dissect

/-- What a symbol names. -/
inductive SymbolKind where
  /-- A slot that the loader fills with an imported address. -/
  | imported
  /-- A function that the image exports. -/
  | exported
  /-- The address at which the image starts. -/
  | entryPoint
  /-- A function found by analysis. -/
  | function
  /-- A data object. -/
  | data
  deriving DecidableEq, Repr, Inhabited

namespace SymbolKind

/-- Every kind. -/
def all : List SymbolKind := [.imported, .exported, .entryPoint, .function, .data]

/-- The name of a kind. -/
def name : SymbolKind → String
  | .imported => "Import"
  | .exported => "Export"
  | .entryPoint => "EntryPoint"
  | .function => "Function"
  | .data => "Data"

/-- The kind of a name. -/
def ofName? (s : String) : Option SymbolKind := all.find? fun k => k.name = s

end SymbolKind

/-- A named program entity. -/
structure Symbol where
  name : String
  address : Address
  kind : SymbolKind
  deriving DecidableEq, Repr

/-- How a symbol is shown. -/
def Symbol.describe (s : Symbol) : String :=
  s.name ++ " @ " ++ Numeral.hex s.address.toNat ++ " (" ++ s.kind.name ++ ")"

end Dissect

/-
Symbol tables as JSON records.

A table is a record with one field, an object from decimal addresses to
symbol records. Reading takes each symbol under the key it stands at;
its own address is a field like any other.
-/
import Dissect.Json.Parser
import Dissect.Json.Printer
import Dissect.Json.Record
import Dissect.Symbol.Table

namespace Dissect

namespace SymbolKind

/-- A kind is a JSON string of its name. -/
def toJson (k : SymbolKind) : Json := Json.ofText k.name

/-- A kind from its name, or from an object with the name as its only
key and null as its value. -/
def ofJson? : Json → Option SymbolKind
  | .string body => (Json.text? body).bind ofName?
  | .object [(key, .null)] => (Json.text? key).bind ofName?
  | _ => none

end SymbolKind

namespace Symbol

/-- The field names of a symbol record. -/
def fieldNames : List String := ["name", "address", "kind"]

/-- A symbol record. -/
def toJson (s : Symbol) : Json :=
  Json.ofMembers
    [ ("name", Json.ofText s.name),
      ("address", Json.ofNat s.address.toNat),
      ("kind", s.kind.toJson) ]

/-- A symbol from a JSON record. -/
def ofJson? (j : Json) : Option Symbol := do
  match ← j.record? fieldNames with
  | [some name, some address, some kind] =>
    some
      { name := ← name.string?
        address := ← address.word64?
        kind := ← SymbolKind.ofJson? kind }
  | _ => none

end Symbol

namespace SymbolTable

/-- A symbol table record. -/
def toJson (t : SymbolTable) : Json :=
  Json.ofMembers
    [ ("symbols",
        Json.ofMembers
          (t.entries.toList.map fun e => (Numeral.decimal e.1.toNat, e.2.toJson))) ]

/-- The entries of an object from addresses to symbols. -/
def entries? (j : Json) : Option (List (Address × Symbol)) := do
  (← j.numberMembers? UInt64.size).mapM fun m =>
    (Symbol.ofJson? m.2).map fun s => (UInt64.ofNat m.1, s)

/-- A table from a JSON record; of a repeated key the last symbol
stays. -/
def ofJson? (j : Json) : Option SymbolTable := do
  match ← j.record? ["symbols"] with
  | [some symbols] => some ⟨.ofList (← entries? symbols) compare⟩
  | _ => none

/-- A table from JSON text. -/
def parse? (text : String) : Option SymbolTable := (Json.parse? text).bind ofJson?

end SymbolTable

end Dissect

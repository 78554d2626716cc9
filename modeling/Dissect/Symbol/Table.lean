/-
Symbol tables: one symbol per address, the last definition visible.

A table is a map from addresses to symbols, in address order. `define`
files a symbol under its own address, so a table built by definitions alone has
every symbol in its place; a table read from elsewhere need not.

`lookup?` is the view of a table: `lookup?_define_self` and
`lookup?_define_of_ne` say what a definition does to it, and tables that
answer every look-up alike are equal.
-/
import Dissect.Symbol.Basic
import Std.Data.ExtTreeMap

namespace Dissect

/-- Symbols by address. -/
structure SymbolTable where
  entries : Std.ExtTreeMap Address Symbol
  deriving DecidableEq

namespace SymbolTable

/-- The table with no symbols. -/
def empty : SymbolTable := ⟨∅⟩

instance : Inhabited SymbolTable := ⟨empty⟩

/-- The symbol filed under an address. -/
def lookup? (t : SymbolTable) (a : Address) : Option Symbol := t.entries[a]?

/-- File a symbol under its address, over what was there. -/
def define (t : SymbolTable) (s : Symbol) : SymbolTable := ⟨t.entries.insert s.address s⟩

/-- File a symbol under its address; also the symbol whose place it
takes. -/
def exchange (t : SymbolTable) (s : Symbol) : SymbolTable × Option Symbol :=
  (t.define s, t.lookup? s.address)

/-- Define every symbol of a list, in its order. -/
def defineAll (t : SymbolTable) (symbols : List Symbol) : SymbolTable :=
  symbols.foldl define t

/-- The symbols in address order. -/
def symbols (t : SymbolTable) : List Symbol := t.entries.toList.map (·.2)

/-- The number of symbols. -/
def size (t : SymbolTable) : Nat := t.entries.size

/-- The first symbol with a name, in address order. -/
def named? (t : SymbolTable) (name : String) : Option Symbol :=
  t.symbols.find? fun s => s.name = name

/-- The symbols of one kind, in address order. -/
def ofKind (t : SymbolTable) (k : SymbolKind) : List Symbol :=
  t.symbols.filter fun s => s.kind = k

-- ================================================================= laws

@[simp] theorem lookup?_empty (a : Address) : empty.lookup? a = none :=
  Std.ExtTreeMap.getElem?_empty

/-- A definition is visible at its address. -/
@[simp] theorem lookup?_define_self (t : SymbolTable) (s : Symbol) :
    (t.define s).lookup? s.address = some s :=
  Std.ExtTreeMap.getElem?_insert_self

/-- A definition leaves other addresses alone. -/
theorem lookup?_define_of_ne (t : SymbolTable) (s : Symbol) {a : Address}
    (h : a ≠ s.address) : (t.define s).lookup? a = t.lookup? a := by
  have hne : compare s.address a ≠ .eq := fun heq =>
    h (Std.LawfulEqCmp.eq_of_compare heq).symm
  unfold lookup? define
  rw [Std.ExtTreeMap.getElem?_insert, if_neg hne]

/-- Tables that answer every look-up alike are equal. -/
theorem ext_lookup? {t u : SymbolTable} (h : ∀ a, t.lookup? a = u.lookup? a) : t = u := by
  cases t
  cases u
  exact congrArg SymbolTable.mk (Std.ExtTreeMap.ext_getElem? h)

end SymbolTable

end Dissect

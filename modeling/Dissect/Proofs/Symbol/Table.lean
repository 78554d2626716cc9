/-
What a table shows after definitions.

# The last definition

`lookup?_defineAll` is the whole account of a history of definitions: at
each address the last one is visible, and where there was none the table
is as before. What later modules say about tables comes down to which
symbols a history has.

# Tables built by definitions

In a table that starts empty every symbol is filed under its own address
and was defined at some time. So symbols at different places differ, and
a table has no more symbols of a kind than there were definitions of it
(`length_ofKind_defineAll_le`).
-/
import Dissect.Symbol.Table
import Mathlib.Data.List.Nodup
import Mathlib.Data.List.Perm.Subperm

namespace Dissect

/-- The last symbol of a list that lies at an address. -/
def lastAt? (symbols : List Symbol) (a : Address) : Option Symbol :=
  symbols.reverse.find? fun s => s.address = a

/-- Later symbols come first. -/
theorem lastAt?_append (xs ys : List Symbol) (a : Address) :
    lastAt? (xs ++ ys) a = (lastAt? ys a).or (lastAt? xs a) := by
  unfold lastAt?
  rw [List.reverse_append, List.find?_append]

/-- The symbol found is one of the list and lies at the address. -/
theorem lastAt?_eq_some {symbols : List Symbol} {a : Address} {s : Symbol}
    (h : lastAt? symbols a = some s) : s ∈ symbols ∧ s.address = a := by
  have hmem := List.mem_of_find?_eq_some h
  have haddress := List.find?_some h
  exact ⟨List.mem_reverse.mp hmem, by simpa using haddress⟩

namespace SymbolTable

/-- After definitions the last one at an address is visible there; an
address without one shows what it did before. -/
theorem lookup?_defineAll (t : SymbolTable) (symbols : List Symbol) (a : Address) :
    (t.defineAll symbols).lookup? a = (lastAt? symbols a).or (t.lookup? a) := by
  induction symbols generalizing t with
  | nil => rfl
  | cons s rest ih =>
      have hsplit := lastAt?_append [s] rest a
      rw [List.singleton_append] at hsplit
      rw [show t.defineAll (s :: rest) = (t.define s).defineAll rest from rfl, ih, hsplit,
        Option.or_assoc]
      congr 1
      by_cases h : s.address = a
      · subst h
        simp [lastAt?]
      · rw [lookup?_define_of_ne t s (Ne.symm h)]
        simp [lastAt?, h]

/-- A table has at most one symbol more for each definition. -/
theorem size_defineAll_le (t : SymbolTable) (symbols : List Symbol) :
    (t.defineAll symbols).size ≤ t.size + symbols.length := by
  induction symbols generalizing t with
  | nil => exact Nat.le_refl _
  | cons s rest ih =>
      have hone : (t.define s).size ≤ t.size + 1 := Std.ExtTreeMap.size_insert_le
      have hrest := ih (t.define s)
      rw [show t.defineAll (s :: rest) = (t.define s).defineAll rest from rfl, List.length_cons]
      omega

-- ================================================ tables of definitions

/-- What a history of definitions shows at an address was defined
there. -/
theorem lookup?_empty_defineAll {symbols : List Symbol} {a : Address} {s : Symbol}
    (h : (empty.defineAll symbols).lookup? a = some s) : s ∈ symbols ∧ s.address = a := by
  rw [lookup?_defineAll, lookup?_empty, Option.or_none] at h
  exact lastAt?_eq_some h

/-- A symbol of a table is filed somewhere. -/
theorem mem_symbols_iff {t : SymbolTable} {s : Symbol} :
    s ∈ t.symbols ↔ ∃ a, t.lookup? a = some s := by
  unfold symbols lookup?
  rw [List.mem_map]
  constructor
  · rintro ⟨⟨a, s'⟩, hmem, rfl⟩
    exact ⟨a, Std.ExtTreeMap.mem_toList_iff_getElem?_eq_some.mp hmem⟩
  · rintro ⟨a, h⟩
    exact ⟨(a, s), Std.ExtTreeMap.mem_toList_iff_getElem?_eq_some.mpr h, rfl⟩

/-- Every symbol is filed under its own address. -/
def Placed (t : SymbolTable) : Prop := ∀ a s, t.lookup? a = some s → s.address = a

theorem placed_defineAll (symbols : List Symbol) : (empty.defineAll symbols).Placed :=
  fun _ _ h => (lookup?_empty_defineAll h).2

/-- The symbols stand in the order of their addresses. -/
theorem Placed.map_address_symbols {t : SymbolTable} (h : t.Placed) :
    t.symbols.map Symbol.address = t.entries.keys := by
  rw [← Std.ExtTreeMap.map_fst_toList_eq_keys, symbols, List.map_map]
  refine List.map_congr_left fun entry hmem => ?_
  exact h entry.1 entry.2 (Std.ExtTreeMap.mem_toList_iff_getElem?_eq_some.mp hmem)

/-- Symbols filed under their own addresses are all different. -/
theorem Placed.nodup_symbols {t : SymbolTable} (h : t.Placed) : t.symbols.Nodup := by
  refine List.Nodup.of_map Symbol.address ?_
  rw [h.map_address_symbols]
  exact Std.ExtTreeMap.nodup_keys

/-- A table has no more symbols of a kind than there were definitions
of it. -/
theorem length_ofKind_defineAll_le (symbols : List Symbol) (k : SymbolKind) :
    ((empty.defineAll symbols).ofKind k).length
      ≤ (symbols.filter fun s => s.kind = k).length := by
  have hnodup := (placed_defineAll symbols).nodup_symbols
  refine (List.Nodup.subperm (hnodup.filter _) fun s hs => ?_).length_le
  obtain ⟨hmem, hkind⟩ := List.mem_filter.mp hs
  obtain ⟨a, ha⟩ := mem_symbols_iff.mp hmem
  exact List.mem_filter.mpr ⟨(lookup?_empty_defineAll ha).1, hkind⟩

end SymbolTable

end Dissect

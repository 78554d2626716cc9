/-
What a symbol table shows after any definitions.

# Visible symbols

A definition hides the one before it at its address and nothing else. So
of a history those symbols are left that no later one lies over
(`Visible`): look-ups, lists and searches have nothing but visible
symbols to give (`lastAt?_eq_some_iff`, `mem_symbols_defineAll_iff`), and
a name that was overwritten is found no more.

# The order of addresses

Every symbol is filed under its own address, so the order in which a
table is gone through is the order of its symbols' addresses
(`increasing_symbols`). A search that takes the first symbol takes the
one with the smallest address (`find?_eq_some_iff_least`).
-/
import Dissect.Proofs.Symbol.Table
import Mathlib.Data.Finset.Card

namespace Dissect

variable {history : List Symbol} {a : Address} {s : Symbol}

-- ======================================================= visible symbols

/-- The symbol was defined, and nothing was defined at its address
after it. -/
def Visible (history : List Symbol) (s : Symbol) : Prop :=
  ∃ before after, history = before ++ s :: after ∧ ∀ later ∈ after, later.address ≠ s.address

/-- The last definition at an address is the one that is visible there. -/
theorem lastAt?_eq_some_iff :
    lastAt? history a = some s ↔ Visible history s ∧ s.address = a := by
  unfold lastAt? Visible
  rw [List.find?_eq_some_iff_append]
  constructor
  · rintro ⟨haddress, after, before, hsplit, hlater⟩
    have haddress : s.address = a := of_decide_eq_true haddress
    refine ⟨⟨before.reverse, after.reverse, ?_, ?_⟩, haddress⟩
    · rw [← history.reverse_reverse, hsplit]
      simp
    · intro later hmem
      simpa [haddress] using hlater later (List.mem_reverse.mp hmem)
  · rintro ⟨⟨before, after, rfl, hlater⟩, rfl⟩
    refine ⟨decide_eq_true rfl, after.reverse, before.reverse, by simp, ?_⟩
    intro later hmem
    simpa using hlater later (List.mem_reverse.mp hmem)

theorem lastAt?_eq_none_iff : lastAt? history a = none ↔ ∀ s ∈ history, s.address ≠ a := by
  unfold lastAt?
  rw [List.find?_eq_none]
  simp

namespace SymbolTable

variable {t : SymbolTable}

/-- A lookup finds the last definition. The induction is on the
history. -/
theorem lookup?_history (history : List Symbol) (a : Address) :
    (empty.defineAll history).lookup? a = lastAt? history a := by
  rw [lookup?_defineAll, lookup?_empty, Option.or_none]

theorem lookup?_defineAll_eq_some_iff :
    (empty.defineAll history).lookup? a = some s ↔ Visible history s ∧ s.address = a := by
  rw [lookup?_history, lastAt?_eq_some_iff]

theorem lookup?_defineAll_eq_none_iff :
    (empty.defineAll history).lookup? a = none ↔ ∀ s ∈ history, s.address ≠ a := by
  rw [lookup?_history, lastAt?_eq_none_iff]

/-- The table lists the visible symbols. -/
theorem mem_symbols_defineAll_iff :
    s ∈ (empty.defineAll history).symbols ↔ Visible history s := by
  rw [mem_symbols_iff]
  constructor
  · rintro ⟨a, h⟩
    exact (lookup?_defineAll_eq_some_iff.mp h).1
  · intro h
    exact ⟨s.address, lookup?_defineAll_eq_some_iff.mpr ⟨h, rfl⟩⟩

/-- Definitions elsewhere leave an address alone. -/
theorem lookup?_defineAll_of_forall_ne {symbols : List Symbol}
    (h : ∀ s ∈ symbols, s.address ≠ a) : (t.defineAll symbols).lookup? a = t.lookup? a := by
  rw [lookup?_defineAll, lastAt?_eq_none_iff.mpr h, Option.none_or]

/-- Histories come to the same table exactly if they end alike at every
address. -/
theorem defineAll_eq_iff {other : List Symbol} :
    empty.defineAll history = empty.defineAll other
      ↔ ∀ a, lastAt? history a = lastAt? other a := by
  constructor
  · intro h a
    rw [← lookup?_history, ← lookup?_history, h]
  · intro h
    refine ext_lookup? fun a => ?_
    rw [lookup?_history, lookup?_history, h]

-- ============================================================== in order

theorem Placed.increasing_symbols (h : t.Placed) :
    (t.symbols.map Symbol.address).Pairwise (· < ·) := by
  rw [h.map_address_symbols]
  exact Std.ExtTreeMap.ordered_keys.imp Std.compare_eq_lt.mp

/-- A table has as many symbols as there are addresses in its history. -/
theorem size_defineAll (history : List Symbol) :
    (empty.defineAll history).size = (history.map Symbol.address).toFinset.card := by
  have hkeys : (empty.defineAll history).entries.keys.toFinset
      = (history.map Symbol.address).toFinset := by
    ext a
    have hfiled : a ∈ (empty.defineAll history).entries.keys
        ↔ (empty.defineAll history).lookup? a ≠ none := by
      rw [Std.ExtTreeMap.mem_keys, Std.ExtTreeMap.mem_iff_isSome_getElem?,
        Option.isSome_iff_ne_none]
      rfl
    rw [List.mem_toFinset, List.mem_toFinset, hfiled, ne_eq, lookup?_defineAll_eq_none_iff]
    simp
  rw [← hkeys, List.toFinset_card_of_nodup Std.ExtTreeMap.nodup_keys,
    Std.ExtTreeMap.length_keys]
  rfl

/-- The first symbol of a kind in the order of addresses is the one with
the smallest address. -/
theorem find?_eq_some_iff_least {symbols : List Symbol}
    (h : (symbols.map Symbol.address).Pairwise (· < ·)) (p : Symbol → Bool) :
    symbols.find? p = some s
      ↔ s ∈ symbols ∧ p s = true ∧ ∀ s' ∈ symbols, p s' = true → s.address ≤ s'.address := by
  induction symbols with
  | nil => simp
  | cons first rest ih =>
      rw [List.map_cons, List.pairwise_cons] at h
      obtain ⟨hfirst, hrest⟩ := h
      have habove : ∀ s' ∈ rest, first.address < s'.address :=
        fun s' hmem => hfirst _ (List.mem_map_of_mem hmem)
      rw [List.find?_cons]
      cases hp : p first with
      | true =>
          constructor
          · rintro ⟨⟩
            refine ⟨List.mem_cons_self, hp, ?_⟩
            rintro s' (_ | ⟨_, hmem⟩) -
            · exact Std.le_refl _
            · exact Std.le_of_lt (habove s' hmem)
          · rintro ⟨hmem, -, hleast⟩
            rcases List.mem_cons.mp hmem with rfl | hmem
            · rfl
            · have hle := hleast first List.mem_cons_self hp
              exact absurd (habove s hmem) (Std.not_lt.mpr hle)
      | false =>
          show rest.find? p = some s ↔ _
          rw [ih hrest]
          constructor
          · rintro ⟨hmem, hs, hleast⟩
            refine ⟨List.mem_cons_of_mem _ hmem, hs, ?_⟩
            rintro s' (_ | ⟨_, hmem'⟩) hs'
            · rw [hp] at hs'
              cases hs'
            · exact hleast s' hmem' hs'
          · rintro ⟨hmem, hs, hleast⟩
            rcases List.mem_cons.mp hmem with rfl | hmem
            · rw [hp] at hs
              cases hs
            · exact ⟨hmem, hs, fun s' hmem' => hleast s' (List.mem_cons_of_mem _ hmem')⟩

-- =============================================================== answers

/-- Define every symbol of a list, in its order; also what each of them
takes the place of. -/
def exchangeAll (t : SymbolTable) : List Symbol → SymbolTable × List (Option Symbol)
  | [] => (t, [])
  | s :: rest =>
    let (next, previous) := t.exchange s
    let (last, others) := next.exchangeAll rest
    (last, previous :: others)

/-- Definitions that answer what they replace define the same. -/
theorem exchangeAll_fst (t : SymbolTable) (symbols : List Symbol) :
    (t.exchangeAll symbols).1 = t.defineAll symbols := by
  induction symbols generalizing t with
  | nil => rfl
  | cons s rest ih => exact ih (t.define s)

/-- Each answer is what was filed at the address just before. -/
theorem getElem?_exchangeAll (t : SymbolTable) (symbols : List Symbol) (i : Nat) :
    (t.exchangeAll symbols).2[i]?
      = symbols[i]?.map fun s => (t.defineAll (symbols.take i)).lookup? s.address := by
  induction symbols generalizing t i with
  | nil => simp [exchangeAll]
  | cons s rest ih =>
      cases i with
      | zero => rfl
      | succ i => exact ih (t.define s) i

-- ========================================================= whole account

/-- The table is the last write of a history at every address, with
queries in the order of addresses. -/
structure Recounts (t : SymbolTable) (history : List Symbol) : Prop where
  found : ∀ a s, t.lookup? a = some s ↔ Visible history s ∧ s.address = a
  absent : ∀ a, t.lookup? a = none ↔ ∀ s ∈ history, s.address ≠ a
  /-- What is defined elsewhere later changes nothing. -/
  kept : ∀ a more, (∀ s ∈ more, s.address ≠ a) → (t.defineAll more).lookup? a = t.lookup? a
  listed : ∀ s, s ∈ t.symbols ↔ Visible history s
  increasing : (t.symbols.map Symbol.address).Pairwise (· < ·)
  counted : t.size = (history.map Symbol.address).toFinset.card
  ofKind : ∀ k, (t.ofKind k).Sublist t.symbols
    ∧ ∀ s, s ∈ t.ofKind k ↔ Visible history s ∧ s.kind = k
  named : ∀ name s, t.named? name = some s
    ↔ Visible history s ∧ s.name = name
      ∧ ∀ s', Visible history s' → s'.name = name → s.address ≤ s'.address
  unnamed : ∀ name, t.named? name = none ↔ ∀ s, Visible history s → s.name ≠ name

/-- The table of a history answers for it in every respect. -/
theorem recounts_defineAll (history : List Symbol) :
    (empty.defineAll history).Recounts history where
  found := fun _ _ => lookup?_defineAll_eq_some_iff
  absent := fun _ => lookup?_defineAll_eq_none_iff
  kept := fun _ _ h => lookup?_defineAll_of_forall_ne h
  listed := fun _ => mem_symbols_defineAll_iff
  increasing := (placed_defineAll history).increasing_symbols
  counted := size_defineAll history
  ofKind := by
    intro k
    refine ⟨List.filter_sublist, fun s => ?_⟩
    unfold SymbolTable.ofKind
    rw [List.mem_filter, mem_symbols_defineAll_iff, decide_eq_true_iff]
  named := by
    intro name s
    unfold named?
    rw [find?_eq_some_iff_least (placed_defineAll history).increasing_symbols]
    simp only [mem_symbols_defineAll_iff, decide_eq_true_iff]
  unnamed := by
    intro name
    unfold named?
    rw [List.find?_eq_none]
    simp only [mem_symbols_defineAll_iff, decide_eq_true_iff, ne_eq]

/-- A table after any definitions is their last writes, in order; each
definition was answered with what a look-up gave before it, and only the
last writes matter. -/
theorem defineAll_refines (history : List Symbol) :
    (empty.defineAll history).Recounts history
    ∧ (empty.exchangeAll history).1 = empty.defineAll history
    ∧ (∀ i, (empty.exchangeAll history).2[i]?
        = history[i]?.map fun s => (empty.defineAll (history.take i)).lookup? s.address)
    ∧ ∀ other, empty.defineAll history = empty.defineAll other
        ↔ ∀ a, lastAt? history a = lastAt? other a :=
  ⟨recounts_defineAll history, exchangeAll_fst empty history,
    getElem?_exchangeAll empty history, fun _ => defineAll_eq_iff⟩

end SymbolTable

end Dissect

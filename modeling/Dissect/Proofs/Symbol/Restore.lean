/-
What a symbol table that was read from text shows.

# Two places for an address

A table text gives each symbol an address twice, as the key it stands
under and as a field of its own, and reading compares them nowhere. The
table goes by the keys: at each address it shows the last entry of the
text under that key (`lookup?_ofEntries`), and later definitions lie over
the text as they lie over any table.

# Symbols out of place

A definition files a symbol under its own address, so definitions only
ever put right what the text got wrong. What they leave out of place are
the symbols whose key nothing was defined at (`placed_defineAll_iff`). A
table is gone through in the order of its keys, and the order of its
symbols' own addresses is another matter
(`pairwise_address_symbols_iff`).
-/
import Dissect.Proofs.Symbol.History
import Dissect.Symbol.Json

namespace Dissect.SymbolTable

variable {t : SymbolTable} {entries : List (Address × Symbol)} {a : Address} {s : Symbol}

-- ============================================================= the text

/-- The entries of a table text in their order: the key of a symbol, and
the symbol. -/
def entriesOf? (text : String) : Option (List (Address × Symbol)) := do
  match ← (← Json.parse? text).record? ["symbols"] with
  | [some symbols] => entries? symbols
  | _ => none

/-- A table goes by the keys of its entries. -/
def ofEntries (entries : List (Address × Symbol)) : SymbolTable := ⟨.ofList entries compare⟩

/-- A text is read entry by entry, and the table is filled with the
entries. -/
theorem parse?_eq (text : String) : parse? text = (entriesOf? text).map ofEntries := by
  unfold parse? entriesOf? ofJson?
  cases Json.parse? text with
  | none => rfl
  | some j =>
      simp only [Option.bind_eq_bind, Option.bind_some]
      rcases j.record? ["symbols"] with _ | _ | ⟨_ | symbols, _ | ⟨_, _⟩⟩
      case some.cons.some.nil =>
        show (entries? symbols).bind _ = (entries? symbols).map _
        cases entries? symbols with
        | none => rfl
        | some entries => rfl
      all_goals rfl

/-- The symbol of the last entry under a key. -/
def lastUnder? (entries : List (Address × Symbol)) (a : Address) : Option Symbol :=
  entries.reverse.lookup a

theorem lastUnder?_cons (e : Address × Symbol) (rest : List (Address × Symbol)) (a : Address) :
    lastUnder? (e :: rest) a = (lastUnder? rest a).or (if e.1 = a then some e.2 else none) := by
  unfold lastUnder?
  rw [List.reverse_cons, List.lookup_append, List.lookup_cons, List.lookup_nil]
  by_cases h : e.1 = a
  · simp [h]
  · have hother : (a == e.1) = false := by simpa using Ne.symm h
    simp [h, hother]

theorem mem_of_lastUnder? (h : lastUnder? entries a = some s) : (a, s) ∈ entries := by
  obtain ⟨before, after, hsplit, -⟩ := List.lookup_eq_some_iff.mp h
  rw [← List.mem_reverse, hsplit]
  simp

/-- Inserting entries leaves the last one under each key. -/
theorem getElem?_insertEntries (m : Std.ExtTreeMap Address Symbol)
    (entries : List (Address × Symbol)) (a : Address) :
    (m.insertMany entries)[a]? = (lastUnder? entries a).or m[a]? := by
  induction entries generalizing m with
  | nil => rfl
  | cons e rest ih =>
      rw [← Prod.mk.eta (p := e), Std.ExtTreeMap.insertMany_cons, ih, lastUnder?_cons,
        Option.or_assoc, Std.ExtTreeMap.getElem?_insert]
      congr 1
      by_cases h : e.1 = a
      · simp [h]
      · simp [h]

/-- The last entry under a key is visible there. -/
theorem lookup?_ofEntries (entries : List (Address × Symbol)) (a : Address) :
    (ofEntries entries).lookup? a = lastUnder? entries a := by
  unfold ofEntries lookup?
  rw [Std.ExtTreeMap.ofList_eq_insertMany_empty, getElem?_insertEntries,
    Std.ExtTreeMap.getElem?_empty, Option.or_none]

-- ================================================== symbols out of place

/-- After definitions every symbol is in its place exactly if each symbol
that was not in its place before had something defined over it. -/
theorem placed_defineAll_iff (t : SymbolTable) (later : List Symbol) :
    (t.defineAll later).Placed
      ↔ ∀ a s, t.lookup? a = some s → s.address = a ∨ ∃ d ∈ later, d.address = a := by
  constructor
  · intro h a s hs
    by_cases hover : ∃ d ∈ later, d.address = a
    · exact .inr hover
    · have hkept := lookup?_defineAll_of_forall_ne (t := t)
        fun d hd heq => hover ⟨d, hd, heq⟩
      exact .inl (h a s (hkept.trans hs))
  · intro h a s hs
    rw [lookup?_defineAll] at hs
    cases hlast : lastAt? later a with
    | some d =>
        rw [hlast] at hs
        cases hs
        exact (lastAt?_eq_some hlast).2
    | none =>
        rw [hlast] at hs
        rcases h a s hs with hplace | ⟨d, hd, heq⟩
        · exact hplace
        · exact absurd heq (lastAt?_eq_none_iff.mp hlast d hd)

/-- Symbols stand in the order of their keys. -/
theorem pairwise_address_symbols_iff (t : SymbolTable) :
    (t.symbols.map Symbol.address).Pairwise (· < ·)
      ↔ ∀ a b s s', a < b → t.lookup? a = some s → t.lookup? b = some s' →
        s.address < s'.address := by
  have hkeys : t.entries.toList.Pairwise fun e e' => e.1 < e'.1 :=
    Std.ExtTreeMap.ordered_keys_toList.imp Std.compare_eq_lt.mp
  unfold symbols
  rw [List.map_map, List.pairwise_map]
  constructor
  · intro h a b s s' hlt hs hs'
    obtain ⟨i, hi, hei⟩ := List.getElem_of_mem
      (Std.ExtTreeMap.mem_toList_iff_getElem?_eq_some.mpr hs)
    obtain ⟨j, hj, hej⟩ := List.getElem_of_mem
      (Std.ExtTreeMap.mem_toList_iff_getElem?_eq_some.mpr hs')
    rcases Nat.lt_trichotomy i j with hij | rfl | hij
    · have haddress := List.pairwise_iff_getElem.mp h i j hi hj hij
      rw [hei, hej] at haddress
      exact haddress
    · rw [hei] at hej
      cases hej
      exact absurd hlt (UInt64.lt_irrefl a)
    · have hkey := List.pairwise_iff_getElem.mp hkeys j i hj hi hij
      rw [hei, hej] at hkey
      exact absurd hlt (UInt64.lt_asymm hkey)
  · intro h
    refine hkeys.imp_of_mem ?_
    intro e e' he he' hlt
    exact h e.1 e'.1 e.2 e'.2 hlt (Std.ExtTreeMap.mem_toList_iff_getElem?_eq_some.mp he)
      (Std.ExtTreeMap.mem_toList_iff_getElem?_eq_some.mp he')

-- ======================================================== whole account

/-- A table that was read shows at each address the last definition after
it, or else the last entry of the text under that key. Every symbol is in
its place exactly if nothing but definitions shows where the text filed a
symbol under another address than its own, and the symbols' addresses
increase exactly if they do so along the keys. A text in which every
symbol stands under its own address thus gives a table in order, whatever
is defined later. -/
theorem restored_placed_iff {text : String} {t : SymbolTable} (h : parse? text = some t) :
    ∃ entries, entriesOf? text = some entries ∧ ∀ later : List Symbol,
      (∀ a, (t.defineAll later).lookup? a = (lastAt? later a).or (lastUnder? entries a))
      ∧ ((t.defineAll later).Placed
          ↔ ∀ a s, lastUnder? entries a = some s →
            s.address = a ∨ ∃ d ∈ later, d.address = a)
      ∧ (((t.defineAll later).symbols.map Symbol.address).Pairwise (· < ·)
          ↔ ∀ a b s s', a < b → (t.defineAll later).lookup? a = some s →
            (t.defineAll later).lookup? b = some s' → s.address < s'.address)
      ∧ ((∀ e ∈ entries, e.2.address = e.1) → (t.defineAll later).Placed
          ∧ ((t.defineAll later).symbols.map Symbol.address).Pairwise (· < ·)) := by
  rw [parse?_eq] at h
  obtain ⟨entries, hentries, rfl⟩ := Option.map_eq_some_iff.mp h
  refine ⟨entries, hentries, fun later => ?_⟩
  have hplaced := placed_defineAll_iff (ofEntries entries) later
  simp only [lookup?_ofEntries] at hplaced
  refine ⟨fun a => ?_, hplaced, pairwise_address_symbols_iff _, fun hown => ?_⟩
  · rw [lookup?_defineAll, lookup?_ofEntries]
  · have hall := hplaced.mpr fun a s hs => .inl (hown _ (mem_of_lastUnder? hs))
    exact ⟨hall, hall.increasing_symbols⟩

/-- Two symbols under each other's addresses. -/
def crossedText : String :=
  "\x7b\"symbols\":\x7b\"1\":\x7b\"name\":\"a\",\"address\":2,\"kind\":\"Data\"\x7d,"
    ++ "\"2\":\x7b\"name\":\"b\",\"address\":1,\"kind\":\"Data\"\x7d\x7d\x7d"

/-- What the text says of each address. -/
theorem entriesOf?_crossedText :
    entriesOf? crossedText = some [(1, ⟨"a", 2, .data⟩), (2, ⟨"b", 1, .data⟩)] := by
  decide +kernel

/-- Definitions at both addresses leave no symbol of the text. -/
theorem restored_placed_crossed :
    ∃ t, parse? crossedText = some t
      ∧ (t.defineAll [⟨"c", 2, .data⟩, ⟨"d", 1, .function⟩]).Placed := by
  have hread : parse? crossedText
      = some (ofEntries [(1, ⟨"a", 2, .data⟩), (2, ⟨"b", 1, .data⟩)]) := by
    rw [parse?_eq, entriesOf?_crossedText]
    rfl
  obtain ⟨entries, hentries, haccount⟩ := restored_placed_iff hread
  rw [entriesOf?_crossedText] at hentries
  cases hentries
  refine ⟨_, hread, (haccount _).2.1.mpr fun a s hs => .inr ?_⟩
  have hmem := mem_of_lastUnder? hs
  simp only [List.mem_cons, List.not_mem_nil, or_false, Prod.mk.injEq] at hmem
  rcases hmem with ⟨rfl, -⟩ | ⟨rfl, -⟩
  · exact ⟨⟨"d", 1, .function⟩, by simp, rfl⟩
  · exact ⟨⟨"c", 2, .data⟩, by simp, rfl⟩

/-- The text is read, its first address shows a symbol of the second, and
the symbols do not come in the order of their addresses. -/
theorem crossed_not_placed :
    ∃ t, parse? crossedText = some t ∧ t.lookup? 1 = some ⟨"a", 2, .data⟩
      ∧ t.symbols.map Symbol.address = [2, 1]
      ∧ ¬ t.Placed ∧ ¬ (t.symbols.map Symbol.address).Pairwise (· < ·) := by
  have hanswers : (parse? crossedText).map
      (fun t => (t.lookup? 1, t.symbols.map Symbol.address))
        = some (some ⟨"a", 2, .data⟩, [2, 1]) := by
    decide +kernel
  obtain ⟨t, hread, hshown⟩ := Option.map_eq_some_iff.mp hanswers
  obtain ⟨hfirst, horder⟩ := Prod.mk.inj hshown
  have hmisplaced : ¬ t.Placed := by
    intro h
    exact absurd (h 1 _ hfirst) (by decide)
  have hdecreasing : ¬ (t.symbols.map Symbol.address).Pairwise (· < ·) := by
    rw [horder]
    decide
  exact ⟨t, hread, hfirst, horder, hmisplaced, hdecreasing⟩

end Dissect.SymbolTable

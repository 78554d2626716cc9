/-
What a descriptor with a terminated table of thunks comes to.

# Tables

`Importer.Binds` relates an index of a look-up table to the symbols of
the thunks from there on: a zero ends the table, any other thunk has a
symbol and the rest of the table follows. It says what is in the image
and nothing about limits or the order of checks.

# Runs

`ImportRun.binding` is a run that is given its symbols: it defines them
one by one until the limit is met. The loop over a table is the run of
its symbols (`bindFrom_eq_binding`). The fuel of the loop is never used
up, because the terminator has an address and tables that are longer
than the fuel leave the address space before their end.

The run itself has a closed form: the definitions are the symbols that
the limit leaves room for (`definitions_binding`), and the summary is
told by how many there are (`summary_binding`).

# Descriptors

`Importer.Lists` says the same of a descriptor with no recursion: which
values its table has, index by index, with a zero behind them, and that
their slots are mapped. With a name for each value it gives the table
(`Binds.of_entries`), hence the run.
-/
import Dissect.Proofs.Pe.Import
import Mathlib.Data.List.Forall2

namespace Dissect.Pe

-- ========================================================= runs of symbols

/-- A run that defines the given symbols, up to the limit. -/
def ImportRun.binding (limit : Nat) (library : String) :
    List Symbol → ImportSummary → ImportRun
  | [], s => .idle s
  | x :: rest, s =>
    if limit ≤ s.imports then
      ⟨{ s with capped := true }, [.note (.importLimit limit library)], none⟩
    else
      (binding limit library rest { s with imports := s.imports + 1 }).after
        [.note (.importFound x.address x.name), .define x]

namespace ImportRun

variable (limit : Nat) (library : String)

theorem fault_binding (symbols : List Symbol) (s : ImportSummary) :
    (binding limit library symbols s).fault = none := by
  induction symbols generalizing s with
  | nil => rfl
  | cons x rest ih =>
      rw [binding]
      split
      · rfl
      · exact ih _

/-- What is defined is what there is room for. -/
theorem definitions_binding (symbols : List Symbol) (s : ImportSummary) :
    definitions (binding limit library symbols s).steps
      = symbols.take (limit - s.imports) := by
  induction symbols generalizing s with
  | nil =>
      rw [List.take_nil]
      rfl
  | cons x rest ih =>
      rw [binding]
      split
      · next hfull =>
        rw [Nat.sub_eq_zero_of_le hfull]
        rfl
      · next hroom =>
        have hone : limit - s.imports = limit - (s.imports + 1) + 1 := by omega
        rw [hone, List.take_succ_cons]
        exact congrArg (x :: ·) (ih _)

/-- The summary counts the definitions, and the limit is met when there
were more symbols than room. -/
theorem summary_binding (symbols : List Symbol) (s : ImportSummary) :
    (binding limit library symbols s).summary
      = { s with
          imports := s.imports + min symbols.length (limit - s.imports)
          capped := s.capped || decide (limit - s.imports < symbols.length) } := by
  induction symbols generalizing s with
  | nil => simp [binding, idle]
  | cons x rest ih =>
      rw [binding]
      split
      · next hfull => simp [Nat.sub_eq_zero_of_le hfull]
      · next hroom =>
        show (binding limit library rest { s with imports := s.imports + 1 }).summary = _
        rw [ih]
        have himports : s.imports + 1 + min rest.length (limit - (s.imports + 1))
            = s.imports + min (x :: rest).length (limit - s.imports) := by
          rw [List.length_cons]
          omega
        have hcapped : limit - (s.imports + 1) < rest.length
            ↔ limit - s.imports < (x :: rest).length := by
          rw [List.length_cons]
          omega
        simp only [himports, hcapped]

end ImportRun

namespace Importer

variable {i : Importer} {library : String} {names slots : Nat}

-- ================================================================= tables

/-- The symbols of the thunks from an index on, up to the first zero. -/
inductive Binds (i : Importer) (library : String) (names slots : Nat) :
    Nat → List Symbol → Prop
  | stop {index : Nat} (hread : i.thunk.read i.view (names + index * i.thunk.width) = .ok 0) :
      Binds i library names slots index []
  | more {index : Nat} {value : UInt64} {x : Symbol} {rest : List Symbol}
      (hread : i.thunk.read i.view (names + index * i.thunk.width) = .ok value)
      (hvalue : value ≠ 0) (hsymbol : i.symbolOf library slots index value = .ok x)
      (hrest : Binds i library names slots (index + 1) rest) :
      Binds i library names slots index (x :: rest)

/-- The loop over a table is the run of its symbols. -/
theorem bindFrom_eq_binding {index fuel : Nat} {symbols : List Symbol}
    (h : i.Binds library names slots index symbols) (hfuel : symbols.length < fuel)
    (s : ImportSummary) :
    i.bindFrom library names slots fuel index s []
      = .binding i.limit library symbols s := by
  induction h generalizing fuel s with
  | stop hread =>
      obtain ⟨fuel, rfl⟩ : ∃ n, fuel = n + 1 := ⟨fuel - 1, by omega⟩
      rw [bindFrom_succ, hread]
      rfl
  | more hread hvalue hsymbol hrest ih =>
      rw [List.length_cons] at hfuel
      obtain ⟨fuel, rfl⟩ : ∃ n, fuel = n + 1 := ⟨fuel - 1, by omega⟩
      rw [bindFrom_succ, hread, ImportRun.binding]
      dsimp only
      rw [if_neg hvalue, hsymbol]
      dsimp only
      rw [ih (by omega)]

/-- The symbol of the slot with an index. -/
def slotSymbol (i : Importer) (slots index : Nat) (name : String) : Symbol :=
  ⟨name, .ofNat (i.view.base.toNat + (slots + index * i.thunk.width)), .imported⟩

/-- A thunk with a mapped slot and a name has the symbol of the slot. -/
theorem symbolOf_eq_slotSymbol {index : Nat} {value : UInt64} {name : String}
    (hslot : ∃ a, i.view.mappedAddress (slots + index * i.thunk.width) = .ok a)
    (hname : i.importName library value = .ok name) :
    i.symbolOf library slots index value = .ok (i.slotSymbol slots index name) := by
  obtain ⟨a, ha⟩ := hslot
  have haddress := sum?_eq_some_iff.mp (View.mappedAddress_eq_ok_iff.mp ha).1
  unfold symbolOf slotSymbol
  rw [ha, hname, ← haddress, UInt64.ofNat_toNat]
  rfl

/-- A table is bound to the slots of its thunks, when each of them has a
slot and a name and a zero is behind the last. -/
theorem Binds.of_entries {values : List UInt64} {texts : List String} {index : Nat}
    (hnames : List.Forall₂ (fun v name => v ≠ 0 ∧ i.importName library v = .ok name) values texts)
    (hentry : ∀ k v, values[k]? = some v →
      i.thunk.read i.view (names + (index + k) * i.thunk.width) = .ok v)
    (hslot : ∀ k < values.length,
      ∃ a, i.view.mappedAddress (slots + (index + k) * i.thunk.width) = .ok a)
    (hstop : i.thunk.read i.view (names + (index + values.length) * i.thunk.width) = .ok 0) :
    i.Binds library names slots index
      (texts.mapIdx fun k => i.slotSymbol slots (index + k)) := by
  induction hnames generalizing index with
  | nil => exact .stop hstop
  | cons hhead htail ih =>
      obtain ⟨hvalue, hname⟩ := hhead
      have hone : ∀ k, index + (k + 1) = index + 1 + k := fun k => by omega
      rw [List.mapIdx_cons]
      refine .more (hentry 0 _ rfl) hvalue
        (symbolOf_eq_slotSymbol (hslot 0 (Nat.zero_lt_succ _)) hname) ?_
      rw [funext fun k => congrArg (i.slotSymbol slots) (hone k)]
      rw [List.length_cons, hone] at hstop
      refine ih (fun k v hv => ?_) (fun k hk => ?_) hstop
      · rw [← hone]
        exact hentry (k + 1) v hv
      · rw [← hone]
        exact hslot (k + 1) (Nat.succ_lt_succ hk)

-- =================================================================== fuel

/-- A thunk is read at a word. -/
theorem lt_of_read {t : Thunk} {v : View} {rva : Nat} {value : UInt64}
    (h : t.read v rva = .ok value) : rva < 2 ^ 64 := by
  obtain ⟨n, hn⟩ : ∃ n, v.offset rva = .ok n := by
    cases t with
    | narrow =>
        cases hword : v.word32 rva with
        | error e =>
            rw [Thunk.read, hword] at h
            cases h
        | ok w =>
            obtain ⟨n, hn, -⟩ := View.readAt_eq_ok_iff.mp hword
            exact ⟨n, hn⟩
    | wide =>
        obtain ⟨n, hn, -⟩ := View.readAt_eq_ok_iff.mp h
        exact ⟨n, hn⟩
  obtain ⟨a, o, hsum, -, -⟩ := View.offset_eq_ok_iff.mp hn
  have haddress := sum?_eq_some_iff.mp hsum
  have hlt := a.toNat_lt
  omega

/-- The terminator of a table has an address. -/
theorem Binds.stop_lt {index : Nat} {symbols : List Symbol}
    (h : i.Binds library names slots index symbols) :
    names + (index + symbols.length) * i.thunk.width < 2 ^ 64 := by
  induction h with
  | stop hread => exact lt_of_read hread
  | more hread hvalue hsymbol hrest ih =>
      rw [List.length_cons, Nat.add_comm _ 1, ← Nat.add_assoc]
      exact ih

/-- There is fuel for every table that has an end. -/
theorem Binds.length_lt {symbols : List Symbol} (h : i.Binds library names slots 0 symbols) :
    symbols.length < entryLimit i.thunk.width := by
  have hstop := h.stop_lt
  unfold entryLimit UInt64.size
  cases ht : i.thunk with
  | narrow =>
      rw [ht] at hstop
      simp only [Thunk.width] at hstop ⊢
      omega
  | wide =>
      rw [ht] at hstop
      simp only [Thunk.width] at hstop ⊢
      omega

-- ============================================================ descriptors

/-- A descriptor with a library, slots and a table that ends: its run is
that of its symbols. -/
theorem readDescriptor_eq_binding {d : ImportDescriptor} {file : String} {symbols : List Symbol}
    (hlibrary : i.view.string d.libraryRva.toNat i.options.maxNameLength.toNat = .ok file)
    (hslots : d.slotsRva ≠ 0)
    (htable : i.Binds (Text.lowerAscii file) d.namesRva.toNat d.slotsRva.toNat 0 symbols)
    (s : ImportSummary) :
    i.readDescriptor s d
      = .binding i.limit (Text.lowerAscii file) symbols
          { s with visualBasic := s.visualBasic || isVisualBasic (Text.lowerAscii file) } := by
  have hnames : d.namesRva ≠ 0 := by
    unfold ImportDescriptor.namesRva
    split
    · next h => exact h
    · exact hslots
  unfold readDescriptor
  rw [hlibrary]
  dsimp only
  rw [if_neg hnames, if_neg hslots]
  exact bindFrom_eq_binding htable htable.length_lt _

/-- A descriptor has a library, a table of thunks with a zero behind the
last, and a mapped slot for each of them. -/
structure Lists (i : Importer) (d : ImportDescriptor) (file : String) (values : List UInt64) :
    Prop where
  library : i.view.string d.libraryRva.toNat i.options.maxNameLength.toNat = .ok file
  slots : d.slotsRva ≠ 0
  entry : ∀ k v, values[k]? = some v →
    i.thunk.read i.view (d.namesRva.toNat + k * i.thunk.width) = .ok v
  stop : i.thunk.read i.view (d.namesRva.toNat + values.length * i.thunk.width) = .ok 0
  slot : ∀ k < values.length,
    ∃ a, i.view.mappedAddress (d.slotsRva.toNat + k * i.thunk.width) = .ok a

/-- The thunks of a table have names. -/
def Names (i : Importer) (file : String) : List UInt64 → List String → Prop :=
  List.Forall₂ fun v name => v ≠ 0 ∧ i.importName (Text.lowerAscii file) v = .ok name

namespace Lists

variable {d : ImportDescriptor} {file : String} {values : List UInt64} {texts : List String}

/-- The run of a descriptor is that of the slots of its thunks. -/
theorem readDescriptor_eq (h : i.Lists d file values) (hnames : i.Names file values texts)
    (s : ImportSummary) :
    i.readDescriptor s d
      = .binding i.limit (Text.lowerAscii file)
          (texts.mapIdx (i.slotSymbol d.slotsRva.toNat))
          { s with visualBasic := s.visualBasic || isVisualBasic (Text.lowerAscii file) } := by
  have hindex : (fun k => i.slotSymbol d.slotsRva.toNat (0 + k))
      = i.slotSymbol d.slotsRva.toNat := by
    simp only [Nat.zero_add]
  have htable : i.Binds (Text.lowerAscii file) d.namesRva.toNat d.slotsRva.toNat 0
      (texts.mapIdx (i.slotSymbol d.slotsRva.toNat)) := by
    rw [← hindex]
    refine .of_entries hnames ?_ ?_ ?_
    · simpa only [Nat.zero_add] using h.entry
    · simpa only [Nat.zero_add] using h.slot
    · simpa only [Nat.zero_add] using h.stop
  exact readDescriptor_eq_binding h.library h.slots htable s

theorem fault_readDescriptor (h : i.Lists d file values) (hnames : i.Names file values texts)
    (s : ImportSummary) : (i.readDescriptor s d).fault = none := by
  rw [h.readDescriptor_eq hnames, ImportRun.fault_binding]

/-- The summary of a descriptor is told by the number of its thunks. -/
theorem summary_readDescriptor (h : i.Lists d file values) (hnames : i.Names file values texts)
    (s : ImportSummary) :
    (i.readDescriptor s d).summary
      = { s with
          visualBasic := s.visualBasic || isVisualBasic (Text.lowerAscii file)
          imports := s.imports + min values.length (i.limit - s.imports)
          capped := s.capped || decide (i.limit - s.imports < values.length) } := by
  rw [h.readDescriptor_eq hnames, ImportRun.summary_binding, List.length_mapIdx,
    ← hnames.length_eq]

/-- A descriptor defines one symbol for each thunk, as far as the limit
allows. -/
theorem definitions_readDescriptor (h : i.Lists d file values)
    (hnames : i.Names file values texts) (s : ImportSummary) :
    definitions (i.readDescriptor s d).steps
      = (texts.mapIdx (i.slotSymbol d.slotsRva.toNat)).take (i.limit - s.imports) := by
  rw [h.readDescriptor_eq hnames, ImportRun.definitions_binding]

/-- A descriptor defines as many symbols as there are thunks, or as
there is room for. -/
theorem length_definitions (h : i.Lists d file values) (hnames : i.Names file values texts)
    (s : ImportSummary) :
    (definitions (i.readDescriptor s d).steps).length
      = min values.length (i.limit - s.imports) := by
  rw [h.definitions_readDescriptor hnames, List.length_take, List.length_mapIdx,
    ← hnames.length_eq, Nat.min_comm]

/-- What is defined for the thunk with an index has its name and is at
its slot. The sum is an address, because slots are mapped. -/
theorem of_mem_definitions (h : i.Lists d file values) (hnames : i.Names file values texts)
    {s : ImportSummary} {k : Nat} {x : Symbol}
    (hx : (definitions (i.readDescriptor s d).steps)[k]? = some x) :
    texts[k]? = some x.name ∧ x.kind = .imported
      ∧ x.address.toNat
          = i.view.base.toNat + d.slotsRva.toNat + k * i.thunk.width := by
  rw [h.definitions_readDescriptor hnames, List.getElem?_take] at hx
  split at hx
  · rw [List.getElem?_mapIdx] at hx
    obtain ⟨name, hname, rfl⟩ := Option.map_eq_some_iff.mp hx
    obtain ⟨hk, -⟩ := List.getElem?_eq_some_iff.mp hname
    rw [← hnames.length_eq] at hk
    obtain ⟨a, ha⟩ := h.slot k hk
    have haddress := sum?_eq_some_iff.mp (View.mappedAddress_eq_ok_iff.mp ha).1
    refine ⟨hname, rfl, ?_⟩
    rw [slotSymbol, ← haddress, UInt64.ofNat_toNat, haddress, Nat.add_assoc]
  · cases hx

end Lists

end Importer

end Dissect.Pe

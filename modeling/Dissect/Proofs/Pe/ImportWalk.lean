/-
That the import walk defines what its directory holds.

# Up to the limit

A walk that comes to its end below the limit has met a directory
(`exists_directory_of_walk`). Given the directory, every walk is told by
it, whatever its limit (`delivers_walk`): it defines the symbols in
their order as far as there is room, and the limit is met exactly if
there is a symbol more than that. One descriptor delivers, and a run
that left room is followed by the rest of them (`Delivers.cons`), so the
walk is an induction over the descriptors.

# With room, and with less

With room for every symbol the walk reports the directory, no more and
no less. A directory does not depend on the limit, so two walks over the
same directory differ only in how much of it they deliver.
-/
import Dissect.Proofs.Pe.ImportDirectory
import Dissect.Proofs.Pe.Stages

namespace Dissect.Pe

namespace Importer

variable {i : Importer} {library : String} {names slots rva : Nat} {d : ImportDescriptor}
  {ds : List ImportDescriptor} {symbols : List Symbol} {parts : List (List Symbol)}
  {s : ImportSummary}

-- ================================================== walks without a cap

/-- A loop over thunks that ends well and within the limit has seen the
end of their table. -/
theorem exists_binds_of_bindFrom {fuel index : Nat}
    (hfault : (i.bindFrom library names slots fuel index s []).fault = none)
    (hcapped : (i.bindFrom library names slots fuel index s []).summary.capped = false) :
    ∃ symbols, i.Binds library names slots index symbols := by
  induction fuel generalizing index s with
  | zero => cases hfault
  | succ fuel ih =>
      rw [bindFrom_succ] at hfault hcapped
      cases hread : i.thunk.read i.view (names + index * i.thunk.width) with
      | error e =>
          rw [hread] at hfault
          cases hfault
      | ok value =>
          rw [hread] at hfault hcapped
          dsimp only at hfault hcapped
          by_cases hzero : value = 0
          · subst hzero
            exact ⟨[], .stop hread⟩
          · rw [if_neg hzero] at hfault hcapped
            by_cases hfull : i.limit ≤ s.imports
            · rw [if_pos hfull] at hcapped
              cases hcapped
            · rw [if_neg hfull] at hfault hcapped
              cases hsymbol : i.symbolOf library slots index value with
              | error e =>
                  rw [hsymbol] at hfault
                  cases hfault
              | ok x =>
                  rw [hsymbol] at hfault hcapped
                  obtain ⟨rest, hrest⟩ := ih hfault hcapped
                  exact ⟨x :: rest, .more hread hzero hsymbol hrest⟩

/-- A descriptor that is read without an error and within the limit has
a whole list of imports. -/
theorem exists_imports_of_readDescriptor (hname : d.libraryRva ≠ 0)
    (hfault : (i.readDescriptor s d).fault = none)
    (hcapped : (i.readDescriptor s d).summary.capped = false) :
    ∃ symbols, i.Imports d symbols := by
  unfold readDescriptor at hfault hcapped
  cases hfile : i.view.string d.libraryRva.toNat i.options.maxNameLength.toNat with
  | error e =>
      rw [hfile] at hfault
      cases hfault
  | ok file =>
      rw [hfile] at hfault hcapped
      dsimp only at hfault hcapped
      by_cases htable : d.namesRva = 0
      · exact ⟨[], .tableless hname hfile htable⟩
      · rw [if_neg htable] at hfault hcapped
        by_cases hslots : d.slotsRva = 0
        · rw [if_pos hslots] at hfault
          cases hfault
        · rw [if_neg hslots] at hfault hcapped
          obtain ⟨symbols, hbinds⟩ := exists_binds_of_bindFrom hfault hcapped
          exact ⟨symbols, (imports_iff_of_named hname hfile).mpr (.inr ⟨hslots, hbinds⟩)⟩

/-- A walk that ends below its limit has met a directory. -/
theorem exists_directory_of_walkFrom {fuel : Nat}
    (hfault : (i.walkFrom fuel rva s []).fault = none)
    (hcapped : (i.walkFrom fuel rva s []).summary.capped = false) :
    ∃ ds parts, i.Directory rva ds parts := by
  induction fuel generalizing rva s with
  | zero => cases hfault
  | succ fuel ih =>
      rw [walkFrom_succ] at hfault hcapped
      cases hread : ImportDescriptor.read i.view rva with
      | error e =>
          rw [hread] at hfault
          cases hfault
      | ok d =>
          rw [hread] at hfault hcapped
          dsimp only at hfault hcapped
          by_cases hnull : d.isNull = true
          · obtain rfl := eq_of_beq hnull
            exact ⟨[], [], directory_nil_iff.mpr ⟨hread, rfl⟩⟩
          · rw [if_neg hnull] at hfault hcapped
            have hnull' : d ≠ ⟨0, 0, 0, 0, 0⟩ := fun h => hnull (beq_iff_eq.mpr h)
            by_cases hname : d.libraryRva = 0
            · rw [if_pos hname] at hfault hcapped
              obtain ⟨ds, parts, hrest⟩ := ih hfault hcapped
              exact ⟨d :: ds, [] :: parts,
                directory_cons_iff.mpr ⟨hread, hnull', .unnamed hname, hrest⟩⟩
            · rw [if_neg hname] at hfault hcapped
              generalize hrun : i.readDescriptor { s with descriptors := s.descriptors + 1 } d = run
                at hfault hcapped
              by_cases hend : (run.fault.isSome || run.summary.capped) = true
              · -- a descriptor that ends the walk has failed or met the limit
                rw [if_pos hend] at hfault hcapped
                simp [hfault, hcapped] at hend
              · rw [if_neg hend] at hfault hcapped
                obtain ⟨hok, hbelow⟩ : run.fault = none ∧ run.summary.capped = false := by
                  simpa using hend
                subst hrun
                obtain ⟨symbols, hone⟩ := exists_imports_of_readDescriptor hname hok hbelow
                obtain ⟨ds, parts, hrest⟩ := ih hfault hcapped
                exact ⟨d :: ds, symbols :: parts,
                  directory_cons_iff.mpr ⟨hread, hnull', hone, hrest⟩⟩

-- =========================================================== directories

/-- The library of a descriptor is of the Visual Basic runtime. -/
def meetsVisualBasic (i : Importer) (d : ImportDescriptor) : Bool :=
  match i.libraryOf d with
  | .ok file => d.libraryRva ≠ 0 && isVisualBasic (Text.lowerAscii file)
  | .error _ => false

/-- A run over descriptors with the given symbols: it defines those that
there is room for, and if that is all of them it reports all of them. -/
structure Delivers (i : Importer) (ds : List ImportDescriptor) (symbols : List Symbol)
    (s : ImportSummary) (r : ImportRun) : Prop where
  fault_eq : r.fault = none
  definitions_eq : definitions r.steps = symbols.take (i.limit - s.imports)
  capped_eq : r.summary.capped = decide (i.limit - s.imports < symbols.length)
  summary_eq : symbols.length ≤ i.limit - s.imports →
    r.summary
      = { s with
          descriptors := s.descriptors + ds.countP (·.libraryRva ≠ 0)
          imports := s.imports + symbols.length
          visualBasic := s.visualBasic || ds.any i.meetsVisualBasic }

/-- Descriptors without a library change nothing. -/
theorem Delivers.of_unnamed {steps : List Step} (hds : ∀ d ∈ ds, d.libraryRva = 0)
    (hsteps : definitions steps = []) (hs : s.capped = false) :
    i.Delivers ds [] s ⟨s, steps, none⟩ := by
  have hcount : ds.countP (·.libraryRva ≠ 0) = 0 := by simpa using hds
  have hbasic : ds.any i.meetsVisualBasic = false := by
    refine List.any_eq_false.mpr fun d hd => ?_
    unfold meetsVisualBasic
    rw [hds d hd]
    split
    · simp
    · simp
  refine ⟨rfl, ?_, ?_, ?_⟩
  · simpa using hsteps
  · simpa using hs
  · intro _
    rw [hcount, hbasic, Bool.or_false]
    rfl

/-- A descriptor by itself. -/
theorem delivers_readDescriptor (hname : d.libraryRva ≠ 0) (h : i.Imports d symbols)
    (hs : s.capped = false) :
    i.Delivers [d] symbols s (i.readDescriptor { s with descriptors := s.descriptors + 1 } d) := by
  obtain ⟨file, hfile⟩ : ∃ file, i.libraryOf d = .ok file := by
    cases h with
    | unnamed hnone => exact absurd hnone hname
    | tableless _ hfile _ => exact ⟨_, hfile⟩
    | table _ hfile _ _ _ _ => exact ⟨_, hfile⟩
  have hbasic : i.meetsVisualBasic d = isVisualBasic (Text.lowerAscii file) := by
    simp [meetsVisualBasic, hfile, hname]
  rcases (imports_iff_of_named hname hfile).mp h with ⟨htable, rfl⟩ | ⟨hslots, hbinds⟩
  · have hrun : i.readDescriptor { s with descriptors := s.descriptors + 1 } d
        = .idle { s with
            descriptors := s.descriptors + 1
            visualBasic := s.visualBasic || isVisualBasic (Text.lowerAscii file) } := by
      unfold readDescriptor
      rw [show i.view.string d.libraryRva.toNat i.options.maxNameLength.toNat = .ok file from hfile]
      dsimp only
      rw [if_pos htable]
    rw [hrun]
    refine ⟨rfl, List.take_nil.symm, ?_, ?_⟩
    · simpa [ImportRun.idle] using hs
    · intro _
      simp [ImportRun.idle, hname, hbasic]
  · rw [readDescriptor_eq_binding hfile hslots hbinds]
    refine ⟨ImportRun.fault_binding _ _ _ _, ImportRun.definitions_binding _ _ _ _, ?_, ?_⟩
    · rw [ImportRun.summary_binding]
      simp [hs]
    · intro hroom
      rw [ImportRun.summary_binding]
      simp [hs, hname, hbasic, hroom]

section Delivers

variable {rest : List Symbol} {r r' : ImportRun}

/-- A run that met the limit is over. -/
theorem Delivers.cons_of_full (h : i.Delivers [d] symbols s r)
    (hfull : i.limit - s.imports < symbols.length) :
    i.Delivers (d :: ds) (symbols ++ rest) s r where
  fault_eq := h.fault_eq
  definitions_eq := by
    rw [h.definitions_eq, List.take_append_of_le_length (Nat.le_of_lt hfull)]
  capped_eq := by
    rw [h.capped_eq, List.length_append, decide_eq_decide]
    omega
  summary_eq := by
    rw [List.length_append]
    omega

/-- A run that left room goes on from its summary. -/
theorem Delivers.cons (h : i.Delivers [d] symbols s r)
    (hroom : symbols.length ≤ i.limit - s.imports) (h' : i.Delivers ds rest r.summary r') :
    i.Delivers (d :: ds) (symbols ++ rest) s (r'.after r.steps) := by
  have hsummary := h.summary_eq hroom
  have himports : i.limit - r.summary.imports = i.limit - s.imports - symbols.length := by
    rw [hsummary, Nat.sub_sub]
  have hdefinitions := h'.definitions_eq
  have hcapped := h'.capped_eq
  have htotal := h'.summary_eq
  rw [himports] at hdefinitions hcapped htotal
  refine ⟨h'.fault_eq, ?_, ?_, ?_⟩
  · simp only [ImportRun.after, definitions_append]
    rw [h.definitions_eq, hdefinitions, List.take_append]
  · show r'.summary.capped = _
    rw [hcapped, List.length_append, decide_eq_decide]
    omega
  · intro hall
    rw [List.length_append] at hall
    show r'.summary = _
    rw [htotal (by omega), hsummary]
    simp [List.countP_cons, Nat.add_assoc, Nat.add_comm, Bool.or_assoc]

end Delivers

/-- The outer loop goes by the directory. -/
theorem delivers_walkFrom {fuel : Nat} (h : i.Directory rva ds parts) (hfuel : ds.length < fuel)
    (hs : s.capped = false) : i.Delivers ds parts.flatten s (i.walkFrom fuel rva s []) := by
  induction ds generalizing parts rva fuel s with
  | nil =>
      obtain ⟨hread, rfl⟩ := directory_nil_iff.mp h
      obtain ⟨fuel, rfl⟩ : ∃ n, fuel = n + 1 := ⟨fuel - 1, by omega⟩
      rw [walkFrom_succ, hread]
      exact .of_unnamed (by simp) rfl hs
  | cons d ds ih =>
      obtain ⟨symbols, parts, -, -, rfl⟩ := List.forall₂_cons_left_iff.mp h.imports
      obtain ⟨hread, hnull, hone, hrest⟩ := directory_cons_iff.mp h
      have hisNull : ¬ d.isNull = true := fun hd => hnull (eq_of_beq hd)
      rw [List.length_cons] at hfuel
      obtain ⟨fuel, rfl⟩ : ∃ n, fuel = n + 1 := ⟨fuel - 1, by omega⟩
      rw [walkFrom_succ, hread, List.flatten_cons]
      dsimp only
      rw [if_neg hisNull]
      by_cases hname : d.libraryRva = 0
      · -- nothing is imported, and the summary stays
        have hskip : i.Delivers [d] [] s ⟨s, [.note (.descriptorSkipped rva)], none⟩ :=
          .of_unnamed (by simpa using hname) rfl hs
        obtain rfl : symbols = [] := by
          cases hone with
          | unnamed _ => rfl
          | tableless hnamed => exact absurd hname hnamed
          | table hnamed => exact absurd hname hnamed
        rw [if_pos hname]
        exact hskip.cons (Nat.zero_le _) (ih hrest (by omega) hs)
      · rw [if_neg hname]
        have hrun := delivers_readDescriptor hname hone hs
        by_cases hfull : i.limit - s.imports < symbols.length
        · rw [if_pos (by simp [hrun.fault_eq, hrun.capped_eq, hfull])]
          exact hrun.cons_of_full hfull
        · rw [if_neg (by simp [hrun.fault_eq, hrun.capped_eq, hfull])]
          have hroom : symbols.length ≤ i.limit - s.imports := by omega
          refine hrun.cons hroom (ih hrest (by omega) ?_)
          rw [hrun.summary_eq hroom]
          exact hs

/-- There is fuel for every directory that has an end. -/
theorem Directory.length_lt (h : i.Directory rva ds parts) :
    ds.length < entryLimit descriptorSize := by
  obtain ⟨d, hread, -⟩ := h.descriptors.stop
  obtain ⟨w, hword, -⟩ := except_bind_eq_ok_iff.mp hread
  have hlt : rva + ds.length * descriptorSize < 2 ^ 64 := by
    apply lt_of_read (t := .narrow)
    rw [Thunk.read, hword]
    rfl
  unfold descriptorSize at hlt
  unfold entryLimit descriptorSize UInt64.size
  omega

/-- A walk goes by the directory, whatever its limit. -/
theorem delivers_walk (h : i.Directory rva ds parts) (hs : s.capped = false) :
    i.Delivers ds parts.flatten s (i.walk s rva) := by
  have hrun := delivers_walkFrom h h.length_lt hs
  unfold walk
  dsimp only
  rw [hrun.fault_eq]
  exact ⟨rfl, by simpa using hrun.definitions_eq, hrun.capped_eq, hrun.summary_eq⟩

/-- A walk that ends well and within the limit was over a whole
directory. -/
theorem exists_directory_of_walk (hfault : (i.walk s rva).fault = none)
    (hcapped : (i.walk s rva).summary.capped = false) : ∃ ds parts, i.Directory rva ds parts := by
  unfold walk at hfault hcapped
  dsimp only at hfault hcapped
  cases hloop : (i.walkFrom (entryLimit descriptorSize) rva s []).fault with
  | some e =>
      rw [hloop] at hfault
      exact absurd (hloop.symm.trans hfault) (by simp)
  | none =>
      rw [hloop] at hcapped
      exact exists_directory_of_walkFrom hloop hcapped

/-- What a walk over the whole of a directory leaves. -/
structure Reports (i : Importer) (ds : List ImportDescriptor) (parts : List (List Symbol))
    (r : ImportRun) : Prop where
  definitions_eq : definitions r.steps = parts.flatten
  after_eq : ∀ t : SymbolTable, t.after r.steps = t.defineAll parts.flatten
  imports_eq : r.summary.imports = parts.flatten.length
  descriptors_eq : r.summary.descriptors = (ds.filter (·.libraryRva ≠ 0)).length
  visualBasic_iff : r.summary.visualBasic = true
    ↔ ∃ d ∈ ds, d.libraryRva ≠ 0 ∧ ∃ file, i.libraryOf d = .ok file
        ∧ "msvbvm".toList <:+: (Text.lowerAscii file).toList

/-- A descriptor tells of Visual Basic by the name of its library. -/
theorem meetsVisualBasic_iff :
    i.meetsVisualBasic d = true
      ↔ d.libraryRva ≠ 0 ∧ ∃ file, i.libraryOf d = .ok file
        ∧ "msvbvm".toList <:+: (Text.lowerAscii file).toList := by
  unfold meetsVisualBasic isVisualBasic
  cases i.libraryOf d with
  | error e => simp
  | ok file => simp [Text.contains_iff_infix]

/-- A walk without a cap defines the imports of its directory, each in
its turn, and nothing else: it ends below its limit exactly if there is a
directory with no more symbols than that. -/
theorem walk_defines_directory (i : Importer) (rva : Nat) :
    ((i.walk {} rva).fault = none ∧ (i.walk {} rva).summary.capped = false
        ↔ ∃ ds parts, i.Directory rva ds parts ∧ parts.flatten.length ≤ i.limit)
      ∧ ∀ ds parts, i.Directory rva ds parts → parts.flatten.length ≤ i.limit →
        i.Reports ds parts (i.walk {} rva) := by
  refine ⟨⟨?_, ?_⟩, ?_⟩
  · rintro ⟨hfault, hcapped⟩
    obtain ⟨ds, parts, h⟩ := exists_directory_of_walk hfault hcapped
    refine ⟨ds, parts, h, ?_⟩
    have hrun := delivers_walk (s := {}) h rfl
    rw [hrun.capped_eq] at hcapped
    simpa using hcapped
  · rintro ⟨ds, parts, h, hroom⟩
    have hrun := delivers_walk (s := {}) h rfl
    refine ⟨hrun.fault_eq, ?_⟩
    rw [hrun.capped_eq]
    simpa using hroom
  · intro ds parts h hroom
    have hrun := delivers_walk (s := {}) h rfl
    have hsummary := hrun.summary_eq (by simpa using hroom)
    have hdefinitions : definitions (i.walk {} rva).steps = parts.flatten := by
      rw [hrun.definitions_eq]
      exact List.take_of_length_le (by simpa using hroom)
    refine ⟨hdefinitions, ?_, ?_, ?_, ?_⟩
    · intro t
      rw [SymbolTable.after, hdefinitions]
    · rw [hsummary]
      exact Nat.zero_add _
    · rw [hsummary, List.countP_eq_length_filter]
      exact Nat.zero_add _
    · rw [hsummary, Bool.false_or, List.any_eq_true]
      simp only [meetsVisualBasic_iff]

-- ========================================================= other limits

/-- Another limit on imports, and otherwise the same. -/
def withLimit (i : Importer) (m : UInt64) : Importer :=
  { i with options := { i.options with maxImports := m } }

/-- What a thunk denotes does not depend on the limit. -/
theorem Denotes.withLimit {file text : String} {value : UInt64} (h : i.Denotes file value text)
    (m : UInt64) : (i.withLimit m).Denotes file value text := by
  cases h with
  | named hvalue hname => exact .named hvalue hname
  | known hvalue hordinal hname => exact .known hvalue hordinal hname
  | numbered hvalue hname => exact .numbered hvalue hname

theorem Imports.withLimit (h : i.Imports d symbols) (m : UInt64) :
    (i.withLimit m).Imports d symbols := by
  cases h with
  | unnamed hname => exact .unnamed hname
  | tableless hname hfile htable => exact .tableless hname hfile htable
  | table hname hfile hslots htable hlength hsymbols =>
      refine .table hname hfile hslots htable hlength fun k v x hv hx => ?_
      obtain ⟨hkind, haddress, hmapped, text, htext, hqualifies⟩ := hsymbols k v x hv hx
      exact ⟨hkind, haddress, hmapped, text, htext.withLimit m, hqualifies⟩

/-- What a directory holds has nothing to do with the limit. -/
theorem Directory.withLimit (h : i.Directory rva ds parts) (m : UInt64) :
    (i.withLimit m).Directory rva ds parts where
  descriptors := h.descriptors
  imports := h.imports.imp fun _ _ hone => hone.withLimit m

/-- How a walk with the limit `m` compares to one that ended below its
own limit. -/
structure LimitedRun (m : Nat) (full short : ImportRun) : Prop where
  fault_eq : short.fault = none
  definitions_eq : definitions short.steps = (definitions full.steps).take m
  length_eq : (definitions short.steps).length = min m (definitions full.steps).length
  imports_eq : short.summary.imports = min m (definitions full.steps).length
  capped_iff : short.summary.capped = true ↔ m < (definitions full.steps).length
  summary_eq : (definitions full.steps).length ≤ m → short.summary = full.summary

/-- A lower limit leaves the first imports and a higher one changes
nothing. -/
theorem walk_withLimit (hfault : (i.walk {} rva).fault = none)
    (hcapped : (i.walk {} rva).summary.capped = false) (m : UInt64) :
    LimitedRun m.toNat (i.walk {} rva) ((i.withLimit m).walk {} rva) := by
  obtain ⟨ds, parts, h⟩ := exists_directory_of_walk hfault hcapped
  have hfull := delivers_walk (s := {}) h rfl
  have hshort := delivers_walk (s := {}) (h.withLimit m) rfl
  have hlimit : (i.withLimit m).limit - ({} : ImportSummary).imports = m.toNat := rfl
  rw [hfull.capped_eq, decide_eq_false_iff_not, Nat.not_lt] at hcapped
  have hall : definitions (i.walk {} rva).steps = parts.flatten := by
    rw [hfull.definitions_eq, List.take_of_length_le hcapped]
  have htake : definitions ((i.withLimit m).walk {} rva).steps = parts.flatten.take m.toNat := by
    rw [hshort.definitions_eq, hlimit]
  have hcount := (accounts_walk (i := i.withLimit m) {} rva).count
  rw [htake, List.length_take] at hcount
  refine ⟨hshort.fault_eq, ?_, ?_, ?_, ?_, ?_⟩
  · rw [htake, hall]
  · rw [htake, hall, List.length_take]
  · rw [hcount, hall]
    exact Nat.zero_add _
  · rw [hshort.capped_eq, hlimit, hall, decide_eq_true_eq]
  · intro hroom
    rw [hall] at hroom
    rw [hshort.summary_eq (by rwa [hlimit]), hfull.summary_eq hcapped]
    rfl

-- ============================================================== a sample

/-- A library with two imports behind a lookup table, a descriptor
without a library, and a library whose slots hold its names. -/
def twoLibraries : Importer where
  view :=
    { data :=
        List.toArray <| List.flatten
          [ -- 0x1000: three descriptors and the end of them
            spell 4 0x1050, blank 8, spell 4 0x106C, spell 4 0x105C,
            blank 4, spell 4 1, blank 12,
            blank 12, spell 4 0x1078, spell 4 0x1064,
            blank 20,
            -- 0x1050: lookup table and slots of the first, slots of the other
            spell 4 0x1088, spell 4 0x80000017, blank 4, blank 8,
            spell 4 0x80000100, blank 4,
            -- 0x106C: library names, a hint and a name
            "WS2_32.dll".toUTF8.toList, blank 2, "msvbvm60.dll".toUTF8.toList, blank 4,
            blank 2, "send".toUTF8.toList, blank 1 ]
      segments := [⟨".idata", 0, 0x401000, 0x402000, .empty, samplePage_nonempty⟩]
      base := 0x400000 }
  names := (OrdinalDatabase.empty.insert "ws2_32.dll" 23 "socket").lookup?
  options := .default
  thunk := .narrow

theorem walk_twoLibraries :
    (twoLibraries.walk {} 0x1000).fault = none
      ∧ (twoLibraries.walk {} 0x1000).summary = ⟨2, 3, true, false⟩
      ∧ definitions (twoLibraries.walk {} 0x1000).steps
        = [⟨"ws2_32!send", 0x40105C, .imported⟩, ⟨"ws2_32!socket", 0x401060, .imported⟩,
            ⟨"msvbvm60!ord256", 0x401064, .imported⟩] := by
  decide +kernel

theorem walk_defines_directory_twoLibraries :
    ∃ ds parts, twoLibraries.Directory 0x1000 ds parts
      ∧ twoLibraries.Reports ds parts (twoLibraries.walk {} 0x1000)
      ∧ parts.flatten
        = [⟨"ws2_32!send", 0x40105C, .imported⟩, ⟨"ws2_32!socket", 0x401060, .imported⟩,
            ⟨"msvbvm60!ord256", 0x401064, .imported⟩] := by
  obtain ⟨hfault, hsummary, hdefinitions⟩ := walk_twoLibraries
  obtain ⟨hiff, hreports⟩ := walk_defines_directory twoLibraries 0x1000
  obtain ⟨ds, parts, h, hroom⟩ := hiff.mp ⟨hfault, by rw [hsummary]⟩
  have hrun := hreports ds parts h hroom
  exact ⟨ds, parts, h, hrun, hrun.definitions_eq.symm.trans hdefinitions⟩

/-- With a limit of two, the walk of the sample ends behind its second
import. -/
theorem walk_withLimit_twoLibraries :
    (twoLibraries.walk {} 0x1000).fault = none
      ∧ (twoLibraries.walk {} 0x1000).summary.capped = false
      ∧ LimitedRun 2 (twoLibraries.walk {} 0x1000) ((twoLibraries.withLimit 2).walk {} 0x1000)
      ∧ definitions ((twoLibraries.withLimit 2).walk {} 0x1000).steps
        = [⟨"ws2_32!send", 0x40105C, .imported⟩, ⟨"ws2_32!socket", 0x401060, .imported⟩] := by
  obtain ⟨hfault, hsummary, hdefinitions⟩ := walk_twoLibraries
  have hcapped : (twoLibraries.walk {} 0x1000).summary.capped = false := by rw [hsummary]
  have hlimited := walk_withLimit hfault hcapped 2
  refine ⟨hfault, hcapped, hlimited, ?_⟩
  rw [hlimited.definitions_eq, hdefinitions]
  rfl

end Importer

end Dissect.Pe

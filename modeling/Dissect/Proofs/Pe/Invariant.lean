/-
What holds of every loaded image.

# The invariant

`Session.Sound` collects what users of an image rely on without asking
what the file said: symbols are filed under their own addresses, the
segments resolve every such address, only the three kinds that loading
defines occur, the entry point is there exactly when the headers name
one, and the limits on exports and imports are kept.

# Why it holds

The three stages that define symbols may overwrite each other at an
address, so what is visible is a matter of the last definition. All
parts of the invariant are facts about single definitions, and
overwriting only ever removes symbols: a table shows nothing that was
not defined (`Stages.mem_of_lookup?`), and of each kind no more than its
stage has defined (`Stages.length_ofKind_le`).
-/
import Dissect.Proofs.Pe.Stages

namespace Dissect.Pe

-- ======================================================= kinds and stages

/-- Of symbols that are all of one kind, all or none are of another. -/
theorem filter_kind_of_places {v : View} {k : SymbolKind} {symbols : List Symbol}
    (h : ∀ s ∈ symbols, v.Places k s) (k' : SymbolKind) :
    (symbols.filter fun s => s.kind = k') = if k = k' then symbols else [] := by
  split
  · next hk =>
    refine List.filter_eq_self.mpr fun s hs => ?_
    rw [(h s hs).1, hk]
    exact decide_eq_true rfl
  · next hk =>
    refine List.filter_eq_nil_iff.mpr fun s hs => ?_
    rw [(h s hs).1]
    simpa using hk

namespace Stages

variable {options : LoadOptions} {names : OrdinalNames} {data : Bytes}

/-- The definitions of a kind are those of the stage for it. -/
theorem filter_kind_definitions (st : Stages options names data) (k : SymbolKind) :
    ((definitions st.steps).filter fun s => s.kind = k)
      = (if .entryPoint = k then definitions st.entrySteps else [])
        ++ ((if .exported = k then definitions st.exportSteps else [])
          ++ if .imported = k then definitions st.importSteps else []) := by
  rw [definitions_steps, List.filter_append, List.filter_append,
    filter_kind_of_places st.places_entrySteps, filter_kind_of_places st.places_exportSteps,
    filter_kind_of_places st.places_importSteps]

/-- What an image shows at an address was defined there. -/
theorem mem_of_lookup? (st : Stages options names data) {a : Address} {s : Symbol}
    (h : st.image.symbols.lookup? a = some s) :
    s ∈ definitions st.steps ∧ s.address = a :=
  SymbolTable.lookup?_empty_defineAll h

/-- Of each kind there are no more symbols than definitions. -/
theorem length_ofKind_le (st : Stages options names data) (k : SymbolKind) :
    (st.image.symbols.ofKind k).length
      ≤ ((definitions st.steps).filter fun s => s.kind = k).length :=
  SymbolTable.length_ofKind_defineAll_le (definitions st.steps) k

/-- A symbol of an image is of one of three kinds, at a mapped
address. -/
theorem places_of_lookup? (st : Stages options names data) {a : Address} {s : Symbol}
    (h : st.image.symbols.lookup? a = some s) :
    (s.kind = .entryPoint ∨ s.kind = .exported ∨ s.kind = .imported)
      ∧ ∃ rva, st.view.mappedAddress rva = .ok a := by
  obtain ⟨hmem, rfl⟩ := st.mem_of_lookup? h
  rw [definitions_steps, List.mem_append, List.mem_append] at hmem
  rcases hmem with hs | hs | hs
  · obtain ⟨hkind, hrva⟩ := st.places_entrySteps s hs
    exact ⟨.inl hkind, hrva⟩
  · obtain ⟨hkind, hrva⟩ := st.places_exportSteps s hs
    exact ⟨.inr (.inl hkind), hrva⟩
  · obtain ⟨hkind, hrva⟩ := st.places_importSteps s hs
    exact ⟨.inr (.inr hkind), hrva⟩

/-- There is at most one definition of an entry point. -/
theorem length_entrySteps_le (st : Stages options names data) :
    (definitions st.entrySteps).length ≤ 1 := by
  by_cases h : st.headers.optional.entryRva = 0
  · rw [st.entrySteps_of_zero h]
    exact Nat.zero_le 1
  · obtain ⟨a, -, hdefinitions⟩ := st.definitions_entrySteps h
    rw [hdefinitions]
    exact Nat.le_refl 1

end Stages

-- ============================================================ sessions

namespace Session

/-- A session that loads through all stages holds their image. -/
theorem load_of_stages {session : Session} {data : Bytes}
    (st : Stages session.options session.names data) :
    (session.load data).1 = { session with image := some st.image }
      ∧ (session.load data).2.outcome = .ok () := by
  unfold load
  dsimp only
  rw [Pe.load_eq_ok_iff.mpr ⟨st, rfl⟩]
  exact ⟨rfl, rfl⟩

/-- A load that a session reports as done went through all stages. -/
theorem stages_of_load {session : Session} {data : Bytes}
    (h : (session.load data).2.outcome = .ok ()) :
    Nonempty (Stages session.options session.names data) := by
  unfold load at h
  dsimp only at h
  cases hload : (Pe.load session.options session.names data).outcome with
  | error e =>
      rw [hload] at h
      cases h
  | ok image =>
      obtain ⟨st, -⟩ := Pe.load_eq_ok_iff.mp hload
      exact ⟨st⟩

/-- What holds of a session with these headers and this symbol table. -/
structure Sound (session : Session) (headers : Headers) (table : SymbolTable) : Prop where
  /-- Every symbol is filed under its own address. -/
  placed : ∀ a s, table.lookup? a = some s → s.address = a
  /-- Some segment contains every address that has a symbol. -/
  contained : ∀ a s, table.lookup? a = some s → ∃ segment ∈ session.segments, segment.contains a
  /-- Every address that has a symbol has a file offset. -/
  resolved : ∀ a s, table.lookup? a = some s → ∃ o, session.toImage.offset a = .ok o
  /-- Loading defines three kinds of symbols. -/
  kinds : ∀ a s, table.lookup? a = some s →
    s.kind = .entryPoint ∨ s.kind = .exported ∨ s.kind = .imported
  /-- There is at most one entry point. -/
  entry_unique : (table.ofKind .entryPoint).length ≤ 1
  /-- The symbol of the entry point has its name and its address. -/
  entry_symbol : ∀ s ∈ table.ofKind .entryPoint,
    s.name = entryPointName ∧ session.entryPoint? = some s.address
  /-- There is an entry point exactly when the headers name one. -/
  entry_iff : (∃ e, session.entryPoint? = some e) ↔ headers.optional.entryRva ≠ 0
  /-- Some symbol is visible at the entry point. -/
  entry_visible : ∀ e, session.entryPoint? = some e → ∃ s, table.lookup? e = some s
  /-- The limit on exports is kept. -/
  exports_le : (table.ofKind .exported).length ≤ session.options.maxExports.toNat
  /-- The limit on imports is kept. -/
  imports_le : (table.ofKind .imported).length ≤ session.options.maxImports.toNat

variable {session : Session} {data : Bytes}

/-- The entry point of a session is the address that its entry stage
resolved. -/
theorem entryPoint?_of_mapped (st : Stages session.options session.names data) {a : Address}
    (hne : st.headers.optional.entryRva ≠ 0)
    (ha : st.view.mappedAddress st.headers.optional.entryRva.toNat = .ok a) :
    ({ session with image := some st.image } : Session).entryPoint? = some a := by
  have hsum := (View.mappedAddress_eq_ok_iff.mp ha).1
  show (if st.headers.optional.entryRva = 0 then none
    else sum? st.headers.optional.imageBase st.headers.optional.entryRva.toNat) = some a
  rw [if_neg hne]
  exact hsum

/-- A session without an entry point in its headers has none. -/
theorem entryPoint?_of_zero (st : Stages session.options session.names data)
    (h : st.headers.optional.entryRva = 0) :
    ({ session with image := some st.image } : Session).entryPoint? = none := by
  show (if st.headers.optional.entryRva = 0 then none
    else sum? st.headers.optional.imageBase st.headers.optional.entryRva.toNat) = none
  rw [if_pos h]

/-- A session that holds the image of stages is sound. -/
theorem sound_of_stages (st : Stages session.options session.names data) :
    ({ session with image := some st.image } : Session).Sound st.headers st.image.symbols where
  placed := fun a s h => (st.mem_of_lookup? h).2
  contained := by
    intro a s h
    obtain ⟨-, rva, hrva⟩ := st.places_of_lookup? h
    obtain ⟨-, o, ho⟩ := View.mappedAddress_eq_ok_iff.mp hrva
    exact exists_segment_of_fileOffset? ho
  resolved := by
    intro a s h
    obtain ⟨-, rva, hrva⟩ := st.places_of_lookup? h
    obtain ⟨-, o, ho⟩ := View.mappedAddress_eq_ok_iff.mp hrva
    exact ⟨o, Image.offset_eq_ok_iff.mpr ho⟩
  kinds := fun a s h => (st.places_of_lookup? h).1
  entry_unique := by
    have h := st.length_ofKind_le .entryPoint
    rw [st.filter_kind_definitions] at h
    exact Nat.le_trans h (by simpa using st.length_entrySteps_le)
  entry_symbol := by
    intro s hs
    obtain ⟨hmem, hkind⟩ := List.mem_filter.mp hs
    obtain ⟨a, ha⟩ := SymbolTable.mem_symbols_iff.mp hmem
    have hdefined : s ∈ (definitions st.steps).filter fun s => s.kind = .entryPoint :=
      List.mem_filter.mpr ⟨(st.mem_of_lookup? ha).1, hkind⟩
    rw [st.filter_kind_definitions] at hdefined
    have hentry : s ∈ definitions st.entrySteps := by simpa using hdefined
    by_cases hzero : st.headers.optional.entryRva = 0
    · rw [st.entrySteps_of_zero hzero] at hentry
      simp at hentry
    · obtain ⟨e, he, hdefinitions⟩ := st.definitions_entrySteps hzero
      rw [hdefinitions, List.mem_singleton] at hentry
      subst hentry
      exact ⟨rfl, entryPoint?_of_mapped st hzero he⟩
  entry_iff := by
    by_cases hzero : st.headers.optional.entryRva = 0
    · rw [entryPoint?_of_zero st hzero]
      simp [hzero]
    · obtain ⟨e, he, -⟩ := st.definitions_entrySteps hzero
      exact ⟨fun _ => hzero, fun _ => ⟨e, entryPoint?_of_mapped st hzero he⟩⟩
  entry_visible := by
    intro e h
    by_cases hzero : st.headers.optional.entryRva = 0
    · rw [entryPoint?_of_zero st hzero] at h
      cases h
    · obtain ⟨e', he', hdefinitions⟩ := st.definitions_entrySteps hzero
      rw [entryPoint?_of_mapped st hzero he'] at h
      cases h
      -- An export or an import may have taken the place of the entry
      -- point, but not left it empty.
      rw [← Option.isSome_iff_exists, st.lookup?_image, hdefinitions]
      simp [lastAt?]
  exports_le := by
    have h := st.length_ofKind_le .exported
    rw [st.filter_kind_definitions] at h
    exact Nat.le_trans h (by simpa using st.length_exportSteps_le)
  imports_le := by
    have h := st.length_ofKind_le .imported
    rw [st.filter_kind_definitions] at h
    exact Nat.le_trans h (by simpa using st.length_importSteps_le)

/-- Every image that a session has loaded is sound, whatever the file
held and whatever the session held before. -/
theorem load_sound (session : Session) (data : Bytes)
    (h : (session.load data).2.outcome = .ok ()) :
    (session.load data).1.options = session.options
      ∧ ∃ headers table, (session.load data).1.headers? = some headers
          ∧ (session.load data).1.toImage.symbols = some table
          ∧ (session.load data).1.Sound headers table := by
  obtain ⟨st⟩ := stages_of_load h
  rw [(load_of_stages st).1]
  exact ⟨rfl, st.headers, st.image.symbols, rfl, rfl, sound_of_stages st⟩

theorem load_sound_sample :
    (({} : Session).load sample).2.outcome = .ok ()
      ∧ ∃ headers table, (({} : Session).load sample).1.headers? = some headers
          ∧ (({} : Session).load sample).1.toImage.symbols = some table
          ∧ (({} : Session).load sample).1.Sound headers table := by
  obtain ⟨st⟩ := sample_stages
  have h : (({} : Session).load sample).2.outcome = .ok () := (load_of_stages st).2
  exact ⟨h, (load_sound {} sample h).2⟩

end Session

end Dissect.Pe

/-
Every definition of a load is accounted for among its events.

# Announcements

The walks announce each definition by an event of its own just before
it, and no other event has that message. `Tells` says so of a list of
steps; it holds of an announced definition in front of such steps and of
any other note in front of them, so each loop is an induction over its
one-step equation, whether it ends with an error or not.

# Closing events

A directory walk that comes to its end closes with an event that gives
the number of definitions. The loops count while they go, and the count
is the number of their definitions (`ExportContext.defined_eq`,
`Importer.Accounts.count`).

# The balance

Announcements stand for definitions, and definitions either add a symbol
or replace one (`size_after_add_reported`). So the announcements of a
load are as many as its symbols and its replacements together.
-/
import Dissect.Proofs.Pe.Invariant
import Dissect.Proofs.Trace

namespace Dissect.Pe

-- ========================================================= announcements

/-- The messages that announce or replace a symbol. -/
def announcements : List String := ["Entry point", "Export", "Import", overwrittenMessage]

/-- The messages that close a directory walk. -/
def closings : List String := ["Export directory walked", "Import directory walked"]

theorem not_mem_closings : ∀ m ∈ announcements, m ∉ closings := by decide

/-- The event has one of these messages. -/
def isTelling : Event → Bool
  | .entryPoint _ => true
  | .exportFound _ _ => true
  | .importFound _ _ => true
  | .overwritten _ _ => true
  | .exportsWalked _ _ => true
  | .importsWalked _ _ => true
  | _ => false

/-- An event that tells nothing neither announces nor closes. -/
theorem message_not_mem {e : Event} (h : isTelling e = false) :
    e.message ∉ announcements ∧ e.message ∉ closings := by
  cases e <;>
    simp_all [isTelling, Event.message, announcements, closings, overwrittenMessage]

/-- The steps announce each of their definitions by one message, and
have no other announcement and no closing event. -/
structure Tells (m : String) (steps : List Step) : Prop where
  announced : ∀ m' ∈ announcements,
    reported m' (notesOf steps) = if m' = m then (definitions steps).length else 0
  unclosed : ∀ e ∈ notesOf steps, e.message ∉ closings

namespace Tells

variable {m : String} {steps : List Step} {e : Event} {s : Symbol}

theorem nil : Tells m [] where
  announced := by
    intro m' _
    simp
  unclosed := by simp

/-- A note that is neither an announcement nor a closing event. -/
theorem note (he : isTelling e = false) (h : Tells m steps) : Tells m (.note e :: steps) := by
  have he := message_not_mem he
  constructor
  · intro m' hm'
    have hne : e.message ≠ m' := fun heq => he.1 (heq ▸ hm')
    rw [notesOf_note, reported_cons, if_neg hne, Nat.zero_add, definitions_note]
    exact h.announced m' hm'
  · intro e' he'
    rw [notesOf_note, List.mem_cons] at he'
    rcases he' with rfl | he'
    · exact he.2
    · exact h.unclosed e' he'

/-- A definition behind its announcement. -/
theorem announce (he : e.message = m) (hm : m ∉ closings) (h : Tells m steps) :
    Tells m (.note e :: .define s :: steps) := by
  constructor
  · intro m' hm'
    have hrest := h.announced m' hm'
    rw [notesOf_note, notesOf_define, reported_cons, hrest, he, definitions_note,
      definitions_define, List.length_cons]
    by_cases heq : m' = m
    · rw [if_pos heq, if_pos heq, if_pos heq.symm]
      omega
    · rw [if_neg heq, if_neg heq, if_neg (Ne.symm heq)]
  · intro e' he'
    rw [notesOf_note, notesOf_define, List.mem_cons] at he'
    rcases he' with rfl | he'
    · rw [he]
      exact hm
    · exact h.unclosed e' he'

theorem append {more : List Step} (h : Tells m steps) (hmore : Tells m more) :
    Tells m (steps ++ more) := by
  constructor
  · intro m' hm'
    rw [notesOf_append, reported_append, h.announced m' hm', hmore.announced m' hm',
      definitions_append, List.length_append]
    split
    · rfl
    · rfl
  · intro e' he'
    rw [notesOf_append, List.mem_append] at he'
    rcases he' with he' | he'
    · exact h.unclosed e' he'
    · exact hmore.unclosed e' he'

end Tells

-- ================================================================ loops

/-- The export loop announces its symbols. -/
theorem ExportContext.tells_bindFrom (c : ExportContext) (count index defined : Nat) :
    Tells "Export" (c.bindFrom count index defined []).steps := by
  induction count generalizing index defined with
  | zero => exact .nil
  | succ count ih =>
      rw [bindFrom_succ]
      cases c.header.functionAt c.view index with
      | error e => exact .nil
      | ok rva =>
          rw [Walk.read_ok_bind]
          split
          · exact ih _ _
          · split
            · exact .note rfl (ih _ _)
            · split
              · exact .note rfl .nil
              · cases c.view.mappedAddress rva.toNat with
                | error e => exact .nil
                | ok address => exact .announce rfl (by decide) (ih _ _)

/-- The export loop counts its symbols. -/
theorem ExportContext.defined_eq {c : ExportContext} {count index defined n : Nat}
    (h : (c.bindFrom count index defined []).outcome = .ok n) :
    n = defined + (definitions (c.bindFrom count index defined []).steps).length := by
  induction count generalizing index defined with
  | zero => exact (Except.ok.inj h).symm
  | succ count ih =>
      rw [bindFrom_succ] at h ⊢
      cases hrva : c.header.functionAt c.view index with
      | error e =>
          rw [hrva] at h
          cases h
      | ok rva =>
          rw [hrva, Walk.read_ok_bind] at h
          rw [Walk.read_ok_bind]
          split at h
          · next hzero =>
            rw [if_pos hzero]
            exact ih h
          · next hzero =>
            rw [if_neg hzero]
            split at h
            · next hforward =>
              rw [if_pos hforward]
              exact ih h
            · next hforward =>
              rw [if_neg hforward]
              split at h
              · next hlimit =>
                rw [if_pos hlimit]
                exact (Except.ok.inj h).symm
              · next hlimit =>
                rw [if_neg hlimit]
                cases haddress : c.view.mappedAddress rva.toNat with
                | error e =>
                    rw [haddress] at h
                    cases h
                | ok address =>
                    rw [haddress] at h
                    have hrest := ih h
                    simp only [Walk.read_ok_bind, Walk.note_bind, Walk.define_bind,
                      definitions_note, definitions_define, List.length_cons]
                    omega

namespace Importer

/-- The thunk loop announces its symbols. -/
theorem tells_bindFrom (i : Importer) (library : String) (names slots fuel index : Nat)
    (s : ImportSummary) :
    Tells "Import" (i.bindFrom library names slots fuel index s []).steps := by
  induction fuel generalizing index s with
  | zero => exact .nil
  | succ fuel ih =>
      rw [bindFrom_succ]
      split
      · exact .nil
      · split
        · exact .nil
        · split
          · exact .note rfl .nil
          · split
            · exact .nil
            · exact .announce rfl (by decide) (ih _ _)

/-- Every import of a descriptor is announced by an event of its own. -/
theorem tells_readDescriptor (i : Importer) (s : ImportSummary) (d : ImportDescriptor) :
    Tells "Import" (i.readDescriptor s d).steps := by
  unfold readDescriptor
  split
  · exact .nil
  · dsimp only
    split
    · exact .nil
    · split
      · exact .nil
      · exact i.tells_bindFrom _ _ _ _ _ _

/-- Every import of the descriptors from an address on is announced by
an event of its own. -/
theorem tells_walkFrom (i : Importer) (fuel rva : Nat) (s : ImportSummary) :
    Tells "Import" (i.walkFrom fuel rva s []).steps := by
  induction fuel generalizing rva s with
  | zero => exact .nil
  | succ fuel ih =>
      rw [walkFrom_succ]
      split
      · exact .nil
      · split
        · exact .nil
        · split
          · exact .note rfl (ih _ _)
          · dsimp only
            split
            · exact i.tells_readDescriptor _ _
            · exact (i.tells_readDescriptor _ _).append (ih _ _)

end Importer

-- ================================================================ stages

/-- The steps announce each of their definitions by one message, and
every closing event among them gives the number of definitions. -/
structure Recounts (m : String) (closes : Nat → Event → Prop) (steps : List Step) : Prop where
  announced : ∀ m' ∈ announcements,
    reported m' (notesOf steps) = if m' = m then (definitions steps).length else 0
  closed : ∀ e ∈ notesOf steps, e.message ∈ closings → closes (definitions steps).length e

/-- The event closes a walk of so many exports. -/
def ClosesExports (n : Nat) (e : Event) : Prop := ∃ library, e = .exportsWalked library n

/-- The event closes a walk of so many imports. -/
def ClosesImports (n : Nat) (e : Event) : Prop := ∃ descriptors, e = .importsWalked descriptors n

namespace Recounts

variable {m : String} {closes : Nat → Event → Prop} {steps : List Step}

theorem of_tells (h : Tells m steps) : Recounts m closes steps :=
  ⟨h.announced, fun e he hclosing => absurd hclosing (h.unclosed e he)⟩

/-- Steps that tell their definitions, and a closing event. -/
theorem of_tells_closed {e : Event} (h : Tells m steps) (he : e.message ∈ closings)
    (hcloses : closes (definitions steps).length e) :
    Recounts m closes (steps ++ [.note e]) := by
  constructor
  · intro m' hm'
    have hne : e.message ≠ m' := fun heq => not_mem_closings m' hm' (heq ▸ he)
    rw [notesOf_append, reported_append, h.announced m' hm', notesOf_note, reported_cons,
      if_neg hne]
    simp
  · intro e' he' hclosing
    rw [notesOf_append, List.mem_append] at he'
    rcases he' with he' | he'
    · exact absurd hclosing (h.unclosed e' he')
    · rw [notesOf_note, notesOf_nil, List.mem_singleton] at he'
      subst he'
      simpa using hcloses

end Recounts

/-- The closing event of the exports gives the number of definitions
before it. -/
theorem recounts_walkExports (v : View) (directory : DataDirectory) (options : LoadOptions) :
    Recounts "Export" ClosesExports (walkExports v directory options).steps := by
  rw [walkExports_eq]
  cases readContext v directory options with
  | error e => exact .of_tells .nil
  | ok c =>
      rw [Walk.read_ok_bind]
      have htells := c.tells_bindFrom c.header.functionCount.toNat 0 0
      cases hloop : (c.bindFrom c.header.functionCount.toNat 0 0 []).outcome with
      | error e =>
          rw [Walk.bind_of_error hloop]
          exact .of_tells htells
      | ok n =>
          have hcount := ExportContext.defined_eq hloop
          rw [Nat.zero_add] at hcount
          rw [Walk.bind_of_ok hloop]
          exact .of_tells_closed htells (.head _) ⟨c.library, by rw [hcount]⟩

/-- The closing event of the imports gives the number of definitions
before it. -/
theorem Importer.recounts_walk (i : Importer) (rva : Nat) :
    Recounts "Import" ClosesImports (i.walk {} rva).steps := by
  have htells := i.tells_walkFrom (entryLimit descriptorSize) rva {}
  have haccounts := accounts_walkFrom (i := i) (entryLimit descriptorSize) rva {}
  unfold walk
  dsimp only
  split
  · exact .of_tells htells
  · have hcount := haccounts.count
    rw [Nat.zero_add] at hcount
    exact .of_tells_closed htells (.tail _ (.head _)) ⟨_, by rw [hcount]⟩

namespace Stages

variable {options : LoadOptions} {names : OrdinalNames} {data : Bytes}

/-- The entry point is announced where it is defined. -/
theorem tells_entrySteps (st : Stages options names data) :
    Tells "Entry point" st.entrySteps := by
  unfold entrySteps walkEntryPoint
  split
  · exact .nil
  · cases st.view.mappedAddress st.headers.optional.entryRva.toNat with
    | error e => exact .nil
    | ok a => exact .announce rfl (by decide) .nil

theorem recounts_exportSteps (st : Stages options names data) :
    Recounts "Export" ClosesExports st.exportSteps := by
  unfold exportSteps walkExportsIfPresent
  dsimp only
  split
  · have h := recounts_walkExports st.view (st.headers.directory exportDirectory) options
    cases hwalk :
        (walkExports st.view (st.headers.directory exportDirectory) options).outcome with
    | error e =>
        rw [Walk.bind_of_error hwalk]
        exact h
    | ok n =>
        rw [Walk.bind_of_ok hwalk]
        simpa using h
  · exact .of_tells .nil

theorem recounts_importSteps (st : Stages options names data) :
    Recounts "Import" ClosesImports st.importSteps := by
  unfold importSteps walkImportsIfPresent
  dsimp only
  split
  · have h := Importer.recounts_walk ⟨st.view, names, options, thunkOf st.headers⟩
      (st.headers.directory importDirectory).rva.toNat
    rw [← ImportRun.toWalk_steps] at h
    generalize ImportRun.toWalk _ = walk at h ⊢
    cases hwalk : walk.outcome with
    | error e =>
        rw [Walk.bind_of_error hwalk]
        exact h
    | ok n =>
        rw [Walk.bind_of_ok hwalk]
        simpa using h
  · exact .of_tells .nil

/-- Events about sections announce no symbol. -/
theorem tells_sectionNotes (st : Stages options names data) (m : String) :
    Tells m (st.sectionNotes.map .note) := by
  unfold sectionNotes skipped
  rw [List.map_append]
  refine .append ?_ (.note rfl .nil)
  induction st.sections.filter fun s => s.isEmptyAt st.headers.optional.imageBase with
  | nil => exact .nil
  | cons s rest ih => exact .note rfl ih

/-- Each stage announces its own definitions. -/
theorem reported_steps (st : Stages options names data) {m : String} (hm : m ∈ announcements) :
    reported m (notesOf st.steps)
      = (if m = "Entry point" then (definitions st.entrySteps).length else 0)
        + ((if m = "Export" then (definitions st.exportSteps).length else 0)
          + if m = "Import" then (definitions st.importSteps).length else 0) := by
  have hsections := (st.tells_sectionNotes m).announced m hm
  rw [definitions_notes, List.length_nil, ite_self] at hsections
  unfold steps
  rw [notesOf_append, notesOf_append, notesOf_append, reported_append, reported_append,
    reported_append, hsections, st.tells_entrySteps.announced m hm,
    st.recounts_exportSteps.announced m hm, st.recounts_importSteps.announced m hm,
    Nat.zero_add]

/-- A closing event is that of the exports or that of the imports. -/
theorem closed_steps (st : Stages options names data) {e : Event} (he : e ∈ notesOf st.steps)
    (hclosing : e.message ∈ closings) :
    ClosesExports (definitions st.exportSteps).length e
      ∨ ClosesImports (definitions st.importSteps).length e := by
  unfold steps at he
  rw [notesOf_append, notesOf_append, notesOf_append, List.mem_append, List.mem_append,
    List.mem_append] at he
  rcases he with he | he | he | he
  · exact absurd hclosing ((st.tells_sectionNotes "").unclosed e he)
  · exact absurd hclosing (st.tells_entrySteps.unclosed e he)
  · exact .inl (st.recounts_exportSteps.closed e he hclosing)
  · exact .inr (st.recounts_importSteps.closed e he hclosing)

-- ================================================================ events

/-- The events of a load: its start, those of the steps, and the
report. -/
theorem events_load (st : Stages options names data) :
    (load options names data).events
      = .loading data.size :: (eventsFrom .empty st.steps ++ [st.image.report]) := by
  rw [load, st.walkImage_eq]
  rfl

/-- The first and the last event of a load announce and close nothing. -/
theorem reported_load (st : Stages options names data) {m : String}
    (hm : m ∈ announcements) :
    reported m (load options names data).events
      = reported m (eventsFrom .empty st.steps) := by
  have hfirst : (Event.loading data.size).message ≠ m :=
    fun heq => (message_not_mem rfl).1 (heq ▸ hm)
  have hlast : st.image.report.message ≠ m := fun heq => (message_not_mem rfl).1 (heq ▸ hm)
  rw [st.events_load, reported_cons, if_neg hfirst, reported_append, reported_cons,
    if_neg hlast, reported_nil, Nat.zero_add, Nat.zero_add, Nat.add_zero]

/-- The announcements of a load are those of its stages. -/
theorem reported_of_ne (st : Stages options names data) {m : String} (hm : m ∈ announcements)
    (hne : m ≠ overwrittenMessage) :
    reported m (load options names data).events
      = (if m = "Entry point" then (definitions st.entrySteps).length else 0)
        + ((if m = "Export" then (definitions st.exportSteps).length else 0)
          + if m = "Import" then (definitions st.importSteps).length else 0) := by
  rw [st.reported_load hm, reported_eventsFrom hne, st.reported_steps hm]

/-- An event that closes a walk is a note of a step, not one that a
definition leaves. -/
theorem mem_notesOf_of_closing (st : Stages options names data) {e : Event}
    (he : e ∈ (load options names data).events) (hclosing : e.message ∈ closings) :
    e ∈ notesOf st.steps := by
  rw [st.events_load, List.mem_cons, List.mem_append, List.mem_singleton] at he
  rcases he with rfl | he | rfl
  · exact absurd hclosing (message_not_mem rfl).2
  · rcases mem_eventsFrom he with he | he
    · exact he
    · rw [he] at hclosing
      exact absurd hclosing (not_mem_closings _ (by decide))
  · exact absurd hclosing (message_not_mem rfl).2

end Stages

/-- Events that account for every definition of a table: announcements
are as many as symbols and replacements together, and the events that
close a walk agree with the announcements. -/
structure Balanced (events : List Event) (table : SymbolTable) : Prop where
  conserved :
    reported "Entry point" events + reported "Export" events + reported "Import" events
      = table.size + reported "Symbol overwritten" events
  imports_walked : ∀ e ∈ events, e.message = "Import directory walked" →
    ∃ descriptors, e = .importsWalked descriptors (reported "Import" events)
  exports_walked : ∀ e ∈ events, e.message = "Export directory walked" →
    ∃ library, e = .exportsWalked library (reported "Export" events)

/-- The events of each stage account for its definitions, and the stages
for the load. -/
theorem Stages.balanced {options : LoadOptions} {names : OrdinalNames} {data : Bytes}
    (st : Stages options names data) :
    Balanced (load options names data).events st.image.symbols := by
  have hentry := st.reported_of_ne (m := "Entry point") (by decide) (by decide)
  have hexport := st.reported_of_ne (m := "Export") (by decide) (by decide)
  have himport := st.reported_of_ne (m := "Import") (by decide) (by decide)
  simp only [String.reduceEq, if_true, if_false, Nat.add_zero, Nat.zero_add]
    at hentry hexport himport
  constructor
  · have hbalance := size_after_add_reported .empty st.steps
    have hnone : reported overwrittenMessage (notesOf st.steps) = 0 := by
      rw [st.reported_steps (by decide)]
      rfl
    have hempty : SymbolTable.empty.size = 0 := rfl
    rw [definitions_steps, List.length_append, List.length_append, hnone, hempty] at hbalance
    rw [hentry, hexport, himport, st.reported_load (by decide)]
    show _ = (SymbolTable.empty.after st.steps).size
      + reported overwrittenMessage (eventsFrom .empty st.steps)
    omega
  · intro e he hmessage
    have hclosing : e.message ∈ closings := by
      rw [hmessage]
      decide
    rw [himport]
    rcases st.closed_steps (st.mem_notesOf_of_closing he hclosing) hclosing with h | h
    · obtain ⟨library, rfl⟩ := h
      simp [Event.message] at hmessage
    · exact h
  · intro e he hmessage
    have hclosing : e.message ∈ closings := by
      rw [hmessage]
      decide
    rw [hexport]
    rcases st.closed_steps (st.mem_notesOf_of_closing he hclosing) hclosing with h | h
    · exact h
    · obtain ⟨descriptors, rfl⟩ := h
      simp [Event.message] at hmessage

/-- A session reports what the load has reported. -/
theorem Session.events_load (session : Session) (data : Bytes) :
    (session.load data).2.events = (Pe.load session.options session.names data).events := by
  unfold Session.load
  dsimp only
  split
  · rfl
  · rfl

/-- The events of every load that succeeds account for every definition
it made. -/
theorem Session.load_balanced (session : Session) (data : Bytes)
    (h : (session.load data).2.outcome = .ok ()) :
    ∃ table, (session.load data).1.toImage.symbols = some table
      ∧ Balanced (session.load data).2.events table := by
  obtain ⟨st⟩ := stages_of_load h
  rw [(load_of_stages st).1, session.events_load]
  exact ⟨st.image.symbols, rfl, st.balanced⟩

theorem Session.load_balanced_sample :
    (({} : Session).load sample).2.outcome = .ok ()
      ∧ ∃ table, (({} : Session).load sample).1.toImage.symbols = some table
          ∧ Balanced (({} : Session).load sample).2.events table := by
  obtain ⟨st⟩ := sample_stages
  have h : (({} : Session).load sample).2.outcome = .ok () := (load_of_stages st).2
  exact ⟨h, load_balanced {} sample h⟩

end Dissect.Pe

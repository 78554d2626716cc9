/-
What the events of a run of steps say about its table.

A definition either adds a symbol to the table or takes the place of
one, and only the latter is reported. So over any steps the size of the
table and the number of reported replacements together grow by the
number of definitions (`size_after_add_reported`), whatever the steps
are about. All other events of a run are the notes among its steps
(`mem_eventsFrom`, `reported_eventsFrom`).
-/
import Dissect.Proofs.Walk

namespace Dissect

-- =============================================================== counting

/-- How many events have a message. -/
def reported (message : String) (events : List Event) : Nat :=
  events.countP fun e => e.message = message

@[simp] theorem reported_nil (m : String) : reported m [] = 0 := rfl

@[simp] theorem reported_append (m : String) (xs ys : List Event) :
    reported m (xs ++ ys) = reported m xs + reported m ys :=
  List.countP_append

/-- The first event counts if it has the message. -/
theorem reported_cons (m : String) (e : Event) (rest : List Event) :
    reported m (e :: rest) = (if e.message = m then 1 else 0) + reported m rest := by
  unfold reported
  rw [List.countP_cons, Nat.add_comm]
  congr 1
  by_cases h : e.message = m
  · simp [h]
  · simp [h]

/-- A message is not reported if no event has it. -/
theorem reported_eq_zero_iff {m : String} {events : List Event} :
    reported m events = 0 ↔ ∀ e ∈ events, e.message ≠ m := by
  unfold reported
  rw [List.countP_eq_zero]
  simp

/-- The event of a note. -/
def Step.event? : Step → Option Event
  | .note e => some e
  | .define _ => none

/-- The notes among steps. -/
def notesOf (steps : List Step) : List Event := steps.filterMap Step.event?

@[simp] theorem notesOf_nil : notesOf [] = [] := rfl

@[simp] theorem notesOf_note (e : Event) (rest : List Step) :
    notesOf (.note e :: rest) = e :: notesOf rest := rfl

@[simp] theorem notesOf_define (s : Symbol) (rest : List Step) :
    notesOf (.define s :: rest) = notesOf rest := rfl

@[simp] theorem notesOf_append (xs ys : List Step) :
    notesOf (xs ++ ys) = notesOf xs ++ notesOf ys :=
  List.filterMap_append

-- =========================================================== replacements

/-- What is reported when a definition replaces another. -/
def overwrittenMessage : String := "Symbol overwritten"

/-- A definition leaves no other event than the one about what it
replaces. -/
theorem message_of_mem_overwriting {t : SymbolTable} {s : Symbol} {e : Event}
    (h : e ∈ t.overwriting s) : e.message = overwrittenMessage := by
  unfold SymbolTable.overwriting at h
  split at h
  · rw [List.mem_singleton.mp h]
    rfl
  · cases h

/-- An event of a run is a note of its steps or a replacement. -/
theorem mem_eventsFrom {t : SymbolTable} {steps : List Step} {e : Event}
    (h : e ∈ eventsFrom t steps) : e ∈ notesOf steps ∨ e.message = overwrittenMessage := by
  induction steps generalizing t with
  | nil => cases h
  | cons step rest ih =>
      cases step with
      | note e' =>
          rw [eventsFrom_note, List.mem_cons] at h
          rw [notesOf_note, List.mem_cons]
          rcases h with rfl | h
          · exact .inl (.inl rfl)
          · exact (ih h).imp_left .inr
      | define s =>
          rw [eventsFrom_define, List.mem_append] at h
          rcases h with h | h
          · exact .inr (message_of_mem_overwriting h)
          · exact ih h

/-- Of every other message the events of a run are the notes of its
steps. -/
theorem reported_eventsFrom {m : String} (hm : m ≠ overwrittenMessage) (t : SymbolTable)
    (steps : List Step) : reported m (eventsFrom t steps) = reported m (notesOf steps) := by
  induction steps generalizing t with
  | nil => rfl
  | cons step rest ih =>
      cases step with
      | note e => rw [eventsFrom_note, notesOf_note, reported_cons, reported_cons, ih]
      | define s =>
          have hnone : reported m (t.overwriting s) = 0 := by
            rw [reported_eq_zero_iff]
            intro e he
            rw [message_of_mem_overwriting he]
            exact hm.symm
          rw [eventsFrom_define, notesOf_define, reported_append, hnone, ih, Nat.zero_add]

-- ============================================================ the balance

/-- A definition adds a symbol or replaces one. -/
theorem size_define_add_reported (t : SymbolTable) (s : Symbol) :
    (t.define s).size + reported overwrittenMessage (t.overwriting s) = t.size + 1 := by
  unfold SymbolTable.size SymbolTable.define SymbolTable.overwriting SymbolTable.lookup?
  rw [Std.ExtTreeMap.size_insert, Std.ExtTreeMap.contains_eq_isSome_getElem?]
  cases t.entries[s.address]? with
  | none => rfl
  | some old => rfl

/-- Over any steps, what the table and the replacements have gained is
what was defined. -/
theorem size_after_add_reported (t : SymbolTable) (steps : List Step) :
    (t.after steps).size + reported overwrittenMessage (eventsFrom t steps)
      = t.size + (definitions steps).length + reported overwrittenMessage (notesOf steps) := by
  induction steps generalizing t with
  | nil => rfl
  | cons step rest ih =>
      cases step with
      | note e =>
          have hrest := ih t
          rw [show t.after (.note e :: rest) = t.after rest from rfl]
          simp only [eventsFrom_note, definitions_note, notesOf_note, reported_cons]
          omega
      | define s =>
          have hone := size_define_add_reported t s
          have hrest := ih (t.define s)
          rw [show t.after (.define s :: rest) = (t.define s).after rest from rfl]
          simp only [eventsFrom_define, definitions_define, notesOf_define, reported_append,
            List.length_cons]
          omega

end Dissect

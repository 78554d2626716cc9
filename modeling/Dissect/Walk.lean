/-
Walks over the structures of an image.

# Steps

A walk reads structures and leaves behind steps: notes of what it met
and symbols to define. The steps of a walk depend on the image and
never on the symbols defined so far, so two walks can be put one after
the other and the table they leave is that of their steps one after the
other. An error ends a walk and keeps the steps before it.

# Effects of steps

`SymbolTable.after` is the table that steps leave, `eventsFrom` what is
reported meanwhile: the notes, and every symbol that took the place of
another.
-/
import Dissect.Event

namespace Dissect

/-- One thing a walk leaves behind. -/
inductive Step where
  | note (e : Event)
  | define (s : Symbol)
  deriving DecidableEq, Repr

/-- The symbol a step defines. -/
def Step.symbol? : Step → Option Symbol
  | .note _ => none
  | .define s => some s

/-- The symbols that steps define, in order. -/
def definitions (steps : List Step) : List Symbol := steps.filterMap Step.symbol?

/-- The table that steps leave. -/
def SymbolTable.after (t : SymbolTable) (steps : List Step) : SymbolTable :=
  t.defineAll (definitions steps)

/-- One step on a table and on what was reported before, the last event
first. -/
def takeStep (p : SymbolTable × List Event) : Step → SymbolTable × List Event
  | .note e => (p.1, e :: p.2)
  | .define s => (p.1.define s, (p.1.overwriting s).reverse ++ p.2)

/-- What is reported while steps take effect on a table. -/
def eventsFrom (t : SymbolTable) (steps : List Step) : List Event :=
  (steps.foldl takeStep (t, [])).2.reverse

-- ================================================================= laws

/-- Steps one after the other define their symbols one after the other. -/
@[simp] theorem definitions_append (xs ys : List Step) :
    definitions (xs ++ ys) = definitions xs ++ definitions ys :=
  List.filterMap_append

/-- Steps put their events before what was reported already. -/
theorem foldl_takeStep_snd (t : SymbolTable) (done : List Event) (steps : List Step) :
    (steps.foldl takeStep (t, done)).2 = (eventsFrom t steps).reverse ++ done := by
  unfold eventsFrom
  rw [List.reverse_reverse]
  induction steps generalizing t done with
  | nil => rfl
  | cons x rest ih =>
    cases x with
    | note e =>
      rw [List.foldl_cons, List.foldl_cons, takeStep, takeStep, ih, ih t [e]]
      simp
    | define s =>
      rw [List.foldl_cons, List.foldl_cons, takeStep, takeStep, ih, ih _ (_ ++ [])]
      simp

/-- Without a step nothing is reported. -/
@[simp] theorem eventsFrom_nil (t : SymbolTable) : eventsFrom t [] = [] := rfl

/-- A note is reported. -/
@[simp] theorem eventsFrom_note (t : SymbolTable) (e : Event) (rest : List Step) :
    eventsFrom t (.note e :: rest) = e :: eventsFrom t rest := by
  rw [eventsFrom, List.foldl_cons, takeStep, foldl_takeStep_snd]
  simp

/-- A definition is reported if it takes the place of another. -/
@[simp] theorem eventsFrom_define (t : SymbolTable) (s : Symbol) (rest : List Step) :
    eventsFrom t (.define s :: rest) = t.overwriting s ++ eventsFrom (t.define s) rest := by
  rw [eventsFrom, List.foldl_cons, takeStep, foldl_takeStep_snd]
  simp

-- ================================================================ walks

/-- A walk: the steps it leaves, and what it comes to. -/
structure Walk (α : Type) where
  steps : List Step
  outcome : Except ImageError α

namespace Walk

variable {α β : Type}

/-- A walk that does nothing. -/
def done (a : α) : Walk α := ⟨[], .ok a⟩

/-- Go on with a walk that depends on what the first comes to; an error
ends it. -/
def andThen (w : Walk α) (next : α → Walk β) : Walk β :=
  match w.outcome with
  | .error e => ⟨w.steps, .error e⟩
  | .ok a => ⟨w.steps ++ (next a).steps, (next a).outcome⟩

instance : Monad Walk where
  pure := done
  bind := andThen

/-- Leave a note. -/
def note (e : Event) : Walk Unit := ⟨[.note e], .ok ()⟩

/-- Leave notes. -/
def notes (es : List Event) : Walk Unit := ⟨es.map .note, .ok ()⟩

/-- Define a symbol. -/
def define (s : Symbol) : Walk Unit := ⟨[.define s], .ok ()⟩

/-- Something read, or the error that reading it met. -/
def read (result : Except ImageError α) : Walk α := ⟨[], result⟩

/-- End with an error. -/
def fail (e : ImageError) : Walk α := ⟨[], .error e⟩

end Walk

end Dissect

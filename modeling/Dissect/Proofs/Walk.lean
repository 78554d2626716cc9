/-
Laws of walks.

# Inversion

A walk that goes on from another comes to something only if both parts
do, and its steps are those of the two parts in order (`bind_of_ok`,
`bind_eq_ok_iff`). Proofs about a walk take it apart with these and
never open the monad.

# Reads

`Walk.read` is a homomorphism: a chain of reads is the walk of the
chain (`read_bind`), so a reader may be taken apart before or after it
becomes a walk.
-/
import Dissect.Walk

namespace Dissect

/-- A chain answers only if each of its parts does. -/
theorem except_bind_eq_ok_iff {ε α β : Type} {r : Except ε α} {next : α → Except ε β} {b : β} :
    r >>= next = .ok b ↔ ∃ a, r = .ok a ∧ next a = .ok b := by
  cases r with
  | error e => simp [bind, Except.bind]
  | ok a => simp [bind, Except.bind]

-- ================================================================ steps

/-- Notes define nothing. -/
@[simp] theorem definitions_notes (es : List Event) :
    definitions (es.map Step.note) = [] := by
  induction es with
  | nil => rfl
  | cons e rest ih => exact ih

@[simp] theorem definitions_nil : definitions [] = [] := rfl

@[simp] theorem definitions_note (e : Event) (rest : List Step) :
    definitions (.note e :: rest) = definitions rest := rfl

@[simp] theorem definitions_define (s : Symbol) (rest : List Step) :
    definitions (.define s :: rest) = s :: definitions rest := rfl

namespace Walk

variable {α β : Type}

-- ================================================================ binds

@[simp] theorem pure_eq (a : α) : (pure a : Walk α) = ⟨[], .ok a⟩ := rfl

/-- A walk that comes to something goes on with it. -/
theorem bind_of_ok {w : Walk α} {a : α} (h : w.outcome = .ok a) (next : α → Walk β) :
    w >>= next = ⟨w.steps ++ (next a).steps, (next a).outcome⟩ := by
  show w.andThen next = _
  unfold andThen
  rw [h]

/-- An error ends a walk. -/
theorem bind_of_error {w : Walk α} {e : ImageError} (h : w.outcome = .error e)
    (next : α → Walk β) : w >>= next = ⟨w.steps, .error e⟩ := by
  show w.andThen next = _
  unfold andThen
  rw [h]

/-- A walk comes to something only if every part of it does. -/
theorem bind_eq_ok_iff {w : Walk α} {next : α → Walk β} {b : β} :
    (w >>= next).outcome = .ok b
      ↔ ∃ a, w.outcome = .ok a ∧ (next a).outcome = .ok b := by
  cases h : w.outcome with
  | error e =>
      rw [bind_of_error h]
      simp
  | ok a =>
      rw [bind_of_ok h]
      simp

/-- A note comes before what follows it. -/
@[simp] theorem note_bind (e : Event) (next : Unit → Walk β) :
    note e >>= next = ⟨.note e :: (next ()).steps, (next ()).outcome⟩ := rfl

/-- Notes come before what follows them. -/
@[simp] theorem notes_bind (es : List Event) (next : Unit → Walk β) :
    notes es >>= next = ⟨es.map .note ++ (next ()).steps, (next ()).outcome⟩ := rfl

/-- A definition comes before what follows it. -/
@[simp] theorem define_bind (s : Symbol) (next : Unit → Walk β) :
    define s >>= next = ⟨.define s :: (next ()).steps, (next ()).outcome⟩ := rfl

-- ================================================================ reads

/-- Something read is what the walk goes on with. -/
@[simp] theorem read_ok_bind (a : α) (next : α → Walk β) : read (.ok a) >>= next = next a := rfl

/-- A read that fails ends the walk. -/
@[simp] theorem read_error_bind (e : ImageError) (next : α → Walk β) :
    read (.error e) >>= next = ⟨[], .error e⟩ := rfl

/-- A chain of reads is the walk of the chain. -/
theorem read_bind (r : Except ImageError α) (next : α → Except ImageError β) :
    read (r >>= next) = read r >>= fun a => read (next a) := by
  cases r with
  | error e => rfl
  | ok a => rfl

/-- Walks one after the other may be grouped either way. -/
theorem bind_assoc {γ : Type} (w : Walk α) (f : α → Walk β) (g : β → Walk γ) :
    w >>= f >>= g = w >>= fun a => f a >>= g := by
  cases h : w.outcome with
  | error e =>
      rw [bind_of_error h, bind_of_error h]
      rfl
  | ok a =>
      rw [bind_of_ok h, bind_of_ok h]
      cases hf : (f a).outcome with
      | error e => rw [bind_of_error hf, bind_of_error rfl]
      | ok b =>
          rw [bind_of_ok hf, bind_of_ok rfl]
          simp

end Walk

end Dissect

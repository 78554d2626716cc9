/-
Walks whose arithmetic may fault.

# Words

The loader computes positions with natural numbers, which never end. A
machine computes them with 64-bit words: a sum or a product that is no
word, a difference below zero and a cut outside its bytes are faults.
`Guarded` is a walk that ends at the first fault, and the operations
here are the ones that can have it.

# Agreement

A guarded walk that never faults is `.within` of an ordinary one. An
operation in range does nothing but give its result (`add_bind`,
`mul_bind`, `sub_bind`, `cut_bind`), and walks are compared part by part
(`within_bind`, `read_bind`): what comes next need only agree on what
the first part really came to.
-/
import Dissect.Bytes
import Dissect.Proofs.Walk
import Mathlib.Algebra.Group.Nat.Defs

namespace Dissect.Pe.Bounded

-- =============================================================== guarded

/-- How an operation leaves its range. -/
inductive Fault where
  /-- A sum or a product that is no word. -/
  | overflow
  /-- A difference below zero. -/
  | underflow
  /-- A cut outside the bytes it is made in. -/
  | outOfRange
  deriving DecidableEq, Repr

/-- A walk that ends at the first fault. -/
inductive Guarded (α : Type) where
  | fault (f : Fault)
  | within (w : Walk α)

variable {α β : Type}

namespace Guarded

/-- Go on with a guarded walk that depends on what the first comes to; an
error ends it, and a fault is all that is left of it. -/
def andThen (g : Guarded α) (next : α → Guarded β) : Guarded β :=
  match g with
  | .fault f => .fault f
  | .within w =>
    match w.outcome with
    | .error e => .within ⟨w.steps, .error e⟩
    | .ok a =>
      match next a with
      | .fault f => .fault f
      | .within w' => .within ⟨w.steps ++ w'.steps, w'.outcome⟩

instance : Monad Guarded where
  pure a := .within (pure a)
  bind := andThen

end Guarded

-- ============================================================ operations

/-- The sum of two words. -/
def add (a b : Nat) : Guarded Nat :=
  if a + b < 2 ^ 64 then pure (a + b) else .fault .overflow

/-- The product of two words. -/
def mul (a b : Nat) : Guarded Nat :=
  if a * b < 2 ^ 64 then pure (a * b) else .fault .overflow

/-- The difference of two words. -/
def sub (a b : Nat) : Guarded Nat :=
  if b ≤ a then pure (a - b) else .fault .underflow

/-- The bytes from `start` up to `stop`. -/
def cut (data : Bytes) (start stop : Nat) : Guarded Bytes :=
  if start ≤ stop ∧ stop ≤ data.size then pure (data.extract start stop)
  else .fault .outOfRange

/-- The position of an entry of a table. -/
def entryAt (table index width : Nat) : Guarded Nat := do
  let distance ← mul index width
  add table distance

/-- Something read without arithmetic. -/
def read (r : Except ImageError α) : Guarded α := .within (.read r)

/-- The walk ends in an error. -/
def fail (e : ImageError) : Guarded α := read (.error e)

/-- An event, without arithmetic. -/
def note (e : Event) : Guarded Unit := .within (.note e)

/-- Events in a row, without arithmetic. -/
def notes (es : List Event) : Guarded Unit := .within (.notes es)

/-- A definition, without arithmetic. -/
def define (s : Symbol) : Guarded Unit := .within (.define s)

-- =============================================================== in range

/-- A result is handed on as it is. -/
@[simp] theorem pure_bind (a : α) (next : α → Guarded β) : pure a >>= next = next a := by
  show Guarded.andThen (.within ⟨[], .ok a⟩) next = next a
  dsimp only [Guarded.andThen]
  cases next a with
  | fault f => rfl
  | within w => rfl

/-- A sum that is a word is its result. -/
theorem add_eq {a b : Nat} (h : a + b < 2 ^ 64) : add a b = pure (a + b) := if_pos h

theorem mul_eq {a b : Nat} (h : a * b < 2 ^ 64) : mul a b = pure (a * b) := if_pos h

theorem sub_eq {a b : Nat} (h : b ≤ a) : sub a b = pure (a - b) := if_pos h

/-- A cut inside the bytes is the part of them. -/
theorem cut_eq {data : Bytes} {start stop : Nat} (hstart : start ≤ stop)
    (hstop : stop ≤ data.size) : cut data start stop = pure (data.extract start stop) :=
  if_pos ⟨hstart, hstop⟩

/-- A sum that is a word is handed on. -/
theorem add_bind {a b : Nat} (h : a + b < 2 ^ 64) (next : Nat → Guarded β) :
    add a b >>= next = next (a + b) := by
  rw [add_eq h, pure_bind]

/-- A difference that is not below zero is handed on. -/
theorem sub_bind {a b : Nat} (h : b ≤ a) (next : Nat → Guarded β) :
    sub a b >>= next = next (a - b) := by
  rw [sub_eq h, pure_bind]

/-- A cut inside the bytes is handed on. -/
theorem cut_bind {data : Bytes} {start stop : Nat} (hstart : start ≤ stop)
    (hstop : stop ≤ data.size) (next : Bytes → Guarded β) :
    cut data start stop >>= next = next (data.extract start stop) := by
  rw [cut_eq hstart hstop, pure_bind]

/-- A table entry whose position is a word has a position. -/
theorem entryAt_eq {table index width : Nat} (h : table + index * width < 2 ^ 64) :
    entryAt table index width = pure (table + index * width) := by
  unfold entryAt
  rw [mul_eq (by omega), pure_bind, add_eq h]

/-- The position of a table entry is handed on if it is a word. -/
theorem entryAt_bind {table index width : Nat} (h : table + index * width < 2 ^ 64)
    (next : Nat → Guarded β) :
    entryAt table index width >>= next = next (table + index * width) := by
  rw [entryAt_eq h, pure_bind]

-- ============================================================== agreement

/-- Guarded walks agree with ordinary ones part by part. -/
theorem within_bind {g : Guarded α} {w : Walk α} {next : α → Guarded β} {next' : α → Walk β}
    (hg : g = .within w) (hnext : ∀ a, w.outcome = .ok a → next a = .within (next' a)) :
    g >>= next = .within (w >>= next') := by
  rw [hg]
  show Guarded.andThen (.within w) next = _
  dsimp only [Guarded.andThen]
  cases hw : w.outcome with
  | error e => rw [Walk.bind_of_error hw]
  | ok a =>
      rw [Walk.bind_of_ok hw]
      dsimp only
      rw [hnext a hw]

/-- Guarded readers agree with ordinary ones part by part. -/
theorem read_bind {g : Guarded α} {r : Except ImageError α} {next : α → Guarded β}
    {next' : α → Except ImageError β} (hg : g = read r)
    (hnext : ∀ a, r = .ok a → next a = read (next' a)) :
    g >>= next = read (r >>= next') := by
  unfold read at hg hnext ⊢
  rw [within_bind hg hnext, Walk.read_bind]

@[simp] theorem read_ok (a : α) : read (.ok a) = pure a := rfl

end Dissect.Pe.Bounded

/-
What an instruction is after any building.

# What an action leaves

An action appends an operand, adds a comment, assigns a field, or takes
over a payload. What it does to one of these is said once for all
actions (`kinds_apply`, `toList_comments_apply` and their like), so that
what a history comes to follows by induction on its last action
(`Accounts.apply`).

# Payloads

`attach` and `reset` give back the payload they displace. No payload is
lost on the way and none is given back twice: those given back so far,
in order, and then the one that is held, are those attached, in order
(`displaced_append_held`, `Accounts.payloads`). The number of payloads
released is the number of those given back (`released_apply`).
-/
import Dissect.Instruction.History
import Mathlib.Data.List.DropRight

namespace Dissect

-- ============================================================= positions

/-- Every operand is stamped with the place where it stands. -/
def Instruction.Stamped (i : Instruction) : Prop :=
  ∀ (k : Nat) (o : Operand), i.operands[k]? = some o → o.position = k

/-- An operand that is appended is stamped with the next position. -/
theorem Instruction.Stamped.append {i : Instruction} (h : i.Stamped) (kind : OperandKind) :
    (i.append kind).Stamped := by
  intro k o ho
  rw [Instruction.append, Array.getElem?_push] at ho
  split at ho
  · next hlast =>
    cases ho
    exact hlast.symm
  · exact h k o ho

/-- The appended operand comes behind those that are there. -/
theorem Instruction.kinds_append (i : Instruction) (kind : OperandKind) :
    (i.append kind).operands.toList.map (·.kind) = i.operands.toList.map (·.kind) ++ [kind] := by
  simp [append]

-- ============================================================= histories

namespace Action

/-- The operand that an action is to append, if it is to append one. -/
def operand? : Action → Option OperandKind
  | .register id => some (.register { id := id })
  | .taggedRegister id tag => some (.register ⟨id, tag⟩)
  | .immediate v => some (.immediate v)
  | .unsignedImmediate v => some (.immediate v.toInt64)
  | .memory a => some (.memory a)
  | .displacement base d =>
    some (.displacement (.ofParts (some { id := base }) none 1 d))
  | .indexed base index scale d =>
    some (.displacement
      (.ofParts (base.map ({ id := · })) (index.map ({ id := · })) scale d))
  | .operand kind => some kind
  | _ => none

/-- The comment that the action adds. -/
def comment? : Action → Option String
  | .comment text => some text
  | _ => none

/-- What the action attaches. -/
def payload? : Action → Option Payload
  | .attach p => some p
  | _ => none

/-- The segment that the action assigns. -/
def segment? : Action → Option Nat
  | .assignSegment position => some position
  | _ => none

/-- The action appends a memory reference made of its parts. -/
def isReference : Action → Bool
  | .displacement _ _ | .indexed _ _ _ _ => true
  | _ => false

/-- The actions after the last reset. -/
def sinceReset (actions : List Action) : List Action := actions.rtakeWhile (· ≠ .reset)

/-- The actions that appended an operand after the last reset, and what
they appended. -/
def appended (actions : List Action) : List (Action × OperandKind) :=
  (sinceReset actions).filterMap fun a => a.operand?.map (a, ·)

theorem appended_concat_reset (actions : List Action) : appended (actions ++ [.reset]) = [] := by
  unfold appended sinceReset
  rw [List.rtakeWhile_concat_neg _ _ _ (by simp)]
  rfl

/-- An action other than a reset adds its operand, if it has one. -/
theorem appended_concat {a : Action} (h : a ≠ .reset) (actions : List Action) :
    appended (actions ++ [a])
      = appended actions ++ (a.operand?.map fun kind => (a, kind)).toList := by
  unfold appended sinceReset
  rw [List.rtakeWhile_concat_pos _ _ _ (by simpa using h), List.filterMap_append]
  cases ha : a.operand? with
  | none => simp [ha]
  | some kind => simp [ha]

/-- A reference made of its parts has a scale of at least one. -/
theorem exists_operand?_of_isReference {a : Action} (h : a.isReference = true) :
    ∃ m, a.operand? = some (.displacement m) ∧ 1 ≤ m.scale := by
  cases a with
  | displacement base d => exact ⟨_, rfl, MemoryOperand.one_le_scale_ofParts _ _ _ _⟩
  | indexed base index scale d => exact ⟨_, rfl, MemoryOperand.one_le_scale_ofParts _ _ _ _⟩
  | _ => cases h

/-- References made of their parts have a scale of at least one. -/
theorem exists_reference_of_mem_appended {actions : List Action} {a : Action}
    {kind : OperandKind} (h : (a, kind) ∈ appended actions) (hreference : a.isReference = true) :
    ∃ m, kind = .displacement m ∧ 1 ≤ m.scale := by
  obtain ⟨b, -, hb⟩ := List.mem_filterMap.mp h
  obtain ⟨kind', hkind, heq⟩ := Option.map_eq_some_iff.mp hb
  cases heq
  obtain ⟨m, hm, hscale⟩ := exists_operand?_of_isReference hreference
  rw [hkind, Option.some.injEq] at hm
  exact ⟨m, hm, hscale⟩

end Action

namespace Draft

variable (d : Draft) (a : Action)

-- ============================================================= one action

/-- No action moves an instruction. -/
theorem address_apply : (d.apply a).instruction.address = d.instruction.address := by
  cases a <;> rfl

theorem size_apply : (d.apply a).instruction.size = d.instruction.size := by
  cases a <;> rfl

theorem mnemonic_apply : (d.apply a).instruction.mnemonic = d.instruction.mnemonic := by
  cases a <;> rfl

/-- A segment is assigned by the action or stays. -/
theorem segment_apply :
    (d.apply a).instruction.segment = a.segment?.or d.instruction.segment := by
  cases a <;> rfl

/-- Comments are added behind those there are. -/
theorem toList_comments_apply :
    (d.apply a).instruction.comments.toList
      = d.instruction.comments.toList ++ a.comment?.toList := by
  cases a with
  | comment text => exact Array.toList_push ..
  | _ => exact (List.append_nil _).symm

/-- Every action but a reset keeps the operands and may append one. -/
theorem kinds_apply (h : a ≠ .reset) :
    (d.apply a).instruction.operands.toList.map (·.kind)
      = d.instruction.operands.toList.map (·.kind) ++ a.operand?.toList := by
  cases a with
  | reset => exact absurd rfl h
  | comment _ | assignFlags _ | assignSegment _ | attach _ => exact (List.append_nil _).symm
  | _ => exact d.instruction.kinds_append _

/-- Whatever is done, the positions of the operands count them. -/
theorem stamped_apply (h : d.instruction.Stamped) : (d.apply a).instruction.Stamped := by
  cases a with
  | comment _ | assignFlags _ | assignSegment _ | attach _ => exact h
  | reset =>
      intro k o ho
      cases ho
  | _ => exact h.append _

-- ============================================================== payloads

/-- The payload that an action lets go of. -/
def displaced : Action → Option Payload
  | .attach p => (d.instruction.attach p).2
  | .reset => d.instruction.reset.2
  | _ => none

/-- The payloads that actions let go of, in order. -/
def gone (d : Draft) : List Action → List Payload
  | [] => []
  | a :: rest => (d.displaced a).toList ++ (d.apply a).gone rest

/-- What is let go of and what is then held is what was held and what is
attached. -/
theorem displaced_append_held :
    (d.displaced a).toList ++ (d.apply a).instruction.payload.toList
      = d.instruction.payload.toList ++ a.payload?.toList := by
  cases a with
  | attach p => rfl
  | reset => rfl
  | _ => exact (List.append_nil _).symm

/-- What the action displaces is released, once. -/
theorem released_apply :
    (d.apply a).released = d.released + (d.displaced a).toList.length := by
  cases a with
  | attach p =>
      cases h : d.instruction.payload with
      | none => simp [apply, after, displaced, Instruction.attach, h]
      | some _ => simp [apply, after, displaced, Instruction.attach, h]
  | reset =>
      cases h : d.instruction.payload with
      | none => simp [apply, after, displaced, Instruction.reset, h]
      | some _ => simp [apply, after, displaced, Instruction.reset, h]
  | _ => rfl

theorem run_concat (actions : List Action) :
    d.run (actions ++ [a]) = (d.run actions).apply a :=
  List.foldl_concat ..

theorem gone_concat (actions : List Action) :
    d.gone (actions ++ [a]) = d.gone actions ++ ((d.run actions).displaced a).toList := by
  induction actions generalizing d with
  | nil =>
      show (d.displaced a).toList ++ [] = [] ++ (d.displaced a).toList
      rw [List.append_nil, List.nil_append]
  | cons first rest ih =>
      have hrun : d.run (first :: rest) = (d.apply first).run rest := rfl
      rw [List.cons_append, gone, gone, ih, hrun, List.append_assoc]

-- ======================================================== whole histories

/-- The account of a new instruction after actions that have let go of
some payloads. -/
structure Accounts (address : Address) (size : UInt32) (mnemonic : String)
    (actions : List Action) (gone : List Payload) (d : Draft) : Prop where
  address_eq : d.instruction.address = address
  size_eq : d.instruction.size = size
  mnemonic_eq : d.instruction.mnemonic = mnemonic
  /-- There is a segment only if one was assigned. -/
  segment_eq : d.instruction.segment = (actions.filterMap Action.segment?).getLast?
  kinds : d.instruction.operands.toList.map (·.kind) = (Action.appended actions).map (·.2)
  stamped : d.instruction.Stamped
  /-- References made of their parts have a scale of at least one. -/
  scaled : ∀ a kind, (a, kind) ∈ Action.appended actions → a.isReference = true →
    ∃ m, kind = .displacement m ∧ 1 ≤ m.scale
  comments : d.instruction.comments.toList = actions.filterMap Action.comment?
  payloads : gone ++ d.instruction.payload.toList = actions.filterMap Action.payload?
  released : d.released = gone.length

variable {d : Draft} {address : Address} {size : UInt32} {mnemonic : String}
  {actions : List Action} {gone : List Payload}

theorem accounts_fresh :
    Accounts address size mnemonic [] [] (fresh address size mnemonic) where
  address_eq := rfl
  size_eq := rfl
  mnemonic_eq := rfl
  segment_eq := rfl
  kinds := rfl
  stamped := by
    intro k o ho
    cases ho
  scaled := fun _ _ => Action.exists_reference_of_mem_appended
  comments := rfl
  payloads := rfl
  released := rfl

/-- What one action adds to a list of what such actions carry. -/
theorem filterMap_concat {α : Type} (f : Action → Option α) (actions : List Action)
    (a : Action) : (actions ++ [a]).filterMap f = actions.filterMap f ++ (f a).toList := by
  rw [List.filterMap_append]
  cases ha : f a with
  | none => simp [ha]
  | some x => simp [ha]

/-- One action more is accounted for: the step of the run. -/
theorem Accounts.apply (h : Accounts address size mnemonic actions gone d) (a : Action) :
    Accounts address size mnemonic (actions ++ [a]) (gone ++ (d.displaced a).toList)
      (d.apply a) where
  address_eq := by rw [address_apply, h.address_eq]
  size_eq := by rw [size_apply, h.size_eq]
  mnemonic_eq := by rw [mnemonic_apply, h.mnemonic_eq]
  segment_eq := by
    rw [segment_apply, h.segment_eq, filterMap_concat, List.getLast?_append]
    cases a.segment? with
    | none => rfl
    | some position => rfl
  kinds := by
    by_cases ha : a = .reset
    · subst ha
      rw [Action.appended_concat_reset]
      rfl
    · rw [kinds_apply d a ha, h.kinds, Action.appended_concat ha, List.map_append]
      cases a.operand? with
      | none => rfl
      | some kind => rfl
  stamped := stamped_apply d a h.stamped
  scaled := fun _ _ => Action.exists_reference_of_mem_appended
  comments := by rw [toList_comments_apply, h.comments, filterMap_concat]
  payloads := by
    rw [List.append_assoc, displaced_append_held, ← List.append_assoc, h.payloads,
      filterMap_concat]
  released := by rw [released_apply, h.released, List.length_append]

/-- Any list of actions is accounted for, action by action. -/
theorem accounts_run (actions : List Action) :
    Accounts address size mnemonic actions ((fresh address size mnemonic).gone actions)
      ((fresh address size mnemonic).run actions) := by
  induction actions using List.reverseRecOn with
  | nil => exact accounts_fresh
  | append_singleton actions a ih =>
      rw [run_concat, gone_concat]
      exact ih.apply a

/-- What was released and what is still held has been attached. -/
theorem Accounts.releasedAtEnd_eq (h : Accounts address size mnemonic actions gone d) :
    d.releasedAtEnd = (actions.filterMap Action.payload?).length := by
  rw [← h.payloads, List.length_append, ← h.released, releasedAtEnd]
  cases d.instruction.payload with
  | none => rfl
  | some p => rfl

/-- However an instruction is built: its address, size and mnemonic stay,
and its segment unless one is assigned; its operands are those appended
since the last reset, in order and with their positions, references made
of their parts having a scale of at least one; its comments are all that
were ever added; the payloads let go of, in order, and then the one that
is held are those attached, in order, and each that was let go of is
counted. After a reset there are no flags, operands and payload, and a
second reset changes nothing. -/
theorem run_accounted (address : Address) (size : UInt32) (mnemonic : String)
    (actions : List Action) :
    let start := fresh address size mnemonic
    let reset := start.run (actions ++ [.reset])
    Accounts address size mnemonic actions (start.gone actions) (start.run actions)
    ∧ (start.run actions).releasedAtEnd = (actions.filterMap Action.payload?).length
    ∧ reset.instruction.flags = .empty ∧ reset.instruction.operands = #[]
    ∧ reset.instruction.payload = none
    ∧ start.run (actions ++ [.reset, .reset]) = reset := by
  intro start reset
  have hreset : reset = (start.run actions).apply .reset := run_concat _ _ _
  have htwice : start.run (actions ++ [.reset, .reset]) = reset.apply .reset := by
    rw [← run_concat, List.append_assoc]
    rfl
  refine ⟨accounts_run actions, (accounts_run actions).releasedAtEnd_eq, ?_⟩
  rw [htwice, hreset]
  exact ⟨rfl, rfl, rfl, rfl⟩

end Draft

end Dissect

/-
The shape of a line.

# One operand at a time

A line is written from left to right. What stands before an operand
depends on a flag, whether anything was written before it, and operands
without a text leave the flag as it is. `writeFrom_eq` is the account of
the loop from any state of the flag on: the listener is told of what is
shown, in order, and what is written is the texts joined behind what was
there. It holds for a listener with any effects, so nothing about a line
depends on who listens.

# What is passed over

A text depends on the kind of an operand alone, and operands with
nothing to show have none, whatever registers and symbols are called.
So a list of operands may be padded with them (`Padded`) and the texts
are the same.
-/
import Dissect.Proofs.Listing
import Mathlib.Data.List.Basic

namespace Dissect

/-- Operands with more between them that have nothing to show. -/
inductive Padded : List OperandKind → List OperandKind → Prop
  | nil : Padded [] []
  | keep {kinds padded : List OperandKind} (kind : OperandKind) (h : Padded kinds padded) :
      Padded (kind :: kinds) (kind :: padded)
  | pad {kinds padded : List OperandKind} {kind : OperandKind} (hkind : ¬ kind.Renderable)
      (h : Padded kinds padded) : Padded kinds (kind :: padded)

/-- The kinds of an instruction's operands, in order. -/
def Instruction.kinds (i : Instruction) : List OperandKind := i.operands.toList.map (·.kind)

namespace Listing

variable {l : Listing}

/-- The texts of the operands that have one, in order. -/
def texts (l : Listing) (i : Instruction) : List String :=
  (i.operands.toList.map l.operandText).filter (· ≠ "")

-- =============================================================== writing

/-- Texts behind what is written already. -/
def joined (first : Bool) (written : String) (texts : List String) : String :=
  if texts = [] then written
  else written ++ (if first then " " else ", ") ++ ", ".intercalate texts

/-- The first of several texts is written and the others behind it. -/
theorem joined_cons (first : Bool) (written text : String) (rest : List String) :
    joined first written (text :: rest)
      = joined false (written ++ (if first then " " else ", ") ++ text) rest := by
  unfold joined
  rw [if_neg (List.cons_ne_nil text rest)]
  cases rest with
  | nil => rw [if_pos rfl, String.intercalate_singleton]
  | cons next rest =>
      rw [if_neg (List.cons_ne_nil next rest), String.intercalate_cons_cons]
      simp [String.append_assoc]

/-- An operand without a text is not told of. -/
theorem told_cons_of_empty {o : Operand} (h : (l.operandText o).isEmpty = true)
    (rest : List Operand) : l.told (o :: rest) = l.told rest := by
  simp [told, h]

/-- One with a text is told of first. -/
theorem told_cons {o : Operand} (h : ¬ (l.operandText o).isEmpty = true) (rest : List Operand) :
    l.told (o :: rest) = (o, l.operandText o) :: l.told rest := by
  simp [told, h]

/-- The loop tells the listener of what is shown and joins the texts. -/
theorem writeFrom_eq {m : Type → Type} [Monad m] [LawfulMonad m]
    (listen : Operand → String → m Unit) (first : Bool) (written : String) (os : List Operand) :
    l.writeFrom listen first written os = (do
      forM (l.told os) fun p => listen p.1 p.2
      pure (joined first written ((l.told os).map (·.2)))) := by
  induction os generalizing first written with
  | nil => simp [writeFrom, told, joined]
  | cons o rest ih =>
      rw [writeFrom]
      by_cases hempty : (l.operandText o).isEmpty = true
      · rw [if_pos hempty, ih, told_cons_of_empty hempty]
      · rw [if_neg hempty, told_cons hempty, List.map_cons, joined_cons, List.forM_cons]
        simp only [ih, bind_assoc]

/-- What is shown are the operands with a text, each with its text. -/
theorem shown_eq_map (l : Listing) (i : Instruction) :
    l.shown i
      = (i.operands.toList.filter fun o => l.operandText o ≠ "").map
          fun o => (o, l.operandText o) := by
  unfold shown told
  rw [List.filter_map]
  refine congrArg (List.map _) (List.filter_congr fun o _ => ?_)
  rw [Bool.eq_iff_iff]
  simp

theorem map_snd_shown (l : Listing) (i : Instruction) : (l.shown i).map (·.2) = l.texts i := by
  rw [shown_eq_map, List.map_map, texts, List.filter_map]
  rfl

/-- A line is written whoever listens, and the listener is told of what is
shown. -/
theorem writeLine_eq {m : Type → Type} [Monad m] [LawfulMonad m]
    (listen : Operand → String → m Unit) (i : Instruction) :
    l.writeLine listen i = (do
      forM (l.shown i) fun p => listen p.1 p.2
      pure (joined true i.mnemonic (l.texts i))) := by
  rw [← map_snd_shown]
  exact writeFrom_eq listen true i.mnemonic i.operands.toList

theorem line_eq (l : Listing) (i : Instruction) :
    l.line i = joined true i.mnemonic (l.texts i) := by
  unfold line
  rw [writeLine_eq]
  -- a listener that does nothing leaves nothing but the line
  generalize l.shown i = told
  induction told with
  | nil => rfl
  | cons p rest ih => exact ih

/-- The line that is written is the line. -/
theorem writeLine_eq_line {m : Type → Type} [Monad m] [LawfulMonad m]
    (listen : Operand → String → m Unit) (i : Instruction) :
    l.writeLine listen i = (do
      forM (l.shown i) fun p => listen p.1 p.2
      pure (l.line i)) := by
  rw [writeLine_eq, line_eq]

-- =============================================================== padding

/-- What has nothing to show has no text, whatever the names are. -/
theorem operandText_of_not_renderable {o : Operand} (h : ¬ o.kind.Renderable) :
    l.operandText o = "" := by
  unfold operandText
  cases hkind : o.kind with
  | register r => simp [hkind, OperandKind.Renderable] at h
  | immediate v => simp [hkind, OperandKind.Renderable] at h
  | memory a => simp [hkind, OperandKind.Renderable] at h
  | displacement m =>
      simp only [hkind, OperandKind.Renderable, not_or, Option.not_isSome_iff_eq_none,
        Decidable.not_not] at h
      obtain ⟨hbase, hindex, hzero⟩ := h
      simp [memoryText, withDisplacement, registerPart, hbase, hindex, hzero]
  | unknown => rfl

/-- The texts of a list of operands are those of their kinds. -/
theorem texts_eq (l : Listing) (i : Instruction) :
    l.texts i = (i.kinds.map fun kind => l.operandText ⟨kind, 0⟩).filter (· ≠ "") := by
  unfold texts Instruction.kinds
  rw [List.map_map]
  rfl

/-- Padding adds only operands that have no text. -/
theorem filter_texts_of_padded {kinds padded : List OperandKind} (h : Padded kinds padded) :
    (padded.map fun kind => l.operandText ⟨kind, 0⟩).filter (· ≠ "")
      = (kinds.map fun kind => l.operandText ⟨kind, 0⟩).filter (· ≠ "") := by
  induction h with
  | nil => rfl
  | keep kind _ ih => rw [List.map_cons, List.map_cons, List.filter_cons, List.filter_cons, ih]
  | @pad kinds padded kind hkind _ ih =>
      have hempty : l.operandText ⟨kind, 0⟩ = "" := operandText_of_not_renderable hkind
      rw [List.map_cons, hempty]
      simpa using ih

theorem texts_of_padded {i i' : Instruction} (h : Padded i.kinds i'.kinds) :
    l.texts i' = l.texts i := by
  rw [texts_eq, texts_eq, filter_texts_of_padded h]

/-- Padding an instruction with operands that have no text leaves its
line. -/
theorem line_of_padded {i i' : Instruction} (hmnemonic : i'.mnemonic = i.mnemonic)
    (h : Padded i.kinds i'.kinds) : l.line i' = l.line i := by
  rw [line_eq, line_eq, hmnemonic, texts_of_padded h]

/-- A listener that goes by texts alone is told the same. -/
theorem writeLine_of_padded {m : Type → Type} [Monad m] [LawfulMonad m] (listen : String → m Unit)
    {i i' : Instruction} (hmnemonic : i'.mnemonic = i.mnemonic) (h : Padded i.kinds i'.kinds) :
    l.writeLine (fun _ text => listen text) i' = l.writeLine (fun _ text => listen text) i := by
  have htold : ∀ j, (forM (l.shown j) fun p => listen p.2) = forM (l.texts j) listen := by
    intro j
    rw [← map_snd_shown, List.forM_map]
  rw [writeLine_eq_line, writeLine_eq_line, htold, htold, texts_of_padded h,
    line_of_padded hmnemonic h]

-- ============================================================== the line

/-- What the line of an instruction is, whom it is told to and what does
not change it. -/
structure Shapes (l : Listing) (i : Instruction) : Prop where
  bare : l.texts i = [] → l.line i = i.mnemonic
  spelled : l.texts i ≠ [] → l.line i = i.mnemonic ++ " " ++ ", ".intercalate (l.texts i)
  /-- What is told are the operands with a text, each with its text. -/
  shown_eq : l.shown i
    = (i.operands.toList.filter fun o => l.operandText o ≠ "").map fun o => (o, l.operandText o)
  shown_texts : (l.shown i).map (·.2) = l.texts i
  /-- Whatever a listener does, it is told of these one after the other,
  and the line is the same. -/
  tells : ∀ (m : Type → Type) [Monad m] [LawfulMonad m] (listen : Operand → String → m Unit),
    l.writeLine listen i = do
      forM (l.shown i) fun p => listen p.1 p.2
      pure (l.line i)
  /-- Padding changes neither the line nor the texts that are told. -/
  padded : ∀ i' : Instruction, i'.mnemonic = i.mnemonic → Padded i.kinds i'.kinds →
    l.line i' = l.line i ∧ l.texts i' = l.texts i
      ∧ ∀ (m : Type → Type) [Monad m] [LawfulMonad m] (listen : String → m Unit),
        l.writeLine (fun _ text => listen text) i' = l.writeLine (fun _ text => listen text) i

/-- Every line is the mnemonic and the texts that there are, and a list of
lines has one for each instruction. -/
theorem line_shapes (l : Listing) :
    (∀ i, l.Shapes i)
      ∧ ∀ is : List Instruction, (l.lines is).length = is.length
        ∧ ∀ (k : Nat) i, is[k]? = some i → (l.lines is)[k]? = some (l.line i) := by
  constructor
  · intro i
    exact
      { bare := by
          intro hnone
          rw [line_eq, joined, if_pos hnone]
        spelled := by
          intro hsome
          rw [line_eq, joined, if_neg hsome]
          rfl
        shown_eq := shown_eq_map l i
        shown_texts := map_snd_shown l i
        tells := fun m _ _ listen => writeLine_eq_line listen i
        padded := fun i' hmnemonic hpadded =>
          ⟨line_of_padded hmnemonic hpadded, texts_of_padded hpadded,
            fun m _ _ listen => writeLine_of_padded listen hmnemonic hpadded⟩ }
  · intro is
    refine ⟨List.length_map _, ?_⟩
    intro k i hi
    unfold lines
    rw [List.getElem?_map, hi]
    rfl

end Listing

end Dissect

/-
That words joined by a separator are found again.

A word holds no blank and no separator. Words with a separator between
them, a blank on either side of it, are cut at the separators into the
words and the blanks that stood beside them, and trimming takes those
away (`map_trim_splitAt_intercalate`): a blank in front of a part makes
no difference once the parts are trimmed.
-/
import Dissect.Text.Blank

namespace Dissect.Text

variable {separator c : Char} {cs xs ys : List Char}

-- ============================================================== trimming

/-- A blank in front is trimmed. -/
theorem trim_cons (hc : isBlank c = true) (cs : List Char) : trim (c :: cs) = trim cs := by
  simp [trim, hc]

/-- What has no blank at either end is not trimmed. -/
theorem trim_eq_self (hhead : ∀ c ∈ cs.head?, isBlank c = false)
    (hlast : ∀ c ∈ cs.getLast?, isBlank c = false) : trim cs = cs := by
  have hkept : ∀ {xs : List Char}, (∀ c ∈ xs.head?, isBlank c = false) →
      xs.dropWhile isBlank = xs := by
    intro xs h
    cases xs with
    | nil => rfl
    | cons c xs => simp [h c rfl]
  unfold trim
  rw [hkept hhead, hkept (by simpa using hlast), List.reverse_reverse]

theorem trim_append_blank (hcs : ∀ c ∈ cs, isBlank c = false) (hc : isBlank c = true) :
    trim (cs ++ [c]) = cs := by
  cases cs with
  | nil => simp [trim, hc]
  | cons d cs =>
      have hd : isBlank d = false := hcs d List.mem_cons_self
      have hself : trim (d :: cs) = d :: cs := by
        apply trim_eq_self
        · intro e he
          cases he
          exact hd
        · intro e he
          exact hcs e (List.mem_of_getLast? he)
      unfold trim at hself ⊢
      rw [List.cons_append]
      rw [List.dropWhile_cons_of_neg (by simp [hd])] at hself ⊢
      rw [← List.cons_append, List.reverse_append, List.reverse_singleton,
        List.singleton_append, List.dropWhile_cons_of_pos hc]
      exact hself

-- =============================================================== cutting

theorem splitAt_cons (separator c : Char) (cs : List Char) :
    splitAt separator (c :: cs) = consPart separator c (splitAt separator cs) := rfl

theorem consPart_of_ne (h : c ≠ separator) (part : List Char) (parts : List (List Char)) :
    consPart separator c (part :: parts) = (c :: part) :: parts := if_neg h

/-- There is always a first part. -/
theorem exists_splitAt_eq_cons (separator : Char) (cs : List Char) :
    ∃ part parts, splitAt separator cs = part :: parts := by
  cases cs with
  | nil => exact ⟨[], [], rfl⟩
  | cons c cs =>
      rw [splitAt_cons]
      unfold consPart
      split
      · exact ⟨_, _, rfl⟩
      · split
        · exact ⟨_, _, rfl⟩
        · exact ⟨_, _, rfl⟩

/-- A text is cut at its first separator. -/
theorem splitAt_append_separator (h : separator ∉ xs) (ys : List Char) :
    splitAt separator (xs ++ separator :: ys) = xs :: splitAt separator ys := by
  induction xs with
  | nil => exact if_pos rfl
  | cons x xs ih =>
      rw [List.mem_cons, not_or] at h
      rw [List.cons_append, splitAt_cons, ih h.2, consPart_of_ne (Ne.symm h.1)]

theorem splitAt_of_not_mem (h : separator ∉ xs) : splitAt separator xs = [xs] := by
  induction xs with
  | nil => rfl
  | cons x xs ih =>
      rw [List.mem_cons, not_or] at h
      rw [splitAt_cons, ih h.2, consPart_of_ne (Ne.symm h.1)]

/-- A blank in front makes no difference once the parts are trimmed. -/
theorem map_trim_splitAt_cons (hc : isBlank c = true) (hne : c ≠ separator) (cs : List Char) :
    (splitAt separator (c :: cs)).map trim = (splitAt separator cs).map trim := by
  obtain ⟨part, parts, hparts⟩ := exists_splitAt_eq_cons separator cs
  rw [splitAt_cons, hparts, consPart_of_ne hne, List.map_cons, List.map_cons, trim_cons hc]

-- ================================================================= words

/-- A word: not empty, without blanks and without the separator. -/
structure Word (separator : Char) (cs : List Char) : Prop where
  nonempty : cs ≠ []
  solid : ∀ c ∈ cs, isBlank c = false
  whole : separator ∉ cs

theorem Word.trim_eq (h : Word separator cs) : trim cs = cs :=
  trim_eq_self (fun c hc => h.solid c (List.mem_of_mem_head? hc))
    fun c hc => h.solid c (List.mem_of_getLast? hc)

/-- Words with the separator between them, a blank on either side. -/
def joined (separator : Char) (words : List (List Char)) : List Char :=
  [' ', separator, ' '].intercalate words

/-- Words are joined by the separator between two blanks. -/
theorem joined_cons_cons (separator : Char) (v w : List Char) (words : List (List Char)) :
    joined separator (v :: w :: words)
      = (v ++ [' ']) ++ separator :: ' ' :: joined separator (w :: words) := by
  unfold joined
  rw [List.intercalate_cons_cons]
  simp

/-- Cutting at the separators and trimming finds the words. -/
theorem map_trim_splitAt_joined (hseparator : separator ≠ ' ') {words : List (List Char)}
    (hne : words ≠ []) (h : ∀ w ∈ words, Word separator w) :
    (splitAt separator (joined separator words)).map trim = words := by
  induction words with
  | nil => exact absurd rfl hne
  | cons v words ih =>
      have hv := h v List.mem_cons_self
      cases words with
      | nil =>
          show (splitAt separator ([' ', separator, ' '].intercalate [v])).map trim = [v]
          rw [List.intercalate_singleton, splitAt_of_not_mem hv.whole, List.map_singleton,
            hv.trim_eq]
      | cons w words =>
          have hfront : separator ∉ v ++ [' '] := by
            simp [hv.whole, hseparator]
          rw [joined_cons_cons, splitAt_append_separator hfront, List.map_cons,
            trim_append_blank hv.solid (by decide),
            map_trim_splitAt_cons (by decide) (Ne.symm hseparator),
            ih (by simp) fun u hu => h u (List.mem_cons_of_mem v hu)]

/-- The words at the ends leave nothing to trim. -/
theorem ends_joined {words : List (List Char)} (hne : words ≠ [])
    (h : ∀ w ∈ words, Word separator w) :
    joined separator words ≠ [] ∧ trim (joined separator words) = joined separator words := by
  have hends : joined separator words ≠ []
      ∧ (∀ c ∈ (joined separator words).head?, isBlank c = false)
      ∧ ∀ c ∈ (joined separator words).getLast?, isBlank c = false := by
    induction words with
    | nil => exact absurd rfl hne
    | cons v words ih =>
        have hv := h v List.mem_cons_self
        cases words with
        | nil =>
            unfold joined
            rw [List.intercalate_singleton]
            exact ⟨hv.nonempty, fun c hc => hv.solid c (List.mem_of_mem_head? hc),
              fun c hc => hv.solid c (List.mem_of_getLast? hc)⟩
        | cons w words =>
            obtain ⟨hrest, -, hlast⟩ := ih (by simp) fun u hu => h u (List.mem_cons_of_mem v hu)
            rw [joined_cons_cons]
            refine ⟨by simp, ?_, ?_⟩
            · intro c hc
              obtain ⟨d, v, rfl⟩ := List.exists_cons_of_ne_nil hv.nonempty
              cases hc
              exact hv.solid c List.mem_cons_self
            · intro c hc
              apply hlast
              rw [List.getLast?_append, List.getLast?_cons_cons, List.getLast?_cons,
                List.getLast?_eq_some_getLast hrest] at hc
              rw [List.getLast?_eq_some_getLast hrest]
              exact hc
  exact ⟨hends.1, trim_eq_self hends.2.1 hends.2.2⟩

end Dissect.Text

/-
What the names of imported and exported functions are made of.

# Stems

`IsStem` says which part of a file name stands for the library, by the
places of its dots and not by how it is looked for: everything in front
of the last dot, unless that leaves nothing. Dots are dots in either
case, so the stem of a name in lower case is the stem in lower case
(`IsStem.map_toLower`).

# Qualified names

`Qualifies` is the form of every name that a walk makes up: the stem of
the library in lower case, an exclamation mark, and what the function is
called. Names that a walk makes up have it, also where the walk has put
the library in lower case before.
-/
import Dissect.Pe.ImportName
import Dissect.Proofs.Pe.Ordinal
import Mathlib.Data.List.TakeWhile

namespace Dissect

-- ================================================================= text

/-- Text is looked for everywhere. -/
theorem Text.contains_iff_infix {needle cs : List Char} :
    Text.contains needle cs = true ↔ needle <:+: cs := by
  induction cs with
  | nil => simp [contains]
  | cons c rest ih =>
      rw [contains, Bool.or_eq_true, List.isPrefixOf_iff_prefix, ih, List.infix_cons_iff]

/-- Text in lower case stays as it is. -/
@[simp] theorem Text.lowerAscii_lowerAscii (s : String) :
    Text.lowerAscii (Text.lowerAscii s) = Text.lowerAscii s :=
  Text.lowerAscii_of_isUpper Text.isUpper_of_mem_lowerAscii

/-- No other character becomes a dot in lower case. -/
theorem Text.toLower_eq_dot_iff {c : Char} : c.toLower = '.' ↔ c = '.' := by
  have hdot : '.'.toNat = 46 := rfl
  rcases toLower_cases c with ⟨hlow, -, hnat⟩ | ⟨-, hsame⟩
  · -- neither a capital nor the letter it becomes is a dot
    constructor
    · intro h
      rw [h] at hnat
      omega
    · intro h
      rw [h] at hlow
      omega
  · rw [hsame]

namespace Pe

-- ================================================================ stems

/-- The part of a file name that stands for the library. -/
inductive IsStem : List Char → List Char → Prop
  | dotless {file : List Char} (h : '.' ∉ file) : IsStem file file
  | leading {rest : List Char} (h : '.' ∉ rest) : IsStem ('.' :: rest) ('.' :: rest)
  | cut {before after : List Char} (hbefore : before ≠ []) (hafter : '.' ∉ after) :
      IsStem (before ++ '.' :: after) before

theorem dropWhile_of_dotless {cs : List Char} (h : '.' ∉ cs) :
    cs.reverse.dropWhile (· ≠ '.') = [] := by
  refine List.dropWhile_eq_nil_iff.mpr fun c hc => ?_
  have hne : c ≠ '.' := fun heq => h (heq ▸ List.mem_reverse.mp hc)
  simpa using hne

/-- The last dot is the first one from the end. -/
theorem dropWhile_of_cut {before after : List Char} (h : '.' ∉ after) :
    (before ++ '.' :: after).reverse.dropWhile (· ≠ '.') = '.' :: before.reverse := by
  rw [List.reverse_append, List.reverse_cons, List.append_assoc, List.dropWhile_append_of_pos]
  · simp
  · intro c hc
    have hne : c ≠ '.' := fun heq => h (heq ▸ List.mem_reverse.mp hc)
    simpa using hne

/-- Each file name has one stem, and it is the one that is looked for. -/
theorem isStem_iff {file : String} {s : List Char} :
    IsStem file.toList s ↔ s = (stem file).toList := by
  unfold stem
  constructor
  · intro h
    generalize hfile : file.toList = cs at h
    cases h with
    | dotless h => rw [dropWhile_of_dotless h, ← hfile]
    | @leading rest h =>
        have hdrop : ('.' :: rest).reverse.dropWhile (· ≠ '.') = ['.'] :=
          @dropWhile_of_cut [] rest h
        rw [hdrop, ← hfile]
    | cut hbefore hafter =>
        rw [dropWhile_of_cut hafter]
        obtain ⟨c, rest, hrev⟩ := List.exists_cons_of_ne_nil (List.reverse_ne_nil_iff.mpr hbefore)
        rw [hrev]
        dsimp only
        rw [← hrev, String.toList_ofList, List.reverse_reverse]
  · rintro rfl
    by_cases hdot : '.' ∈ file.toList
    · obtain ⟨after, before, hsplit, hafter⟩ :=
        List.eq_append_cons_of_mem (List.mem_reverse.mpr hdot)
      have hafter' : '.' ∉ after.reverse := fun h => hafter (List.mem_reverse.mp h)
      have hfile : file.toList = before.reverse ++ '.' :: after.reverse := by
        have h := congrArg List.reverse hsplit
        rw [List.reverse_reverse] at h
        rw [h]
        simp
      rw [hfile, dropWhile_of_cut hafter', List.reverse_reverse]
      cases before with
      | nil =>
          rw [hfile]
          exact .leading hafter'
      | cons c rest =>
          dsimp only
          rw [String.toList_ofList]
          exact .cut (by simp) hafter'
    · rw [dropWhile_of_dotless hdot]
      exact .dotless hdot

theorem dot_not_mem_map_toLower {cs : List Char} (h : '.' ∉ cs) : '.' ∉ cs.map Char.toLower := by
  intro hmem
  obtain ⟨c, hc, hdot⟩ := List.mem_map.mp hmem
  rw [Text.toLower_eq_dot_iff] at hdot
  exact h (hdot ▸ hc)

/-- The stem of a lowered name is the lowered stem. -/
theorem IsStem.map_toLower {file s : List Char} (h : IsStem file s) :
    IsStem (file.map Char.toLower) (s.map Char.toLower) := by
  cases h with
  | dotless h => exact .dotless (dot_not_mem_map_toLower h)
  | leading h => exact .leading (dot_not_mem_map_toLower h)
  | cut hbefore hafter =>
      rw [List.map_append]
      exact .cut (by simpa using hbefore) (dot_not_mem_map_toLower hafter)

-- ======================================================= qualified names

/-- The name is what a function is called behind the stem of its library
in lower case. -/
def Qualifies (library text name : String) : Prop :=
  ∃ s, IsStem (Text.lowerAscii library).toList s ∧ name = String.ofList s ++ "!" ++ text

/-- Whether the library was put in lower case before makes no
difference. -/
theorem qualifies_lowerAscii {library text name : String} :
    Qualifies (Text.lowerAscii library) text name ↔ Qualifies library text name := by
  unfold Qualifies
  rw [Text.lowerAscii_lowerAscii]

/-- Names that are made up are qualified, and nothing else is. -/
theorem qualifies_iff {library name : String} {n : ImportName} :
    Qualifies library n.text name ↔ name = qualifiedName library n := by
  have hstem : (Text.lowerAscii (stem library)).toList
      = (stem (Text.lowerAscii library)).toList := by
    rw [← isStem_iff]
    unfold Text.lowerAscii
    rw [String.toList_ofList, String.toList_ofList]
    exact (isStem_iff.mpr rfl).map_toLower
  have hname : qualifiedName library n
      = String.ofList (stem (Text.lowerAscii library)).toList ++ "!" ++ n.text := by
    rw [← hstem, String.ofList_toList]
    rfl
  rw [hname]
  constructor
  · rintro ⟨s, hs, rfl⟩
    rw [isStem_iff.mp hs]
  · rintro rfl
    exact ⟨_, isStem_iff.mpr rfl, rfl⟩

end Pe

end Dissect

/-
The two directory walks do not depend on each other.

# Restriction

Neither walk looks at the symbols that are there already, so leaving one
of them out leaves the other as it was: the stages of a load with both
walks restrict to stages of the loads with one of them or with none
(`Stages.restrict`), with the same headers, the same segments and the
steps of the walks that are left.

# Priority

The last definition at an address is visible and the imports come last,
then the exports. Since each walk defines symbols of a kind of its own,
it can be told from the loads with one walk alone which symbol the full
load shows (`load_priority`): an import before an export before the
entry point.
-/
import Dissect.Proofs.Pe.Stability

namespace Dissect.Pe

/-- The options, but for which directories are walked. -/
def walking (options : LoadOptions) (exports imports : Bool) : LoadOptions :=
  { options with walkExports := exports, walkImports := imports }

/-- Which directories are walked is no matter to a walk. -/
theorem loosens_walking (options : LoadOptions) (e i e' i' : Bool) :
    Loosens (walking options e i) (walking options e' i') where
  maxImports_eq := rfl
  maxExports_eq := rfl
  maxNameLength_le := UInt64.le_refl _

theorem View.append_empty (v : View) : v.append #[] = v := by
  unfold append
  rw [Array.append_empty]

variable {options : LoadOptions} {names : OrdinalNames} {data : Bytes}

-- ========================================================= one walk alone

/-- An export walk that succeeds is the same without the import walk. -/
theorem walkExportsIfPresent_walking {v : View} {h : Headers} {imports : Bool}
    (hok : (walkExportsIfPresent v h (walking options true true)).outcome = .ok ()) :
    walkExportsIfPresent v h (walking options true imports)
      = walkExportsIfPresent v h (walking options true true) := by
  have hkeeps := keeps_walkExportsIfPresent v #[] h
    (loosens_walking options true true true imports) rfl () hok
  rwa [View.append_empty] at hkeeps

/-- An import walk that succeeds is the same without the export walk. -/
theorem walkImportsIfPresent_walking {v : View} {h : Headers} {exports : Bool}
    {variant : Variant}
    (hok : (walkImportsIfPresent v h names (walking options true true)).outcome
      = .ok variant) :
    walkImportsIfPresent v h names (walking options exports true)
      = walkImportsIfPresent v h names (walking options true true) := by
  have hkeeps := keeps_walkImportsIfPresent v #[] h names
    (loosens_walking options true true exports true) rfl variant hok
  rwa [View.append_empty] at hkeeps

-- ========================================================== restriction

namespace Stages

/-- The stages that are left when a walk is left out. -/
def restrict (st : Stages (walking options true true) names data) (exports imports : Bool) :
    Stages (walking options exports imports) names data where
  dos := st.dos
  headers := st.headers
  sections := st.sections
  variant := if imports then st.variant else .generic
  dos_eq := st.dos_eq
  headers_eq := st.headers_eq
  sections_eq := st.sections_eq
  entry_eq := st.entry_eq
  exports_eq := by
    cases exports with
    | false => rfl
    | true =>
        rw [walkExportsIfPresent_walking st.exports_eq]
        exact st.exports_eq
  imports_eq := by
    cases imports with
    | false => rfl
    | true =>
        rw [walkImportsIfPresent_walking st.imports_eq]
        exact st.imports_eq

/-- The exports are those of the full load, or none. -/
theorem exportSteps_restrict (st : Stages (walking options true true) names data)
    (exports imports : Bool) :
    (st.restrict exports imports).exportSteps = if exports then st.exportSteps else [] := by
  cases exports with
  | false => rfl
  | true => exact congrArg Walk.steps (walkExportsIfPresent_walking st.exports_eq)

/-- The imports are those of the full load, or none. -/
theorem importSteps_restrict (st : Stages (walking options true true) names data)
    (exports imports : Bool) :
    (st.restrict exports imports).importSteps = if imports then st.importSteps else [] := by
  cases imports with
  | false => rfl
  | true => exact congrArg Walk.steps (walkImportsIfPresent_walking st.imports_eq)

/-- What a load with some of the walks shows at an address. -/
theorem lookup?_restrict (st : Stages (walking options true true) names data)
    (exports imports : Bool) (a : Address) :
    (st.restrict exports imports).image.symbols.lookup? a
      = ((if imports then lastAt? (definitions st.importSteps) a else none).or
          (if exports then lastAt? (definitions st.exportSteps) a else none)).or
        (lastAt? (definitions st.entrySteps) a) := by
  rw [lookup?_image, exportSteps_restrict, importSteps_restrict]
  cases exports <;> cases imports <;> rfl

end Stages

-- ============================================================= priority

/-- The last symbol of a stage is of the stage's kind. -/
theorem kind_of_lastAt? {v : View} {k : SymbolKind} {symbols : List Symbol} {a : Address}
    {s : Symbol} (hplaces : ∀ s ∈ symbols, v.Places k s) (h : lastAt? symbols a = some s) :
    s.kind = k :=
  (hplaces s (lastAt?_eq_some h).1).1

/-- A load with both walks comes down to the loads with one of them and
with none. These succeed too, with the same headers and segments. At
each address the full load shows the import of the one, or else the
export of the other, or else what there is without walks, and the
libraries of the imports alone say what kind of program it is. -/
theorem load_priority (options : LoadOptions) (names : OrdinalNames) (data : Bytes)
    {full : Loaded} (h : (load (walking options true true) names data).outcome = .ok full) :
    ∃ neither exportsOnly importsOnly : Loaded,
      (load (walking options false false) names data).outcome = .ok neither
      ∧ (load (walking options true false) names data).outcome = .ok exportsOnly
      ∧ (load (walking options false true) names data).outcome = .ok importsOnly
      ∧ (∀ image ∈ [neither, exportsOnly, importsOnly],
          image.headers = full.headers ∧ image.segments = full.segments)
      ∧ (∀ a, full.symbols.lookup? a
          = if (importsOnly.symbols.lookup? a).any (·.kind = .imported) then
              importsOnly.symbols.lookup? a
            else if (exportsOnly.symbols.lookup? a).any (·.kind = .exported) then
              exportsOnly.symbols.lookup? a
            else neither.symbols.lookup? a)
      ∧ full.variant = importsOnly.variant
      ∧ neither.variant = .generic ∧ exportsOnly.variant = .generic := by
  obtain ⟨st, rfl⟩ := load_eq_ok_iff.mp h
  refine ⟨(st.restrict false false).image, (st.restrict true false).image,
    (st.restrict false true).image, load_eq_ok_iff.mpr ⟨_, rfl⟩, load_eq_ok_iff.mpr ⟨_, rfl⟩,
    load_eq_ok_iff.mpr ⟨_, rfl⟩, ?_, ?_, rfl, rfl, rfl⟩
  · intro image hmem
    simp only [List.mem_cons, List.not_mem_nil, or_false] at hmem
    rcases hmem with rfl | rfl | rfl
    · exact ⟨rfl, rfl⟩
    · exact ⟨rfl, rfl⟩
    · exact ⟨rfl, rfl⟩
  · intro a
    rw [st.lookup?_restrict false false, st.lookup?_restrict true false,
      st.lookup?_restrict false true, st.lookup?_image]
    -- The entry point is neither an import nor an export.
    have hentry : ∀ k : SymbolKind, k ≠ .entryPoint →
        (lastAt? (definitions st.entrySteps) a).any (·.kind = k) = false := by
      intro k hk
      cases hlast : lastAt? (definitions st.entrySteps) a with
      | none => rfl
      | some s =>
          have hkind := kind_of_lastAt? st.places_entrySteps hlast
          simp [hkind, Ne.symm hk]
    cases himport : lastAt? (definitions st.importSteps) a with
    | some s =>
        have hkind := kind_of_lastAt? st.places_importSteps himport
        simp [hkind]
    | none =>
        cases hexport : lastAt? (definitions st.exportSteps) a with
        | some s =>
            have hkind := kind_of_lastAt? st.places_exportSteps hexport
            simp [hkind, hentry .imported (by decide)]
        | none => simp

/-- The four loads of the sample. -/
theorem load_priority_sample :
    ∃ full neither exportsOnly importsOnly : Loaded,
      (load (walking .default true true) OrdinalDatabase.builtin.lookup? sample).outcome
        = .ok full
      ∧ (load (walking .default false false) OrdinalDatabase.builtin.lookup? sample).outcome
        = .ok neither
      ∧ (load (walking .default true false) OrdinalDatabase.builtin.lookup? sample).outcome
        = .ok exportsOnly
      ∧ (load (walking .default false true) OrdinalDatabase.builtin.lookup? sample).outcome
        = .ok importsOnly
      ∧ ∀ a, full.symbols.lookup? a
          = if (importsOnly.symbols.lookup? a).any (·.kind = .imported) then
              importsOnly.symbols.lookup? a
            else if (exportsOnly.symbols.lookup? a).any (·.kind = .exported) then
              exportsOnly.symbols.lookup? a
            else neither.symbols.lookup? a := by
  obtain ⟨st⟩ := sample_stages
  have h : (load (walking .default true true) OrdinalDatabase.builtin.lookup? sample).outcome
      = .ok st.image := load_eq_ok_iff.mpr ⟨st, rfl⟩
  obtain ⟨neither, exportsOnly, importsOnly, h₀, h₁, h₂, -, hlookup, -⟩ :=
    load_priority .default _ sample h
  exact ⟨st.image, neither, exportsOnly, importsOnly, h, h₀, h₁, h₂, hlookup⟩

end Dissect.Pe

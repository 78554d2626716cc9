/-
What the import walk leaves.

# One step

`bindFrom_succ` and `walkFrom_succ` are the two loops one thunk and one
descriptor at a time, free of the list of steps that the loops carry;
`toWalk_bindFrom_succ` and `toWalk_walkFrom_succ` are the same steps as
walks, where the summary is lost with an error.

# The account

A run accounts for its symbols (`Accounts`): the number of imports in
its summary has grown by the number of its definitions and stays within
the limit, and each definition is the symbol of a thunk, which is an
imported one at a mapped address. Runs one after the other keep account together
(`Accounts.after`), so each loop is one induction over its fuel. Nothing
is assumed of the outcome: a run that ends with an error has accounted
for what it did.
-/
import Dissect.Pe.Import
import Dissect.Proofs.Pe.View

namespace Dissect.Pe

/-- A run behind steps that were taken before it. -/
def ImportRun.after (r : ImportRun) (done : List Step) : ImportRun :=
  { r with steps := done ++ r.steps }

-- ========================================================= runs as walks

theorem ImportRun.toWalk_of_fault {r : ImportRun} {e : ImageError} (h : r.fault = some e) :
    r.toWalk = ⟨r.steps, .error e⟩ := by
  rw [toWalk, h]

theorem ImportRun.toWalk_of_no_fault {r : ImportRun} (h : r.fault = none) :
    r.toWalk = ⟨r.steps, .ok r.summary⟩ := by
  rw [toWalk, h]

/-- A run behind steps is a walk behind steps. -/
theorem ImportRun.toWalk_after (r : ImportRun) (done : List Step) :
    (r.after done).toWalk = ⟨done ++ r.toWalk.steps, r.toWalk.outcome⟩ := by
  unfold toWalk after
  cases r.fault with
  | none => rfl
  | some e => rfl

/-- The steps of a walk are those of its run. -/
@[simp] theorem ImportRun.toWalk_steps (r : ImportRun) : r.toWalk.steps = r.steps := by
  unfold toWalk
  split
  · rfl
  · rfl

/-- A walk comes to the summary of its run, if nothing went wrong. -/
theorem ImportRun.toWalk_eq_ok_iff {r : ImportRun} {s : ImportSummary} :
    r.toWalk.outcome = .ok s ↔ r.fault = none ∧ r.summary = s := by
  unfold toWalk
  split
  · next e he => simp [he]
  · next he => simp [he]

namespace Importer

variable {i : Importer}

-- ============================================================= one step

/-- The inner loop, one thunk at a time. -/
theorem bindFrom_succ (i : Importer) (library : String) (names slots fuel index : Nat)
    (s : ImportSummary) :
    i.bindFrom library names slots (fuel + 1) index s []
      = match i.thunk.read i.view (names + index * i.thunk.width) with
        | .error e => .failed s e
        | .ok value =>
          if value = 0 then .idle s
          else if i.limit ≤ s.imports then
            ⟨{ s with capped := true }, [.note (.importLimit i.limit library)], none⟩
          else
            match i.symbolOf library slots index value with
            | .error e => .failed s e
            | .ok symbol =>
              (i.bindFrom library names slots fuel (index + 1)
                { s with imports := s.imports + 1 } []).after
                [.note (.importFound symbol.address symbol.name), .define symbol] := by
  rw [bindFrom]
  cases i.thunk.read i.view (names + index * i.thunk.width) with
  | error e => rfl
  | ok value =>
      refine ite_congr rfl (fun _ => rfl) fun _ => ?_
      refine ite_congr rfl (fun _ => rfl) fun _ => ?_
      cases i.symbolOf library slots index value with
      | error e => rfl
      | ok symbol =>
          dsimp only
          rw [bindFrom_eq_append]
          rfl

/-- The outer loop, one descriptor at a time. -/
theorem walkFrom_succ (i : Importer) (fuel rva : Nat) (s : ImportSummary) :
    i.walkFrom (fuel + 1) rva s []
      = match ImportDescriptor.read i.view rva with
        | .error e => .failed s e
        | .ok d =>
          if d.isNull then .idle s
          else if d.libraryRva = 0 then
            (i.walkFrom fuel (rva + descriptorSize) s []).after
              [.note (.descriptorSkipped rva)]
          else
            let run := i.readDescriptor { s with descriptors := s.descriptors + 1 } d
            if run.fault.isSome || run.summary.capped then run
            else (i.walkFrom fuel (rva + descriptorSize) run.summary []).after run.steps := by
  rw [walkFrom]
  cases ImportDescriptor.read i.view rva with
  | error e => rfl
  | ok d =>
      refine ite_congr rfl (fun _ => rfl) fun _ => ?_
      refine ite_congr rfl (fun _ => ?_) fun _ => ?_
      · rw [walkFrom_eq_append]
        rfl
      · refine ite_congr rfl (fun _ => rfl) fun _ => ?_
        rw [walkFrom_eq_append]
        simp [ImportRun.after]

-- ========================================================== the account

/-- A run from a summary on accounts for what it defines. -/
structure Accounts (i : Importer) (s : ImportSummary) (r : ImportRun) : Prop where
  /-- Each definition is counted. -/
  count : r.summary.imports = s.imports + (definitions r.steps).length
  /-- The count stays within the limit. -/
  within : s.imports ≤ i.limit → r.summary.imports ≤ i.limit
  /-- What is defined is the symbol of a thunk. -/
  bound : ∀ x ∈ definitions r.steps,
    ∃ library slots index value, i.symbolOf library slots index value = .ok x

/-- A run without definitions that does not count has accounted for
all. -/
theorem Accounts.of_nothing {s : ImportSummary} {r : ImportRun}
    (hsteps : definitions r.steps = []) (himports : r.summary.imports = s.imports) :
    i.Accounts s r where
  count := by
    rw [hsteps, himports]
    rfl
  within := fun h => himports ▸ h
  bound := by
    rw [hsteps]
    simp

/-- Runs one after the other keep account together. -/
theorem Accounts.after {s : ImportSummary} {first second : ImportRun}
    (hfirst : i.Accounts s first) (hsecond : i.Accounts first.summary second) :
    i.Accounts s (second.after first.steps) where
  count := by
    have h₁ := hfirst.count
    have h₂ := hsecond.count
    simp only [ImportRun.after, definitions_append, List.length_append]
    omega
  within := fun h => hsecond.within (hfirst.within h)
  bound := by
    intro x hx
    simp only [ImportRun.after, definitions_append, List.mem_append] at hx
    rcases hx with hx | hx
    · exact hfirst.bound x hx
    · exact hsecond.bound x hx

/-- The symbol of a thunk is an imported one, at the slot. -/
theorem symbolOf_eq_ok {library : String} {slots index : Nat} {value : UInt64} {x : Symbol}
    (h : i.symbolOf library slots index value = .ok x) :
    x.kind = .imported
      ∧ i.view.mappedAddress (slots + index * i.thunk.width) = .ok x.address := by
  unfold symbolOf at h
  obtain ⟨address, haddress, h⟩ := except_bind_eq_ok_iff.mp h
  obtain ⟨name, -, h⟩ := except_bind_eq_ok_iff.mp h
  cases h
  exact ⟨rfl, haddress⟩

/-- What a run defines is an imported symbol at a mapped address. -/
theorem Accounts.places {s : ImportSummary} {r : ImportRun} (h : i.Accounts s r) :
    ∀ x ∈ definitions r.steps, i.view.Places .imported x := by
  intro x hx
  obtain ⟨library, slots, index, value, hsymbol⟩ := h.bound x hx
  obtain ⟨hkind, haddress⟩ := symbolOf_eq_ok hsymbol
  exact ⟨hkind, _, haddress⟩

/-- The inner loop accounts for its symbols. -/
theorem accounts_bindFrom (library : String) (names slots fuel index : Nat)
    (s : ImportSummary) :
    i.Accounts s (i.bindFrom library names slots fuel index s []) := by
  induction fuel generalizing index s with
  | zero => exact .of_nothing rfl rfl
  | succ fuel ih =>
      rw [bindFrom_succ]
      split
      · exact .of_nothing rfl rfl
      · split
        · exact .of_nothing rfl rfl
        · split
          · exact .of_nothing rfl rfl
          · next hroom =>
            split
            · exact .of_nothing rfl rfl
            · next x hx =>
              -- The one symbol of this thunk, as a run of its own.
              have hone : i.Accounts s ⟨{ s with imports := s.imports + 1 },
                  [.note (.importFound x.address x.name), .define x], none⟩ :=
                { count := rfl
                  within := fun _ => by
                    show s.imports + 1 ≤ i.limit
                    omega
                  bound := by
                    intro y hy
                    obtain rfl : y = x := by simpa using hy
                    exact ⟨library, slots, index, _, hx⟩ }
              exact hone.after (ih _ _)

/-- A descriptor accounts for its symbols. -/
theorem accounts_readDescriptor (s : ImportSummary) (d : ImportDescriptor) :
    i.Accounts s (i.readDescriptor s d) := by
  unfold readDescriptor
  split
  · exact .of_nothing rfl rfl
  · dsimp only
    split
    · exact .of_nothing rfl rfl
    · split
      · exact .of_nothing rfl rfl
      · next file _ _ _ =>
        -- Whether a library is of the Visual Basic runtime is no count.
        have h := accounts_bindFrom (i := i) (Text.lowerAscii file) d.namesRva.toNat
          d.slotsRva.toNat (entryLimit i.thunk.width) 0
          { s with visualBasic := s.visualBasic || isVisualBasic (Text.lowerAscii file) }
        exact ⟨h.count, h.within, h.bound⟩

/-- The outer loop accounts for its symbols. -/
theorem accounts_walkFrom (fuel rva : Nat) (s : ImportSummary) :
    i.Accounts s (i.walkFrom fuel rva s []) := by
  induction fuel generalizing rva s with
  | zero => exact .of_nothing rfl rfl
  | succ fuel ih =>
      rw [walkFrom_succ]
      split
      · exact .of_nothing rfl rfl
      · next d _ =>
        split
        · exact .of_nothing rfl rfl
        · split
          · have hskip : i.Accounts s ⟨s, [.note (.descriptorSkipped rva)], none⟩ :=
              .of_nothing rfl rfl
            exact hskip.after (ih _ _)
          · have hone := accounts_readDescriptor (i := i)
              { s with descriptors := s.descriptors + 1 } d
            have hone' : i.Accounts s
                (i.readDescriptor { s with descriptors := s.descriptors + 1 } d) :=
              ⟨hone.count, hone.within, hone.bound⟩
            dsimp only
            split
            · exact hone'
            · exact hone'.after (ih _ _)

/-- The walk accounts for its symbols. -/
theorem accounts_walk (s : ImportSummary) (rva : Nat) : i.Accounts s (i.walk s rva) := by
  have h := accounts_walkFrom (i := i) (entryLimit descriptorSize) rva s
  unfold walk
  dsimp only
  split
  · exact h
  · exact
      { count := by simpa using h.count
        within := h.within
        bound := by simpa using h.bound }

-- ========================================================= loops as walks

/-- The inner loop as a walk, one thunk at a time. -/
theorem toWalk_bindFrom_succ (i : Importer) (library : String)
    (names slots fuel index : Nat) (s : ImportSummary) :
    (i.bindFrom library names slots (fuel + 1) index s []).toWalk = (do
      let value ← Walk.read (i.thunk.read i.view (names + index * i.thunk.width))
      if value = 0 then pure s
      else if i.limit ≤ s.imports then do
        Walk.note (.importLimit i.limit library)
        pure { s with capped := true }
      else do
        let symbol ← Walk.read (i.symbolOf library slots index value)
        Walk.note (.importFound symbol.address symbol.name)
        Walk.define symbol
        (i.bindFrom library names slots fuel (index + 1)
          { s with imports := s.imports + 1 } []).toWalk) := by
  rw [bindFrom_succ]
  cases i.thunk.read i.view (names + index * i.thunk.width) with
  | error e => rfl
  | ok value =>
      rw [Walk.read_ok_bind]
      dsimp only
      split
      · rfl
      · split
        · rfl
        · cases i.symbolOf library slots index value with
          | error e => rfl
          | ok symbol => exact ImportRun.toWalk_after _ _

/-- A descriptor as a walk. -/
theorem toWalk_readDescriptor (i : Importer) (s : ImportSummary) (d : ImportDescriptor) :
    (i.readDescriptor s d).toWalk = (do
      let file ← Walk.read (i.view.string d.libraryRva.toNat i.options.maxNameLength.toNat)
      let library := Text.lowerAscii file
      let s := { s with visualBasic := s.visualBasic || isVisualBasic library }
      if d.namesRva = 0 then pure s
      else if d.slotsRva = 0 then
        Walk.fail (.importTable ("descriptor for " ++ library ++ " has no FirstThunk"))
      else
        (i.bindFrom library d.namesRva.toNat d.slotsRva.toNat (entryLimit i.thunk.width) 0 s
          []).toWalk) := by
  unfold readDescriptor
  cases i.view.string d.libraryRva.toNat i.options.maxNameLength.toNat with
  | error e => rfl
  | ok file =>
      rw [Walk.read_ok_bind]
      dsimp only
      split
      · rfl
      · split
        · rfl
        · rfl

/-- The outer loop as a walk, one descriptor at a time. -/
theorem toWalk_walkFrom_succ (i : Importer) (fuel rva : Nat) (s : ImportSummary) :
    (i.walkFrom (fuel + 1) rva s []).toWalk = (do
      let d ← Walk.read (ImportDescriptor.read i.view rva)
      if d.isNull then pure s
      else if d.libraryRva = 0 then do
        Walk.note (.descriptorSkipped rva)
        (i.walkFrom fuel (rva + descriptorSize) s []).toWalk
      else do
        let s' ← (i.readDescriptor { s with descriptors := s.descriptors + 1 } d).toWalk
        if s'.capped then pure s'
        else (i.walkFrom fuel (rva + descriptorSize) s' []).toWalk) := by
  rw [walkFrom_succ]
  cases ImportDescriptor.read i.view rva with
  | error e => rfl
  | ok d =>
      rw [Walk.read_ok_bind]
      dsimp only
      split
      · rfl
      · split
        · exact ImportRun.toWalk_after _ _
        · generalize i.readDescriptor { s with descriptors := s.descriptors + 1 } d = run
          cases hfault : run.fault with
          | some e =>
              rw [if_pos (by simp), ImportRun.toWalk_of_fault hfault, Walk.bind_of_error rfl]
          | none =>
              have hwalk := ImportRun.toWalk_of_no_fault hfault
              rw [hwalk, Walk.bind_of_ok rfl]
              cases hcapped : run.summary.capped with
              | true => simp [hwalk]
              | false => simp [ImportRun.toWalk_after]

/-- The whole walk notes what it came to. -/
theorem toWalk_walk (i : Importer) (s : ImportSummary) (rva : Nat) :
    (i.walk s rva).toWalk = (do
      let s' ← (i.walkFrom (entryLimit descriptorSize) rva s []).toWalk
      Walk.note (.importsWalked s'.descriptors s'.imports)
      pure s') := by
  unfold walk
  dsimp only
  generalize i.walkFrom (entryLimit descriptorSize) rva s [] = run
  cases hfault : run.fault with
  | some e =>
      dsimp only
      rw [ImportRun.toWalk_of_fault hfault, Walk.bind_of_error rfl]
  | none =>
      rw [ImportRun.toWalk_of_no_fault hfault, Walk.bind_of_ok rfl]
      rfl

/-- Thunks do not change the number of descriptors. -/
theorem descriptors_bindFrom (i : Importer) (library : String) (names slots fuel index : Nat)
    (s : ImportSummary) :
    (i.bindFrom library names slots fuel index s []).summary.descriptors = s.descriptors := by
  induction fuel generalizing index s with
  | zero => rfl
  | succ fuel ih =>
      rw [bindFrom_succ]
      split
      · rfl
      · split
        · rfl
        · split
          · rfl
          · split
            · rfl
            · exact ih _ _

/-- Reading a descriptor does not count it. -/
theorem descriptors_readDescriptor (i : Importer) (s : ImportSummary) (d : ImportDescriptor) :
    (i.readDescriptor s d).summary.descriptors = s.descriptors := by
  unfold readDescriptor
  split
  · rfl
  · dsimp only
    split
    · rfl
    · split
      · rfl
      · exact descriptors_bindFrom i _ _ _ _ _ _

end Importer

end Dissect.Pe

/-
That the import walk ends, and within how many reads.

# Loops

Nothing that the walk is told bounds its loops: thunks and descriptors
go on until one ends them. `Loops` is such a loop without a bound, step
after step for as long as steps go on, together with the number of steps
it took. The functions of the walk are loops of this kind with fuel, and
their fuel is never used up (`Scans.exists_loops`): what is read behind
the last address is what a loop without fuel would meet there.

# The bound

A step goes on only if it has read something, so every position but the
last lies behind a byte of the file. A segment puts different positions
behind different bytes, while two segments may share theirs; so each
segment accounts for no more positions than the file has bytes
(`View.count_le`). Both loops step along their table at a fixed width,
and the bound is the same for both (`Scans.length_le`).
-/
import Dissect.Proofs.Pe.Import
import Dissect.Proofs.Pe.Resolution
import Dissect.Proofs.Words
import Mathlib.Data.Finset.Prod

namespace Dissect.Pe

-- ================================================================= loops

section Loops

variable {σ ρ : Type}

/-- A loop that takes a step until one ends it: where it starts, how many
steps it takes and what it comes to. -/
inductive Loops (step : σ → ρ ⊕ σ) : σ → Nat → ρ → Prop
  | done {x : σ} {r : ρ} (h : step x = .inl r) : Loops step x 1 r
  | next {x y : σ} {n : Nat} {r : ρ} (h : step x = .inr y) (hrest : Loops step y n r) :
      Loops step x (n + 1) r

/-- The same loop with fuel, and what it comes to without. -/
def runFor (step : σ → ρ ⊕ σ) (stuck : σ → ρ) : Nat → σ → ρ
  | 0, x => stuck x
  | fuel + 1, x =>
    match step x with
    | .inl r => r
    | .inr y => runFor step stuck fuel y

end Loops

-- ============================================================= positions

namespace View

variable {v : View} {rva rva' n j : Nat}

/-- A segment of the view puts a relative address behind an offset. -/
def ResolvesBy (v : View) (j rva n : Nat) : Prop :=
  ∃ g, v.segments[j]? = some g ∧ g.start.toNat ≤ v.base.toNat + rva
    ∧ n = g.offset.toNat + (v.base.toNat + rva - g.start.toNat)

theorem exists_resolvesBy (h : v.offset rva = .ok n) :
    ∃ j < v.segments.length, v.ResolvesBy j rva n := by
  obtain ⟨a, o, hsum, hoffset, rfl⟩ := offset_eq_ok_iff.mp h
  obtain ⟨g, hmem, hg⟩ := List.exists_of_findSome?_eq_some hoffset
  obtain ⟨hcontains, ho⟩ := Segment.fileOffset?_eq_some_iff.mp hg
  obtain ⟨j, hj, rfl⟩ := List.getElem_of_mem hmem
  have haddress := sum?_eq_some_iff.mp hsum
  refine ⟨j, hj, _, List.getElem?_eq_getElem hj, ?_, ?_⟩
  · rw [← haddress]
    exact (Segment.contains_iff.mp hcontains).1
  · rw [← haddress, ho]

/-- A segment has no two relative addresses behind one offset. -/
theorem ResolvesBy.unique (h : v.ResolvesBy j rva n) (h' : v.ResolvesBy j rva' n) : rva = rva' := by
  obtain ⟨g, hg, hstart, hn⟩ := h
  obtain ⟨g', hg', hstart', hn'⟩ := h'
  obtain rfl : g = g' := Option.some.inj (hg.symm.trans hg')
  omega

/-- There are no more relative addresses with a byte behind them than
bytes for each segment. -/
theorem count_le {f : Nat → Nat} (hf : ∀ k < n, ∀ k' < n, f k = f k' → k = k')
    (hread : ∀ k < n, ∃ o, v.offset (f k) = .ok o ∧ o < v.data.size) :
    n ≤ v.segments.length * v.data.size := by
  have hplace : ∀ k < n, ∃ j o, j < v.segments.length ∧ o < v.data.size
      ∧ v.ResolvesBy j (f k) o := by
    intro k hk
    obtain ⟨o, ho, hlt⟩ := hread k hk
    obtain ⟨j, hj, hresolves⟩ := exists_resolvesBy ho
    exact ⟨j, o, hj, hlt, hresolves⟩
  choose! segment byte hsegment hbyte hresolves using hplace
  -- no two positions share both their segment and their byte
  have hcard := Finset.card_le_card_of_injOn (s := Finset.range n)
    (t := Finset.range v.segments.length ×ˢ Finset.range v.data.size)
    (fun k => (segment k, byte k)) ?_ ?_
  · rwa [Finset.card_range, Finset.card_product, Finset.card_range, Finset.card_range] at hcard
  · intro k hk
    have hk' := Finset.mem_range.mp hk
    simp [hsegment k hk', hbyte k hk']
  · intro k hk k' hk' hsame
    have hlt := Finset.mem_range.mp hk
    have hlt' := Finset.mem_range.mp hk'
    obtain ⟨hj, ho⟩ := Prod.mk.inj hsame
    have hfirst := hresolves k hlt
    rw [hj, ho] at hfirst
    exact hf k hlt k' hlt' (hfirst.unique (hresolves k' hlt'))

end View

-- ========================================================== loops that scan

/-- A loop whose steps read along a view at a width: a step that goes on
has read at its position, and behind the last address there is nothing to
be read. -/
structure Scans {σ ρ : Type} (v : View) (width : Nat) (step : σ → ρ ⊕ σ) (stuck : σ → ρ)
    (position : σ → Nat) : Prop where
  width_pos : 0 < width
  goes_on : ∀ x y, step x = .inr y →
    position y = position x + width ∧ ∃ o, v.offset (position x) = .ok o ∧ o < v.data.size
  ends : ∀ x, 2 ^ 64 ≤ position x → step x = .inl (stuck x)

namespace Scans

variable {σ ρ : Type} {v : View} {width n : Nat} {step : σ → ρ ⊕ σ} {stuck : σ → ρ}
  {position : σ → Nat} {x : σ} {r : ρ}

/-- All steps but the last have read. -/
theorem reads_of_loops (h : Scans v width step stuck position) (hloop : Loops step x n r) :
    ∀ k, k + 1 < n → ∃ o, v.offset (position x + k * width) = .ok o ∧ o < v.data.size := by
  induction hloop with
  | done _ =>
      intro k hk
      omega
  | next hstep _ ih =>
      obtain ⟨hposition, hread⟩ := h.goes_on _ _ hstep
      intro k hk
      cases k with
      | zero =>
          rw [Nat.zero_mul, Nat.add_zero]
          exact hread
      | succ k =>
          obtain ⟨o, ho, hlt⟩ := ih k (by omega)
          rw [hposition] at ho
          rw [Nat.add_one_mul, Nat.add_comm (k * width), ← Nat.add_assoc]
          exact ⟨o, ho, hlt⟩

/-- A scan makes no more steps than there are places in all segments,
and one. Positions that one segment resolves have different offsets in
the file. -/
theorem length_le (h : Scans v width step stuck position) (hloop : Loops step x n r) :
    n ≤ v.segments.length * v.data.size + 1 := by
  have hcount := v.count_le (n := n - 1) (f := fun k => position x + k * width) ?_ ?_
  · omega
  · intro k _ k' _ hsame
    exact Nat.eq_of_mul_eq_mul_right h.width_pos (Nat.add_left_cancel hsame)
  · intro k hk
    exact h.reads_of_loops hloop k (by omega)

/-- With fuel for the addresses that are left, the loop ends as it would
without. -/
theorem exists_loops (h : Scans v width step stuck position) {fuel : Nat}
    (hfuel : 2 ^ 64 ≤ position x + fuel * width) :
    ∃ n, Loops step x n (runFor step stuck fuel x) := by
  induction fuel generalizing x with
  | zero =>
      -- no fuel is left only behind the last address
      rw [Nat.zero_mul, Nat.add_zero] at hfuel
      exact ⟨1, .done (h.ends x hfuel)⟩
  | succ fuel ih =>
      rw [runFor]
      cases hstep : step x with
      | inl r => exact ⟨1, .done hstep⟩
      | inr y =>
          obtain ⟨hposition, -⟩ := h.goes_on x y hstep
          rw [Nat.add_one_mul] at hfuel
          obtain ⟨n, hrest⟩ := ih (x := y) (by omega)
          exact ⟨n + 1, .next hstep hrest⟩

end Scans

/-- The fuel of a table lasts to the last address. -/
theorem le_entryLimit_mul {width : Nat} (hwidth : 0 < width) (start : Nat) :
    2 ^ 64 ≤ start + entryLimit width * width := by
  have hfuel : 2 ^ 64 < width * entryLimit width := Nat.lt_mul_div_succ _ hwidth
  rw [Nat.mul_comm] at hfuel
  omega

-- ================================================================= reads

namespace View

variable {α : Type} {v : View} {rva : Nat}

/-- Behind the last address nothing is read. -/
theorem readAt_of_le (read? : Nat → Option α) (h : 2 ^ 64 ≤ rva) :
    v.readAt read? rva = .error (.unmapped rva) := by
  unfold readAt
  rw [offset_of_overflow (by omega)]
  rfl

/-- What is read only inside the file has a byte of it behind it. -/
theorem exists_offset_of_readAt {read? : Nat → Option α} {a : α} (h : v.readAt read? rva = .ok a)
    (hfile : ∀ o, read? o = some a → o < v.data.size) :
    ∃ o, v.offset rva = .ok o ∧ o < v.data.size := by
  obtain ⟨o, ho, hread⟩ := readAt_eq_ok_iff.mp h
  exact ⟨o, ho, hfile o hread⟩

theorem exists_offset_of_word32 {w : UInt32} (h : v.word32 rva = .ok w) :
    ∃ o, v.offset rva = .ok o ∧ o < v.data.size := by
  apply exists_offset_of_readAt h
  intro o ho
  obtain ⟨hle, -⟩ := Bytes.word32?_eq_some_iff.mp ho
  omega

end View

/-- Past the last address there are no thunks. -/
theorem Thunk.read_of_le {t : Thunk} {v : View} {rva : Nat} (h : 2 ^ 64 ≤ rva) :
    t.read v rva = .error (.unmapped rva) := by
  cases t with
  | narrow =>
      rw [read, View.word32, View.readAt_of_le _ h]
      rfl
  | wide => exact View.readAt_of_le _ h

/-- The offset of a thunk that was read is in the file. -/
theorem Thunk.exists_offset {t : Thunk} {v : View} {rva : Nat} {value : UInt64}
    (h : t.read v rva = .ok value) : ∃ o, v.offset rva = .ok o ∧ o < v.data.size := by
  cases t with
  | narrow =>
      rw [read] at h
      cases hword : v.word32 rva with
      | error e =>
          rw [hword] at h
          cases h
      | ok w => exact View.exists_offset_of_word32 hword
  | wide =>
      apply View.exists_offset_of_readAt h
      intro o ho
      obtain ⟨hle, -⟩ := Bytes.word64?_eq_some_iff.mp ho
      omega

namespace Importer

-- ============================================================= the thunks

/-- One thunk: the loop is over, or goes on with the next. The index, the
summary and the steps so far, last first. -/
def thunkStep (i : Importer) (library : String) (names slots : Nat) :
    Nat × ImportSummary × List Step → ImportRun ⊕ Nat × ImportSummary × List Step
  | (index, s, done) =>
    match i.thunk.read i.view (names + index * i.thunk.width) with
    | .error e => .inl ⟨s, done.reverse, some e⟩
    | .ok value =>
      if value = 0 then .inl ⟨s, done.reverse, none⟩
      else if i.limit ≤ s.imports then
        .inl ⟨{ s with capped := true },
          (.note (.importLimit i.limit library) :: done).reverse, none⟩
      else
        match i.symbolOf library slots index value with
        | .error e => .inl ⟨s, done.reverse, some e⟩
        | .ok x =>
          .inr (index + 1, { s with imports := s.imports + 1 },
            .define x :: .note (.importFound x.address x.name) :: done)

/-- What the loop comes to at a thunk without an address. -/
def thunkStuck (i : Importer) (names : Nat) : Nat × ImportSummary × List Step → ImportRun
  | (index, s, done) => ⟨s, done.reverse, some (.unmapped (names + index * i.thunk.width))⟩

theorem bindFrom_eq_runFor (i : Importer) (library : String) (names slots fuel index : Nat)
    (s : ImportSummary) (done : List Step) :
    i.bindFrom library names slots fuel index s done
      = runFor (i.thunkStep library names slots) (i.thunkStuck names) fuel (index, s, done) := by
  induction fuel generalizing index s done with
  | zero => rfl
  | succ fuel ih =>
      rw [bindFrom, runFor, thunkStep]
      cases i.thunk.read i.view (names + index * i.thunk.width) with
      | error e => rfl
      | ok value =>
          dsimp only
          by_cases hzero : value = 0
          · rw [if_pos hzero, if_pos hzero]
          · rw [if_neg hzero, if_neg hzero]
            by_cases hfull : i.limit ≤ s.imports
            · rw [if_pos hfull, if_pos hfull]
            · rw [if_neg hfull, if_neg hfull]
              cases i.symbolOf library slots index value with
              | error e => rfl
              | ok x => exact ih _ _ _

theorem width_pos (t : Thunk) : 0 < t.width := by
  cases t with
  | narrow => decide
  | wide => decide

/-- A step over a thunk reads it and goes on by its width. -/
theorem scans_thunkStep (i : Importer) (library : String) (names slots : Nat) :
    Scans i.view i.thunk.width (i.thunkStep library names slots) (i.thunkStuck names)
      fun x => names + x.1 * i.thunk.width where
  width_pos := width_pos i.thunk
  goes_on := by
    rintro ⟨index, s, done⟩ y hstep
    rw [thunkStep] at hstep
    cases hread : i.thunk.read i.view (names + index * i.thunk.width) with
    | error e =>
        rw [hread] at hstep
        cases hstep
    | ok value =>
        rw [hread] at hstep
        dsimp only at hstep
        by_cases hzero : value = 0
        · rw [if_pos hzero] at hstep
          cases hstep
        · rw [if_neg hzero] at hstep
          by_cases hfull : i.limit ≤ s.imports
          · rw [if_pos hfull] at hstep
            cases hstep
          · rw [if_neg hfull] at hstep
            cases hsymbol : i.symbolOf library slots index value with
            | error e =>
                rw [hsymbol] at hstep
                cases hstep
            | ok x =>
                rw [hsymbol] at hstep
                cases hstep
                refine ⟨?_, Thunk.exists_offset hread⟩
                show names + (index + 1) * i.thunk.width = _
                rw [Nat.add_one_mul, Nat.add_assoc]
  ends := by
    rintro ⟨index, s, done⟩ hposition
    rw [thunkStep, Thunk.read_of_le hposition]
    rfl

-- ======================================================== the descriptors

/-- One descriptor: the loop is over, or goes on with the next. The
relative address, the summary and the steps so far, last first. -/
def descriptorStep (i : Importer) :
    Nat × ImportSummary × List Step → ImportRun ⊕ Nat × ImportSummary × List Step
  | (rva, s, done) =>
    match ImportDescriptor.read i.view rva with
    | .error e => .inl ⟨s, done.reverse, some e⟩
    | .ok d =>
      if d.isNull then .inl ⟨s, done.reverse, none⟩
      else if d.libraryRva = 0 then
        .inr (rva + descriptorSize, s, .note (.descriptorSkipped rva) :: done)
      else
        let run := i.readDescriptor { s with descriptors := s.descriptors + 1 } d
        if run.fault.isSome || run.summary.capped then
          .inl ⟨run.summary, done.reverse ++ run.steps, run.fault⟩
        else .inr (rva + descriptorSize, run.summary, run.steps.reverse ++ done)

/-- What the loop comes to at a descriptor without an address. -/
def descriptorStuck : Nat × ImportSummary × List Step → ImportRun
  | (rva, s, done) => ⟨s, done.reverse, some (.unmapped rva)⟩

theorem walkFrom_eq_runFor (i : Importer) (fuel rva : Nat) (s : ImportSummary)
    (done : List Step) :
    i.walkFrom fuel rva s done = runFor i.descriptorStep descriptorStuck fuel (rva, s, done) := by
  induction fuel generalizing rva s done with
  | zero => rfl
  | succ fuel ih =>
      rw [walkFrom, runFor, descriptorStep]
      cases ImportDescriptor.read i.view rva with
      | error e => rfl
      | ok d =>
          dsimp only
          by_cases hnull : d.isNull = true
          · rw [if_pos hnull, if_pos hnull]
          · rw [if_neg hnull, if_neg hnull]
            by_cases hname : d.libraryRva = 0
            · rw [if_pos hname, if_pos hname]
              exact ih _ _ _
            · rw [if_neg hname, if_neg hname]
              split
              · rfl
              · exact ih _ _ _

/-- A step over a descriptor reads it and goes on by its size. -/
theorem scans_descriptorStep (i : Importer) :
    Scans i.view descriptorSize i.descriptorStep descriptorStuck Prod.fst where
  width_pos := by decide
  goes_on := by
    rintro ⟨rva, s, done⟩ y hstep
    rw [descriptorStep] at hstep
    cases hread : ImportDescriptor.read i.view rva with
    | error e =>
        rw [hread] at hstep
        cases hstep
    | ok d =>
        obtain ⟨w, hword, -⟩ := except_bind_eq_ok_iff.mp hread
        rw [hread] at hstep
        dsimp only at hstep
        refine ⟨?_, View.exists_offset_of_word32 hword⟩
        by_cases hnull : d.isNull = true
        · rw [if_pos hnull] at hstep
          cases hstep
        · rw [if_neg hnull] at hstep
          by_cases hname : d.libraryRva = 0
          · rw [if_pos hname] at hstep
            cases hstep
            rfl
          · rw [if_neg hname] at hstep
            split at hstep
            · cases hstep
            · cases hstep
              rfl
  ends := by
    rintro ⟨rva, s, done⟩ hposition
    have hread : ImportDescriptor.read i.view rva = .error (.unmapped rva) := by
      unfold ImportDescriptor.read
      rw [View.word32, View.readAt_of_le _ hposition]
      rfl
    rw [descriptorStep, hread]
    rfl

-- =============================================================== the walk

/-- A run with the note of what it came to. -/
def closed (r : ImportRun) : ImportRun :=
  match r.fault with
  | some _ => r
  | none =>
    { r with steps := r.steps ++ [.note (.importsWalked r.summary.descriptors r.summary.imports)] }

/-- Whatever the tables of an image hold, the walk comes to its end: it
reads no more descriptors, and for each library no more thunks, than
there are segments times bytes in the file and one. -/
theorem walk_ends (i : Importer) (rva : Nat) (s : ImportSummary) :
    (∃ reads run, Loops i.descriptorStep (rva, s, []) reads run ∧ i.walk s rva = closed run
        ∧ reads ≤ i.view.segments.length * i.view.data.size + 1)
      ∧ ∀ (library : String) (names slots : Nat) (s' : ImportSummary),
        ∃ reads, Loops (i.thunkStep library names slots) (0, s', []) reads
            (i.bindFrom library names slots (entryLimit i.thunk.width) 0 s' [])
          ∧ reads ≤ i.view.segments.length * i.view.data.size + 1 := by
  constructor
  · have hscans := i.scans_descriptorStep
    obtain ⟨reads, hloop⟩ := hscans.exists_loops (x := (rva, s, []))
      (le_entryLimit_mul hscans.width_pos _)
    rw [← walkFrom_eq_runFor] at hloop
    exact ⟨reads, _, hloop, rfl, hscans.length_le hloop⟩
  · intro library names slots s'
    have hscans := i.scans_thunkStep library names slots
    obtain ⟨reads, hloop⟩ := hscans.exists_loops (x := (0, s', []))
      (le_entryLimit_mul hscans.width_pos _)
    rw [← bindFrom_eq_runFor] at hloop
    exact ⟨reads, hloop, hscans.length_le hloop⟩

end Importer

end Dissect.Pe

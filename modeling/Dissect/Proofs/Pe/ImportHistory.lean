/-
An importer over any history of requests.

# Histories

An importer can be asked for the imports of descriptors, one request
after another, and for those of a directory. It keeps one account for
all of them. A request that fails leaves what it did up to its error: its
definitions stay, and the next request goes on from its account.

# One run

What a run can do is said twice. `Accounts` has it that definitions are
counted and the count is within the limit. `Confined` has it that flags
once raised stay raised and that what is defined is allowed. Runs one
after the other are confined together (`Confined.after`), so each loop is
one induction over its fuel, and every way out of it is a run that did
nothing more.

What is allowed is a slot of a descriptor. For a directory it is one of
the descriptors that the walk gets to (`Importer.Visits`), which depends
on the account that it starts with: a walk is over when the limit is met.
-/
import Dissect.Proofs.Pe.Import
import Dissect.Proofs.Symbol.Table
import Mathlib.Data.List.Induction

namespace Dissect.Pe

-- ========================================================= confined runs

/-- Flags once raised stay raised. -/
structure ImportSummary.Keeps (s s' : ImportSummary) : Prop where
  visualBasic : s.visualBasic = true → s'.visualBasic = true
  capped : s.capped = true → s'.capped = true

theorem ImportSummary.Keeps.refl (s : ImportSummary) : s.Keeps s := ⟨id, id⟩

theorem ImportSummary.Keeps.trans {s s' s'' : ImportSummary} (h : s.Keeps s')
    (h' : s'.Keeps s'') : s.Keeps s'' where
  visualBasic := fun hflag => h'.visualBasic (h.visualBasic hflag)
  capped := fun hflag => h'.capped (h.capped hflag)

/-- A run from a summary on that lowers no flag and defines only what is
allowed. -/
structure ImportRun.Confined (allowed : Symbol → Prop) (s : ImportSummary) (r : ImportRun) :
    Prop where
  keeps : s.Keeps r.summary
  defines : ∀ x ∈ definitions r.steps, allowed x

namespace ImportRun.Confined

variable {allowed : Symbol → Prop} {s : ImportSummary}

theorem of_nothing {r : ImportRun} (hkeeps : s.Keeps r.summary)
    (hsteps : definitions r.steps = []) : r.Confined allowed s where
  keeps := hkeeps
  defines := by
    rw [hsteps]
    simp

/-- Runs one after the other are confined together. -/
theorem after {first second : ImportRun} (hfirst : first.Confined allowed s)
    (hsecond : second.Confined allowed first.summary) :
    (second.after first.steps).Confined allowed s where
  keeps := hfirst.keeps.trans hsecond.keeps
  defines := by
    intro x hx
    simp only [ImportRun.after, definitions_append, List.mem_append] at hx
    rcases hx with hx | hx
    · exact hfirst.defines x hx
    · exact hsecond.defines x hx

theorem weaken {allowed' : Symbol → Prop} {r : ImportRun} (h : r.Confined allowed s)
    (himp : ∀ x, allowed x → allowed' x) : r.Confined allowed' s :=
  ⟨h.keeps, fun x hx => himp x (h.defines x hx)⟩

end ImportRun.Confined

namespace Importer

variable {i : Importer}

-- ============================================================= the loops

/-- The symbol of some thunk whose slot is in a table. -/
def BindsIn (i : Importer) (slots : Nat) (x : Symbol) : Prop :=
  ∃ library index value, i.symbolOf library slots index value = .ok x

/-- A symbol of a thunk is an imported one at a mapped address, which is
that of a slot. -/
theorem BindsIn.slot {slots : Nat} {x : Symbol} (h : i.BindsIn slots x) :
    x.kind = .imported ∧ ∃ index,
      i.view.mappedAddress (slots + index * i.thunk.width) = .ok x.address
        ∧ x.address.toNat = i.view.base.toNat + (slots + index * i.thunk.width) := by
  obtain ⟨library, index, value, hsymbol⟩ := h
  obtain ⟨hkind, hmapped⟩ := symbolOf_eq_ok hsymbol
  obtain ⟨hsum, -⟩ := View.mappedAddress_eq_ok_iff.mp hmapped
  exact ⟨hkind, index, hmapped, sum?_eq_some_iff.mp hsum⟩

/-- The thunks of a library are bound to slots of its address table. -/
theorem confined_bindFrom (library : String) (names slots fuel index : Nat)
    (s : ImportSummary) :
    (i.bindFrom library names slots fuel index s []).Confined (i.BindsIn slots) s := by
  induction fuel generalizing index s with
  | zero => exact .of_nothing (.refl s) rfl
  | succ fuel ih =>
      rw [bindFrom_succ]
      split
      · exact .of_nothing (.refl s) rfl
      · next value _ =>
        split
        · exact .of_nothing (.refl s) rfl
        · split
          · exact .of_nothing ⟨id, fun _ => rfl⟩ rfl
          · split
            · exact .of_nothing (.refl s) rfl
            · next x hx =>
              -- the one symbol of this thunk, as a run of its own
              have hone : ImportRun.Confined (i.BindsIn slots) s
                  ⟨{ s with imports := s.imports + 1 },
                    [.note (.importFound x.address x.name), .define x], none⟩ := by
                refine ⟨⟨id, id⟩, ?_⟩
                intro y hy
                obtain rfl : y = x := by simpa using hy
                exact ⟨library, index, value, hx⟩
              exact hone.after (ih _ _)

/-- A descriptor's symbols are in its own address table. -/
theorem confined_readDescriptor (s : ImportSummary) (d : ImportDescriptor) :
    (i.readDescriptor s d).Confined (i.BindsIn d.slotsRva.toNat) s := by
  unfold readDescriptor
  split
  · exact .of_nothing (.refl s) rfl
  · next file _ =>
    have hraised : s.Keeps
        { s with visualBasic := s.visualBasic || isVisualBasic (Text.lowerAscii file) } :=
      ⟨fun h => by simp [h], id⟩
    dsimp only
    split
    · exact .of_nothing hraised rfl
    · split
      · exact .of_nothing hraised rfl
      · have hbind := confined_bindFrom (i := i) (Text.lowerAscii file) d.namesRva.toNat
          d.slotsRva.toNat (entryLimit i.thunk.width) 0
          { s with visualBasic := s.visualBasic || isVisualBasic (Text.lowerAscii file) }
        exact ⟨hraised.trans hbind.keeps, hbind.defines⟩

/-- The run of a descriptor that a walk has counted. -/
def readCounted (i : Importer) (s : ImportSummary) (d : ImportDescriptor) : ImportRun :=
  i.readDescriptor { s with descriptors := s.descriptors + 1 } d

/-- A walk from a relative address on, with an account, gets to a
descriptor: those before it have ended neither the table nor the walk. -/
inductive Visits (i : Importer) (d : ImportDescriptor) : Nat → ImportSummary → Prop
  | here {rva : Nat} {s : ImportSummary} (hread : ImportDescriptor.read i.view rva = .ok d)
      (hnull : d.isNull = false) (hnamed : d.libraryRva ≠ 0) : Visits i d rva s
  | pass {rva : Nat} {s : ImportSummary} {d' : ImportDescriptor}
      (hread : ImportDescriptor.read i.view rva = .ok d') (hnull : d'.isNull = false)
      (hunnamed : d'.libraryRva = 0) (hrest : Visits i d (rva + descriptorSize) s) :
      Visits i d rva s
  | next {rva : Nat} {s : ImportSummary} {d' : ImportDescriptor}
      (hread : ImportDescriptor.read i.view rva = .ok d') (hnull : d'.isNull = false)
      (hnamed : d'.libraryRva ≠ 0) (hfault : (i.readCounted s d').fault = none)
      (hroom : (i.readCounted s d').summary.capped = false)
      (hrest : Visits i d (rva + descriptorSize) (i.readCounted s d').summary) :
      Visits i d rva s

/-- The symbol of some thunk of a descriptor that a walk gets to. -/
def BindsFrom (i : Importer) (rva : Nat) (s : ImportSummary) (x : Symbol) : Prop :=
  ∃ d, i.Visits d rva s ∧ i.BindsIn d.slotsRva.toNat x

/-- A walk's symbols are in the address tables of descriptors that it
comes to. -/
theorem confined_walkFrom (fuel rva : Nat) (s : ImportSummary) :
    (i.walkFrom fuel rva s []).Confined (i.BindsFrom rva s) s := by
  induction fuel generalizing rva s with
  | zero => exact .of_nothing (.refl s) rfl
  | succ fuel ih =>
      rw [walkFrom_succ]
      split
      · exact .of_nothing (.refl s) rfl
      · next d hread =>
        split
        · exact .of_nothing (.refl s) rfl
        · next hnull =>
          have hnull : d.isNull = false := by simpa using hnull
          split
          · next hunnamed =>
            have hskip : ImportRun.Confined (i.BindsFrom rva s) s
                ⟨s, [.note (.descriptorSkipped rva)], none⟩ := .of_nothing (.refl s) rfl
            refine hskip.after ((ih _ _).weaken ?_)
            intro x ⟨d', hvisits, hbinds⟩
            exact ⟨d', .pass hread hnull hunnamed hvisits, hbinds⟩
          · next hnamed =>
            have hone : (i.readCounted s d).Confined (i.BindsFrom rva s) s := by
              have h := confined_readDescriptor (i := i)
                { s with descriptors := s.descriptors + 1 } d
              refine ⟨⟨h.keeps.visualBasic, h.keeps.capped⟩, ?_⟩
              intro x hx
              exact ⟨d, .here hread hnull hnamed, h.defines x hx⟩
            dsimp only
            split
            · exact hone
            · next hgoes =>
              have hgoes : (i.readCounted s d).fault = none
                  ∧ (i.readCounted s d).summary.capped = false := by
                simpa [readCounted] using hgoes
              refine hone.after ((ih _ _).weaken ?_)
              intro x ⟨d', hvisits, hbinds⟩
              exact ⟨d', .next hread hnull hnamed hgoes.1 hgoes.2 hvisits, hbinds⟩

/-- The closing event defines nothing. -/
theorem confined_walk (s : ImportSummary) (rva : Nat) :
    (i.walk s rva).Confined (i.BindsFrom rva s) s := by
  have h := confined_walkFrom (i := i) (entryLimit descriptorSize) rva s
  unfold walk
  dsimp only
  split
  · exact h
  · exact ⟨h.keeps, by simpa using h.defines⟩

end Importer

-- ============================================================= histories

/-- What an importer can be asked for, each time with a width of thunks:
the imports of a descriptor, wherever it is from, or those of the
directory at a relative address. -/
inductive ImportRequest where
  | descriptor (t : Thunk) (d : ImportDescriptor)
  | directory (t : Thunk) (rva : UInt32)

namespace ImportRequest

/-- The importer of the width that is asked for. -/
def importer (i : Importer) : ImportRequest → Importer
  | .descriptor t _ | .directory t _ => { i with thunk := t }

/-- The run of a request. -/
def answer (i : Importer) (s : ImportSummary) (q : ImportRequest) : ImportRun :=
  match q with
  | .descriptor _ d => (q.importer i).readDescriptor s d
  | .directory _ rva => (q.importer i).walk s rva.toNat

/-- A request processes a descriptor: it asks for it, or the walk of the
directory gets to it. -/
def Processes (i : Importer) (s : ImportSummary) (q : ImportRequest) (d : ImportDescriptor) :
    Prop :=
  match q with
  | .descriptor _ d' => d' = d
  | .directory _ rva => (q.importer i).Visits d rva.toNat s

variable {i : Importer} {s : ImportSummary} {q : ImportRequest}

@[simp] theorem view_importer : (q.importer i).view = i.view := by
  cases q <;> rfl

@[simp] theorem limit_importer : (q.importer i).limit = i.limit := by
  cases q <;> rfl

/-- Every request is accounted for, whichever it is. -/
theorem accounts_answer : (q.importer i).Accounts s (q.answer i s) := by
  cases q with
  | descriptor t d => exact Importer.accounts_readDescriptor s d
  | directory t rva => exact Importer.accounts_walk s rva.toNat

/-- A request defines symbols only for descriptors that it processes. -/
theorem confined_answer :
    (q.answer i s).Confined
      (fun x => ∃ d, q.Processes i s d ∧ (q.importer i).BindsIn d.slotsRva.toNat x) s := by
  cases q with
  | descriptor t d =>
      refine (Importer.confined_readDescriptor s d).weaken ?_
      intro x hx
      exact ⟨d, rfl, hx⟩
  | directory t rva => exact Importer.confined_walk s rva.toNat

end ImportRequest

namespace Importer

variable {i : Importer} {requests : List ImportRequest}

/-- Requests one after the other, from a new account on. An error ends
its own request and no other, so the steps are those of all of them. -/
def serve (i : Importer) (requests : List ImportRequest) : ImportRun :=
  requests.foldl (fun r q => (q.answer i r.summary).after r.steps) (.idle {})

/-- The last request is answered with what the others have summed up. -/
theorem serve_concat (i : Importer) (requests : List ImportRequest) (q : ImportRequest) :
    i.serve (requests ++ [q])
      = (q.answer i (i.serve requests).summary).after (i.serve requests).steps := by
  unfold serve
  rw [List.foldl_append]
  rfl

/-- All requests together are counted, within the limit. -/
theorem imports_serve (i : Importer) (requests : List ImportRequest) :
    (i.serve requests).summary.imports = (definitions (i.serve requests).steps).length
      ∧ (i.serve requests).summary.imports ≤ i.limit := by
  induction requests using List.reverseRecOn with
  | nil => exact ⟨rfl, Nat.zero_le _⟩
  | append_singleton before q ih =>
      have hanswer := q.accounts_answer (i := i) (s := (i.serve before).summary)
      have hcount := hanswer.count
      have hwithin := hanswer.within
      rw [ImportRequest.limit_importer] at hwithin
      rw [serve_concat]
      simp only [ImportRun.after, definitions_append, List.length_append]
      exact ⟨by omega, hwithin ih.2⟩

/-- Later requests lower no flag. -/
theorem keeps_serve_append (i : Importer) (before later : List ImportRequest) :
    (i.serve before).summary.Keeps (i.serve (before ++ later)).summary := by
  induction later using List.reverseRecOn with
  | nil =>
      rw [List.append_nil]
      exact .refl _
  | append_singleton later q ih =>
      rw [← List.append_assoc, serve_concat]
      exact ih.trans q.confined_answer.keeps

/-- Each definition of a history is a slot of a descriptor that one of the
requests processed. -/
theorem exists_request_of_mem_definitions {x : Symbol}
    (hx : x ∈ definitions (i.serve requests).steps) :
    ∃ before q later, requests = before ++ q :: later
      ∧ ∃ d, q.Processes i (i.serve before).summary d
        ∧ (q.importer i).BindsIn d.slotsRva.toNat x := by
  induction requests using List.reverseRecOn with
  | nil => cases hx
  | append_singleton before q ih =>
      rw [serve_concat] at hx
      simp only [ImportRun.after, definitions_append, List.mem_append] at hx
      rcases hx with hx | hx
      · obtain ⟨before', q', later, hsplit, hslot⟩ := ih hx
        exact ⟨before', q', later ++ [q], by simp [hsplit], hslot⟩
      · exact ⟨before, q, [], rfl, q.confined_answer.defines x hx⟩

/-- A symbol that requests have put at an address: an imported one, at a
mapped slot of a descriptor that one of them processed. -/
structure Placed (i : Importer) (requests : List ImportRequest) (a : Address) (x : Symbol) :
    Prop where
  kind : x.kind = .imported
  address : x.address = a
  slot : ∃ before q later d index, requests = before ++ q :: later
    ∧ q.Processes i (i.serve before).summary d
    ∧ i.view.mappedAddress (d.slotsRva.toNat + index * (q.importer i).thunk.width) = .ok a
    ∧ a.toNat
      = i.view.base.toNat + (d.slotsRva.toNat + index * (q.importer i).thunk.width)

/-- What a history of requests leaves of an account and of a table. -/
structure Maintains (i : Importer) (requests : List ImportRequest) (table : SymbolTable) :
    Prop where
  count : (i.serve requests).summary.imports = (definitions (i.serve requests).steps).length
  limit : (i.serve requests).summary.imports ≤ i.limit
  flags : ∀ before later, requests = before ++ later →
    (i.serve before).summary.Keeps (i.serve requests).summary
  entries : ∀ a,
    (table.after (i.serve requests).steps).lookup? a = table.lookup? a
      ∨ ∃ x, (table.after (i.serve requests).steps).lookup? a = some x
        ∧ i.Placed requests a x
  size : (table.after (i.serve requests).steps).size
    ≤ table.size + (i.serve requests).summary.imports

/-- Whatever an importer is asked for and whatever fails, it maintains
its account and the table. -/
theorem serve_maintains (i : Importer) (requests : List ImportRequest) (table : SymbolTable) :
    i.Maintains requests table := by
  obtain ⟨hcount, hlimit⟩ := i.imports_serve requests
  refine ⟨hcount, hlimit, ?_, ?_, ?_⟩
  · intro before later hsplit
    rw [hsplit]
    exact i.keeps_serve_append before later
  · intro a
    rw [SymbolTable.after, SymbolTable.lookup?_defineAll]
    cases hlast : lastAt? (definitions (i.serve requests).steps) a with
    | none => exact Or.inl rfl
    | some x =>
        obtain ⟨hmem, haddress⟩ := lastAt?_eq_some hlast
        obtain ⟨before, q, later, hsplit, d, hprocesses, hbinds⟩ :=
          exists_request_of_mem_definitions hmem
        obtain ⟨hkind, index, hmapped, hplace⟩ := hbinds.slot
        rw [ImportRequest.view_importer, haddress] at hmapped
        rw [ImportRequest.view_importer, haddress] at hplace
        exact Or.inr ⟨x, rfl, hkind, haddress,
          before, q, later, d, index, hsplit, hprocesses, hmapped, hplace⟩
  · rw [hcount]
    exact SymbolTable.size_defineAll_le table _

end Importer

end Dissect.Pe

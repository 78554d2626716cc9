/-
A session over any history of loads.

# One load

What a load comes to is a matter of the options, the names and the file
(`load_snd`), and it either puts an image in the place of the one held
or leaves everything as it was (`load_fst`).

# Histories

So a history leaves what the last file in it leaves that could be loaded
(`loads_eq_last`), at whatever stage the loads after it failed. Such a
session cannot be told from one that was shown this file alone, and
neither can the next load.
-/
import Dissect.Proofs.Pe.Invariant

namespace Dissect.Pe.Session

/-- The session after loads one after the other. -/
def loads (s : Session) (history : List Bytes) : Session :=
  history.foldl (fun s data => (s.load data).1) s

/-- The file can be loaded. -/
def accepts (s : Session) (data : Bytes) : Bool := (s.load data).2.outcome.isOk

/-- All that can be asked of a session. -/
structure Observation where
  isLoaded : Bool
  headers : Option Headers
  bits : Nat
  processor : Option String
  segments : List Segment
  symbols : Option SymbolTable
  entryPoint : Option Address
  variant : Variant
  analyzer : Analyzer
  offset : Address → Except LoadError UInt64
  rvaToOffset : UInt64 → Except LoadError UInt64
  segmentIndex : Address → Option Nat

/-- What a session answers. -/
def observe (s : Session) : Observation where
  isLoaded := s.image.isSome
  headers := s.headers?
  bits := s.toImage.bits
  processor := s.toImage.processor
  segments := s.segments
  symbols := s.toImage.symbols
  entryPoint := s.entryPoint?
  variant := s.variant
  analyzer := s.toImage.analyzer
  offset := s.toImage.offset
  rvaToOffset := s.rvaToOffset
  segmentIndex := s.toImage.segmentIndex?

-- ============================================================== one load

/-- A load puts its image in the place of the one held, if it has one. -/
theorem load_fst (s : Session) (data : Bytes) :
    (s.load data).1
      = { s with image := (Pe.load s.options s.names data).outcome.toOption.or s.image } := by
  unfold load
  dsimp only
  cases (Pe.load s.options s.names data).outcome with
  | error e => rfl
  | ok image => rfl

/-- What a load reports has nothing to do with the image held. -/
theorem load_snd (s : Session) (data : Bytes) :
    (s.load data).2
      = ⟨(Pe.load s.options s.names data).events,
          (Pe.load s.options s.names data).outcome.map fun _ => ()⟩ := by
  unfold load
  dsimp only
  cases (Pe.load s.options s.names data).outcome with
  | error e => rfl
  | ok image => rfl

/-- A session accepts what has an image. -/
theorem accepts_eq (s : Session) (data : Bytes) :
    s.accepts data = (Pe.load s.options s.names data).outcome.toOption.isSome := by
  unfold accepts
  rw [load_snd]
  cases (Pe.load s.options s.names data).outcome with
  | error e => rfl
  | ok image => rfl

/-- The files that are accepted do not change with a load. -/
theorem accepts_load (s : Session) (data : Bytes) : (s.load data).1.accepts = s.accepts := by
  funext next
  rw [accepts_eq, accepts_eq, load_fst]

/-- A load that fails leaves the session as it was. -/
theorem load_of_rejected {s : Session} {data : Bytes} (h : s.accepts data = false) :
    (s.load data).1 = s := by
  rw [accepts_eq, Option.isSome_eq_false_iff, Option.isNone_iff_eq_none] at h
  rw [load_fst, h, Option.none_or]

/-- A load that succeeds leaves the same whether or not another came
before it. -/
theorem load_load_of_accepts {s : Session} {data : Bytes} (h : s.accepts data = true)
    (earlier : Bytes) : ((s.load earlier).1.load data).1 = (s.load data).1 := by
  rw [accepts_eq, Option.isSome_iff_exists] at h
  obtain ⟨image, himage⟩ := h
  rw [load_fst s earlier, load_fst, load_fst s data]
  dsimp only
  rw [himage, Option.some_or, Option.some_or]

-- ============================================================= histories

/-- A history leaves what the last file in it leaves that is accepted. -/
theorem loads_eq_last (s : Session) (history : List Bytes) :
    s.loads history
      = match (history.filter s.accepts).getLast? with
        | some data => (s.load data).1
        | none => s := by
  induction history generalizing s with
  | nil => rfl
  | cons data rest ih =>
      have hstep : s.loads (data :: rest) = (s.load data).1.loads rest := rfl
      rw [hstep, ih, accepts_load]
      by_cases hdata : s.accepts data = true
      · rw [List.filter_cons_of_pos hdata, List.getLast?_cons]
        cases hlast : (rest.filter s.accepts).getLast? with
        | none => rfl
        | some later =>
            have hlater := (List.mem_filter.mp (List.mem_of_getLast? hlast)).2
            exact load_load_of_accepts hlater data
      · rw [List.filter_cons_of_neg hdata]
        rw [load_of_rejected (Bool.eq_false_iff.mpr hdata)]

/-- No history touches the options and the names. -/
theorem loads_eq_with_image (s : Session) (history : List Bytes) :
    ∃ image, s.loads history = { s with image := image } := by
  rw [loads_eq_last]
  split
  · next data _ => exact ⟨_, load_fst s data⟩
  · exact ⟨s.image, rfl⟩

/-- After any history of loads, with successes and failures in any
order, a session answers everything as a fresh one does that has loaded
nothing but the last file that could be loaded, or nothing at all if
there was none; and the next load reports what it reports to a fresh
session, its outcome included. -/
theorem observe_loads (options : LoadOptions) (names : OrdinalNames) (history : List Bytes) :
    let fresh : Session := { options := options, names := names }
    (fresh.loads history).observe
        = (match (history.filter fresh.accepts).getLast? with
          | some data => (fresh.load data).1
          | none => fresh).observe
      ∧ ∀ data, ((fresh.loads history).load data).2 = (fresh.load data).2 := by
  intro fresh
  refine ⟨congrArg observe (loads_eq_last fresh history), ?_⟩
  intro data
  obtain ⟨image, himage⟩ := loads_eq_with_image fresh history
  rw [himage, load_snd, load_snd]

end Dissect.Pe.Session

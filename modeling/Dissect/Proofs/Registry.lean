/-
A registry over any history of registrations.

# What a history leaves

Registrations of formats and of processors may come in any order and
repeat names as they like. `Reflects` says what a registry owes to them:
every format name once, in the order of first registration, with what
was registered for it last; and for every processor the decoder that
was registered last. One registration of either kind carries it on
(`Reflects.registerFormat`, `Reflects.registerProcessor`), so it holds
after all of them (`Reflects.registerAll`).

# What a registry answers

A load is put to the formats in this order. The first that takes the
image answers, and if none does, the last does (`answer`).
-/
import Dissect.Registry
import Mathlib.Order.Defs.LinearOrder

namespace Dissect

/-- Something registered. -/
inductive Registration where
  | format (name : String) (f : Format)
  | processor (name : String) (d : Decoder)

namespace Registration

/-- The format that is registered, if it is one. -/
def format? : Registration → Option (String × Format)
  | .format name f => some (name, f)
  | .processor _ _ => none

/-- The processor that is registered, if it is one. -/
def processor? : Registration → Option (String × Decoder)
  | .format _ _ => none
  | .processor name d => some (name, d)

end Registration

/-- The formats among registrations, in order. -/
def formatsIn (history : List Registration) : List (String × Format) :=
  history.filterMap Registration.format?

/-- The decoders among registrations, in order. -/
def decodersIn (history : List Registration) : List (String × Decoder) :=
  history.filterMap Registration.processor?

/-- What was given for a name last. -/
def latest? {α : Type} (given : List (String × α)) (name : String) : Option α :=
  (given.reverse.find? fun p => p.1 = name).map (·.2)

@[simp] theorem latest?_nil {α : Type} (name : String) :
    latest? ([] : List (String × α)) name = none := rfl

/-- The last of all is the latest for its name and leaves the others
alone. -/
theorem latest?_concat {α : Type} (given : List (String × α)) (p : String × α)
    (name : String) :
    latest? (given ++ [p]) name = if p.1 = name then some p.2 else latest? given name := by
  unfold latest?
  rw [List.reverse_append, List.reverse_singleton, List.singleton_append, List.find?_cons]
  by_cases h : p.1 = name
  · simp [h]
  · simp [h]

/-- A name that was there already adds nothing. -/
theorem eraseDups_concat (names : List String) (name : String) :
    (names ++ [name]).eraseDups
      = if name ∈ names then names.eraseDups else names.eraseDups ++ [name] := by
  rw [List.eraseDups_append, List.removeAll]
  by_cases h : name ∈ names
  · simp [h]
  · simp [h, List.eraseDups_cons]

namespace Registry

/-- Register a format or a processor. -/
def register (r : Registry) : Registration → Registry
  | .format name f => r.registerFormat name f
  | .processor name d => r.registerProcessor name d

/-- Register all of a history, in order. -/
def registerAll (r : Registry) (history : List Registration) : Registry :=
  history.foldl register r

-- =============================================================== placing

variable {name : String} {f : Format} {formats : List (String × Format)}

/-- A name keeps its place, and a new one comes last. -/
theorem map_fst_placeFormat :
    (placeFormat name f formats).map (·.1)
      = if name ∈ formats.map (·.1) then formats.map (·.1)
        else formats.map (·.1) ++ [name] := by
  induction formats with
  | nil => rfl
  | cons p rest ih =>
      obtain ⟨n, g⟩ := p
      rw [placeFormat]
      by_cases h : n = name
      · simp [h]
      · rw [if_neg h, List.map_cons, ih]
        have hne : ¬ name = n := fun heq => h heq.symm
        by_cases hmem : name ∈ rest.map (·.1)
        · simp [hmem]
        · simp [hmem, hne]

theorem nodup_placeFormat (h : (formats.map (·.1)).Nodup) :
    ((placeFormat name f formats).map (·.1)).Nodup := by
  rw [map_fst_placeFormat]
  split
  · exact h
  · next hnew =>
    refine List.nodup_append.mpr ⟨h, by simp, ?_⟩
    intro a ha b hb
    rw [List.mem_singleton.mp hb]
    rintro rfl
    exact hnew ha

/-- What is placed is there, and all else was there under another
name. -/
theorem mem_placeFormat (hnodup : (formats.map (·.1)).Nodup) {p : String × Format}
    (h : p ∈ placeFormat name f formats) : p = (name, f) ∨ (name ≠ p.1 ∧ p ∈ formats) := by
  induction formats with
  | nil => exact .inl (List.mem_singleton.mp h)
  | cons q rest ih =>
      obtain ⟨n, g⟩ := q
      rw [List.map_cons, List.nodup_cons] at hnodup
      rw [placeFormat] at h
      by_cases hn : n = name
      · subst hn
        rw [if_pos rfl, List.mem_cons] at h
        rcases h with rfl | hrest
        · exact .inl rfl
        · refine .inr ⟨?_, List.mem_cons_of_mem _ hrest⟩
          intro hp
          apply hnodup.1
          show n ∈ rest.map (·.1)
          rw [hp]
          exact List.mem_map_of_mem hrest
      · rw [if_neg hn, List.mem_cons] at h
        rcases h with rfl | hrest
        · exact .inr ⟨fun hname => hn hname.symm, List.mem_cons_self⟩
        · rcases ih hnodup.2 hrest with hp | ⟨hne, hmem⟩
          · exact .inl hp
          · exact .inr ⟨hne, List.mem_cons_of_mem _ hmem⟩

-- ============================================================= histories

/-- The registry is what a history leaves of an empty one. -/
structure Reflects (r : Registry) (options : LoadOptions) (history : List Registration) :
    Prop where
  options_eq : r.options = options
  /-- Every name once. -/
  nodup : r.formatNames.Nodup
  /-- In the order of first registration. -/
  formatNames_eq : r.formatNames = ((formatsIn history).map (·.1)).eraseDups
  /-- With the format registered last. -/
  latest : ∀ p ∈ r.formats, latest? (formatsIn history) p.1 = some p.2
  /-- Every processor has the decoder registered last. -/
  decoder : ∀ name, r.processors[name]? = latest? (decodersIn history) name

/-- A new registry reflects that nothing was registered. -/
theorem reflects_ofOptions (options : LoadOptions) :
    (ofOptions options).Reflects options [] where
  options_eq := rfl
  nodup := List.nodup_nil
  formatNames_eq := rfl
  latest := fun _ hp => absurd hp List.not_mem_nil
  decoder := fun _ => Std.ExtTreeMap.getElem?_empty

namespace Reflects

variable {r : Registry} {options : LoadOptions} {history : List Registration}

/-- Registering a format keeps the registry in step with its history. -/
theorem registerFormat (h : r.Reflects options history) (name : String) (f : Format) :
    (r.registerFormat name f).Reflects options (history ++ [.format name f]) := by
  have hformats : formatsIn (history ++ [.format name f]) = formatsIn history ++ [(name, f)] :=
    List.filterMap_append
  have hdecoders : decodersIn (history ++ [.format name f]) = decodersIn history := by
    simp [decodersIn, Registration.processor?]
  refine ⟨h.options_eq, nodup_placeFormat h.nodup, ?_, ?_, ?_⟩
  · have hmem : name ∈ r.formatNames ↔ name ∈ (formatsIn history).map (·.1) := by
      rw [h.formatNames_eq, List.mem_eraseDups]
    show (placeFormat name f r.formats).map (·.1) = _
    rw [hformats, List.map_append, List.map_singleton, eraseDups_concat, map_fst_placeFormat,
      ← h.formatNames_eq]
    exact ite_congr (propext hmem) (fun _ => rfl) fun _ => rfl
  · intro p hp
    rw [hformats, latest?_concat]
    rcases mem_placeFormat h.nodup hp with rfl | ⟨hne, hold⟩
    · rw [if_pos rfl]
    · rw [if_neg hne]
      exact h.latest p hold
  · intro processor
    rw [hdecoders]
    exact h.decoder processor

/-- Registering a processor keeps the registry in step with its
history. -/
theorem registerProcessor (h : r.Reflects options history) (name : String) (d : Decoder) :
    (r.registerProcessor name d).Reflects options (history ++ [.processor name d]) := by
  have hformats : formatsIn (history ++ [.processor name d]) = formatsIn history := by
    simp [formatsIn, Registration.format?]
  have hdecoders : decodersIn (history ++ [.processor name d])
      = decodersIn history ++ [(name, d)] := List.filterMap_append
  refine ⟨h.options_eq, h.nodup, ?_, ?_, ?_⟩
  · rw [hformats]
    exact h.formatNames_eq
  · rw [hformats]
    exact h.latest
  · intro processor
    show (r.processors.insert name d)[processor]? = _
    rw [hdecoders, latest?_concat, Std.ExtTreeMap.getElem?_insert, h.decoder]
    exact ite_congr (propext Std.LawfulEqCmp.compare_eq_iff_eq) (fun _ => rfl) fun _ => rfl

/-- A registry goes on reflecting what is registered. -/
theorem registerAll (h : r.Reflects options history) (later : List Registration) :
    (r.registerAll later).Reflects options (history ++ later) := by
  induction later generalizing r history with
  | nil => rwa [List.append_nil]
  | cons x rest ih =>
      rw [List.append_cons]
      cases x with
      | format name f => exact ih (h.registerFormat name f)
      | processor name d => exact ih (h.registerProcessor name d)

end Reflects

-- ============================================================= answering

/-- The answer to an image that formats were tried on in order: that of
the first to take it, or else that of the last; with no formats at all
the image is refused. -/
def answer (attempts : List (Except LoadError Image)) : Except LoadError Image :=
  ((attempts.find? (·.isOk)).or attempts.getLast?).getD
    (.error (.unsupportedFormat "no formats registered"))

/-- The loop answers likewise, the refusal so far standing for the last
one. -/
theorem outcome_tryFormats (options : LoadOptions) (data : Bytes) (last : Option LoadError)
    (formats : List (String × Format)) :
    (tryFormats options data last formats).outcome
      = (((formats.map fun p => (p.2.load options data).outcome).find? (·.isOk)).or
            (formats.map fun p => (p.2.load options data).outcome).getLast?).getD
          (.error (last.getD (.unsupportedFormat "no formats registered"))) := by
  induction formats generalizing last with
  | nil => rfl
  | cons p rest ih =>
      obtain ⟨name, f⟩ := p
      rw [tryFormats, List.map_cons, List.find?_cons, List.getLast?_cons]
      dsimp only
      cases (f.load options data).outcome with
      | ok image => rfl
      | error e =>
          show (tryFormats options data (some e) rest).outcome = _
          rw [ih]
          cases (rest.map fun p => (p.2.load options data).outcome).find? (·.isOk) with
          | some taken => rfl
          | none => rfl

/-- The names of processors are those with a processor. -/
theorem mem_processorNames_iff {r : Registry} {processor : String} :
    processor ∈ r.processorNames ↔ (r.processors[processor]?).isSome = true := by
  unfold processorNames
  rw [Std.ExtTreeMap.mem_keys, Std.ExtTreeMap.mem_iff_isSome_getElem?]

/-- The names of processors are in order, without repetition. -/
theorem pairwise_processorNames (r : Registry) : r.processorNames.Pairwise (· < ·) := by
  refine Std.ExtTreeMap.ordered_keys.imp fun h => ?_
  exact Batteries.compareOfLessAndEq_eq_lt.mp h

theorem isSome_latest?_iff {α : Type} {given : List (String × α)} {name : String} :
    (latest? given name).isSome = true ↔ name ∈ given.map (·.1) := by
  unfold latest?
  rw [Option.isSome_map, List.find?_isSome]
  simp

/-- Whatever was registered, in whatever order and however often: the
formats are the names in order of first registration, each once; a load
is answered by trying, in this order, the format registered last for
each name; the decoder of a processor is the one registered for it last;
and the processors are the names in ascending order, each once. -/
theorem registerAll_answers (options : LoadOptions) (history : List Registration) :
    let r := (ofOptions options).registerAll history
    r.formatNames = ((formatsIn history).map (·.1)).eraseDups
      ∧ r.formatNames.Nodup
      ∧ (∃ formats : List Format,
          formats.map some = r.formatNames.map (latest? (formatsIn history))
            ∧ ∀ data, (r.load data).outcome
                = answer (formats.map fun f => (f.load options data).outcome))
      ∧ (∀ processor, r.decoderFor processor
          = match latest? (decodersIn history) processor with
            | some d => .ok d
            | none => .error (.unsupportedProcessor processor))
      ∧ r.processorNames.Pairwise (· < ·)
      ∧ ∀ processor, processor ∈ r.processorNames
          ↔ processor ∈ (decodersIn history).map (·.1) := by
  intro r
  have h : r.Reflects options history := (reflects_ofOptions options).registerAll history
  refine ⟨h.formatNames_eq, h.nodup, ⟨r.formats.map (·.2), ?_, ?_⟩, ?_,
    pairwise_processorNames r, ?_⟩
  · unfold formatNames
    rw [List.map_map, List.map_map]
    exact List.map_congr_left fun p hp => (h.latest p hp).symm
  · intro data
    unfold load answer
    rw [outcome_tryFormats, h.options_eq, List.map_map]
    rfl
  · intro processor
    have hdecoder := h.decoder processor
    unfold decoderFor
    cases hlatest : latest? (decodersIn history) processor with
    | none => simp [hdecoder, hlatest]
    | some d => simp [hdecoder, hlatest]
  · intro processor
    rw [mem_processorNames_iff, h.decoder, isSome_latest?_iff]

end Registry

end Dissect

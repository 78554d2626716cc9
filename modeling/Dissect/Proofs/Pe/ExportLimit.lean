/-
What the export limit does to a walk.

# Functions

Which functions a walk defines, and at which addresses, is read off the
function table alone (`offered`, `offers`). If every function can be
resolved, the walk defines the offers in the order of their indices as
far as the limit goes (`bound_of_offered`), so a lower limit leaves the
first of them (`walkExports_limitedTo`).

# Names

The same limit cuts the name table, whose entries stand in an order of
their own. A function is named by the last entry for it among those
that are read (`nameAmong?`), so a lower limit can change the name of a
function that it leaves: to an earlier entry for it, or to its ordinal.
It cannot if all entries are read, or if none for the function is past
the limit.
-/
import Dissect.Proofs.Pe.Export
import Dissect.Proofs.Pe.Stages

namespace Dissect.Pe

namespace ExportHeader

-- ================================================================= names

/-- The name that an entry of the name table gives a function. -/
def nameFor? (h : ExportHeader) (v : View) (limit index entry : Nat) : Option String :=
  match h.nameAt v limit entry with
  | .ok (i, name) => if i = index then some name else none
  | .error _ => none

/-- The name that the first `count` entries of the name table give a
function: the last for it counts. -/
def nameAmong? (h : ExportHeader) (v : View) (limit count index : Nat) : Option String :=
  ((List.range count).filterMap (h.nameFor? v limit index)).getLast?

variable {h : ExportHeader} {v : View} {limit : Nat}

/-- Names that are read take the place of those that are there. -/
theorem getElem?_of_namesFrom {count entry : Nat} {names names' : Std.ExtTreeMap Nat String}
    (hnames : h.namesFrom v limit count entry names = .ok names') (index : Nat) :
    names'[index]?
      = (((List.range' entry count).filterMap (h.nameFor? v limit index)).getLast?).or
          names[index]? := by
  induction count generalizing entry names with
  | zero =>
      rw [namesFrom] at hnames
      cases hnames
      rfl
  | succ count ih =>
      rw [namesFrom] at hnames
      cases hentry : h.nameAt v limit entry with
      | error e =>
          rw [hentry] at hnames
          cases hnames
      | ok found =>
          obtain ⟨i, name⟩ := found
          rw [hentry] at hnames
          rw [ih hnames, List.range'_succ, Std.ExtTreeMap.getElem?_insert]
          by_cases hi : i = index
          · have hfor : h.nameFor? v limit index entry = some name := by
              simp [nameFor?, hentry, hi]
            rw [List.filterMap_cons_some hfor, List.getLast?_cons, if_pos (by simp [hi])]
            cases ((List.range' (entry + 1) count).filterMap
              (h.nameFor? v limit index)).getLast? with
            | none => rfl
            | some later => rfl
          · have hfor : h.nameFor? v limit index entry = none := by
              simp [nameFor?, hentry, hi]
            rw [List.filterMap_cons_none hfor, if_neg (by simpa using hi)]

/-- The names by index are those of the entries that were read. -/
theorem getElem?_eq_nameAmong? {count : Nat} {names : Std.ExtTreeMap Nat String}
    (hnames : h.namesFrom v limit count 0 ∅ = .ok names) (index : Nat) :
    names[index]? = h.nameAmong? v limit count index := by
  rw [getElem?_of_namesFrom hnames, Std.ExtTreeMap.getElem?_empty, Option.or_none,
    ← List.range_eq_range', nameAmong?]

/-- If entries can be read, so can the first of them. -/
theorem namesFrom_of_le {count count' entry : Nat} {names all : Std.ExtTreeMap Nat String}
    (hle : count' ≤ count) (hnames : h.namesFrom v limit count entry names = .ok all) :
    ∃ some, h.namesFrom v limit count' entry names = .ok some := by
  induction count' generalizing count entry names with
  | zero => exact ⟨names, rfl⟩
  | succ count' ih =>
      obtain ⟨count, rfl⟩ : ∃ k, count = k + 1 := ⟨count - 1, by omega⟩
      rw [namesFrom] at hnames ⊢
      cases hentry : h.nameAt v limit entry with
      | error e =>
          rw [hentry] at hnames
          cases hnames
      | ok found =>
          rw [hentry] at hnames
          exact ih (by omega) hnames

/-- Entries for other functions make no difference to a function. -/
theorem nameAmong?_of_forall {count count' index : Nat} (hle : count' ≤ count)
    (hnone : ∀ j, count' ≤ j → j < count → h.nameFor? v limit index j = none) :
    h.nameAmong? v limit count' index = h.nameAmong? v limit count index := by
  unfold nameAmong?
  have hsplit : List.range count = List.range count' ++ List.range' count' (count - count') := by
    rw [List.range_eq_range', List.range_eq_range']
    have happend := List.range'_append_1 (s := 0) (m := count') (n := count - count')
    rw [Nat.zero_add, Nat.add_sub_cancel' hle] at happend
    exact happend.symm
  have hrest : (List.range' count' (count - count')).filterMap (h.nameFor? v limit index) = [] := by
    refine List.filterMap_eq_nil_iff.mpr fun j hj => ?_
    rw [List.mem_range'_1] at hj
    exact hnone j hj.1 (by omega)
  rw [hsplit, List.filterMap_append, hrest, List.append_nil]

end ExportHeader

-- ============================================================= functions

namespace ExportContext

/-- The address that a function is offered at; none for an unused index
and for a function that lives elsewhere. -/
def offered (c : ExportContext) (index : Nat) : Except ImageError (Option Address) :=
  match c.header.functionAt c.view index with
  | .error e => .error e
  | .ok rva =>
    if rva = 0 ∨ c.isForwarder rva then .ok none
    else (c.view.mappedAddress rva.toNat).map some

/-- The `count` functions from an index on that are offered at an
address. -/
def offers (c : ExportContext) (count index : Nat) : List (Nat × Address) :=
  (List.range' index count).filterMap fun n =>
    match c.offered n with
    | .ok (some address) => some (n, address)
    | _ => none

/-- The symbol of a function. -/
def symbolAt (c : ExportContext) (p : Nat × Address) : Symbol :=
  ⟨c.nameOf p.1, p.2, .exported⟩

variable {c : ExportContext}

/-- What a function that can be resolved is offered at. -/
theorem offered_eq_ok {index : Nat} {o : Option Address} (h : c.offered index = .ok o) :
    ∃ rva, c.header.functionAt c.view index = .ok rva
      ∧ ((rva = 0 ∨ c.isForwarder rva) ∧ o = none
        ∨ ¬ (rva = 0 ∨ c.isForwarder rva)
          ∧ ∃ address, c.view.mappedAddress rva.toNat = .ok address ∧ o = some address) := by
  unfold offered at h
  cases hrva : c.header.functionAt c.view index with
  | error e =>
      rw [hrva] at h
      cases h
  | ok rva =>
      rw [hrva] at h
      dsimp only at h
      refine ⟨rva, rfl, ?_⟩
      by_cases hunused : rva = 0 ∨ c.isForwarder rva
      · rw [if_pos hunused] at h
        cases h
        exact .inl ⟨hunused, rfl⟩
      · rw [if_neg hunused] at h
        cases haddress : c.view.mappedAddress rva.toNat with
        | error e =>
            rw [haddress] at h
            cases h
        | ok address =>
            rw [haddress] at h
            cases h
            exact .inr ⟨hunused, address, rfl, rfl⟩

theorem offers_cons_of_none {index : Nat} (h : c.offered index = .ok none) (count : Nat) :
    c.offers (count + 1) index = c.offers count (index + 1) := by
  unfold offers
  rw [List.range'_succ, List.filterMap_cons_none]
  rw [h]

theorem offers_cons_of_some {index : Nat} {address : Address}
    (h : c.offered index = .ok (some address)) (count : Nat) :
    c.offers (count + 1) index = (index, address) :: c.offers count (index + 1) := by
  unfold offers
  rw [List.range'_succ, List.filterMap_cons_some]
  rw [h]

theorem length_offers_le (count index : Nat) : (c.offers count index).length ≤ count := by
  have h := List.length_filterMap_le (fun n =>
    match c.offered n with
    | .ok (some address) => some (n, address)
    | _ => none) (List.range' index count)
  rwa [List.length_range'] at h

/-- Offers stand in the order of their indices. -/
theorem pairwise_offers (count index : Nat) :
    (c.offers count index).Pairwise fun p q => p.1 < q.1 := by
  unfold offers
  refine List.Pairwise.filterMap _ ?_ List.pairwise_lt_range'
  intro n k hnk p hp q hq
  split at hp
  · cases hp
    split at hq
    · cases hq
      exact hnk
    · cases hq
  · cases hp

-- ============================================================= the loop

/-- What the loop comes to and what it defines. -/
def bound (c : ExportContext) (count index defined : Nat) :
    Except ImageError Nat × List Symbol :=
  ((c.bindFrom count index defined []).outcome,
    definitions (c.bindFrom count index defined []).steps)

/-- The loop without its notes. -/
theorem bound_succ (c : ExportContext) (count index defined : Nat) :
    c.bound (count + 1) index defined
      = match c.header.functionAt c.view index with
        | .error e => (.error e, [])
        | .ok rva =>
          if rva = 0 ∨ c.isForwarder rva then c.bound count (index + 1) defined
          else if c.limit ≤ defined then (.ok defined, [])
          else
            match c.view.mappedAddress rva.toNat with
            | .error e => (.error e, [])
            | .ok address =>
              ((c.bound count (index + 1) (defined + 1)).1,
                c.symbolAt (index, address) :: (c.bound count (index + 1) (defined + 1)).2) := by
  unfold bound
  rw [bindFrom_succ]
  cases c.header.functionAt c.view index with
  | error e => rfl
  | ok rva =>
      rw [Walk.read_ok_bind]
      by_cases hzero : rva = 0
      · simp [hzero]
      · by_cases hforward : c.isForwarder rva = true
        · simp [hzero, hforward]
        · by_cases hfull : c.limit ≤ defined
          · simp [hzero, hforward, hfull]
          · cases hmapped : c.view.mappedAddress rva.toNat with
            | error e => simp [hzero, hforward, hfull, hmapped]
            | ok address => simp [hzero, hforward, hfull, hmapped, symbolAt]

/-- Where every function can be resolved, the loop defines the offers in
their order as far as the limit goes. -/
theorem bound_of_offered (count index defined : Nat)
    (hall : ∀ n, index ≤ n → n < index + count → ∃ o, c.offered n = .ok o) :
    c.bound count index defined
      = (.ok (defined + min (c.limit - defined) (c.offers count index).length),
          ((c.offers count index).take (c.limit - defined)).map c.symbolAt) := by
  induction count generalizing index defined with
  | zero => simp [bound, bindFrom, offers]
  | succ count ih =>
      have hrest : ∀ n, index + 1 ≤ n → n < index + 1 + count → ∃ o, c.offered n = .ok o :=
        fun n hlow hhigh => hall n (by omega) (by omega)
      obtain ⟨o, ho⟩ := hall index (Nat.le_refl _) (by omega)
      obtain ⟨rva, hrva, hcase⟩ := offered_eq_ok ho
      rw [bound_succ, hrva]
      dsimp only
      rcases hcase with ⟨hunused, rfl⟩ | ⟨hused, address, haddress, rfl⟩
      · rw [if_pos hunused, offers_cons_of_none ho]
        exact ih (index + 1) defined hrest
      · rw [if_neg hused, haddress, offers_cons_of_some ho]
        by_cases hfull : c.limit ≤ defined
        · rw [if_pos hfull, Nat.sub_eq_zero_of_le hfull]
          simp
        · have hroom : c.limit - defined = c.limit - (defined + 1) + 1 := by omega
          rw [if_neg hfull, ih (index + 1) (defined + 1) hrest, hroom]
          refine Prod.ext (congrArg Except.ok ?_) rfl
          rw [List.length_cons]
          omega

/-- Below the limit the loop succeeds only if the next function can be
resolved and the rest of the loop succeeds. -/
theorem offered_of_bound_succ {count index defined total : Nat} (hroom : defined < c.limit)
    (hok : (c.bound (count + 1) index defined).1 = .ok total) :
    (∃ o, c.offered index = .ok o)
      ∧ ∃ defined' ≤ defined + 1, (c.bound count (index + 1) defined').1 = .ok total := by
  rw [bound_succ] at hok
  unfold offered
  cases hrva : c.header.functionAt c.view index with
  | error e =>
      rw [hrva] at hok
      cases hok
  | ok rva =>
      rw [hrva] at hok
      dsimp only at hok ⊢
      by_cases hunused : rva = 0 ∨ c.isForwarder rva
      · rw [if_pos hunused] at hok ⊢
        exact ⟨⟨none, rfl⟩, defined, Nat.le_succ _, hok⟩
      · rw [if_neg hunused, if_neg (Nat.not_le.mpr hroom)] at hok
        rw [if_neg hunused]
        cases haddress : c.view.mappedAddress rva.toNat with
        | error e =>
            rw [haddress] at hok
            cases hok
        | ok address =>
            rw [haddress] at hok
            exact ⟨⟨some address, rfl⟩, defined + 1, Nat.le_refl _, hok⟩

/-- A loop that the limit cannot stop succeeds only if every function can
be resolved. -/
theorem offered_of_bound {count index defined total : Nat} (hroom : defined + count ≤ c.limit)
    (hok : (c.bound count index defined).1 = .ok total) :
    ∀ n, index ≤ n → n < index + count → ∃ o, c.offered n = .ok o := by
  induction count generalizing index defined with
  | zero =>
      intro n hlow hhigh
      omega
  | succ count ih =>
      obtain ⟨hfirst, defined', hle, hrest⟩ := offered_of_bound_succ (by omega) hok
      intro n hlow hhigh
      by_cases hn : n = index
      · exact hn ▸ hfirst
      · exact ih (by omega) hrest n (by omega) (by omega)

-- ============================================================ the names

/-- The functions that are offered at an address. -/
def functions (c : ExportContext) : List (Nat × Address) :=
  c.offers c.header.functionCount.toNat 0

/-- The symbol of a function by the first `count` entries of the name
table. -/
def symbolAmong (c : ExportContext) (limit count : Nat) (p : Nat × Address) : Symbol :=
  ⟨(c.header.nameAmong? c.view limit count p.1).getD
      (qualifiedName c.library (.ordinal (c.header.ordinalBase.toNat + p.1))),
    p.2, .exported⟩

/-- A symbol goes by the entries that were read. -/
theorem symbolAt_eq {limit count : Nat}
    (hnames : c.header.namesFrom c.view limit count 0 ∅ = .ok c.names) :
    c.symbolAt = c.symbolAmong limit count := by
  funext p
  unfold symbolAt symbolAmong nameOf
  rw [ExportHeader.getElem?_eq_nameAmong? hnames]
  cases c.header.nameAmong? c.view limit count p.1 with
  | none => rfl
  | some name => rfl

end ExportContext

-- ============================================================== the walk

variable {v : View} {directory : DataDirectory} {options : LoadOptions} {c : ExportContext}

/-- Behind its reads, the walk is the loop. -/
theorem walkExports_eq_bound (hc : readContext v directory options = .ok c) :
    ((walkExports v directory options).outcome,
        definitions (walkExports v directory options).steps)
      = c.bound c.header.functionCount.toNat 0 0 := by
  rw [walkExports_eq, hc, Walk.read_ok_bind]
  unfold ExportContext.bound
  cases hloop : (c.bindFrom c.header.functionCount.toNat 0 0 []).outcome with
  | error e => rw [Walk.bind_of_error hloop]
  | ok defined =>
      rw [Walk.bind_of_ok hloop]
      simp

/-- Where every function can be resolved, the walk defines the first of
them, by the names that it has read. -/
theorem walkExports_of_offered {nameLimit count : Nat}
    (hc : readContext v directory options = .ok c)
    (hnames : c.header.namesFrom c.view nameLimit count 0 ∅ = .ok c.names)
    (hall : ∀ n < c.header.functionCount.toNat, ∃ o, c.offered n = .ok o) :
    (walkExports v directory options).outcome = .ok (min c.limit c.functions.length)
      ∧ definitions (walkExports v directory options).steps
        = (c.functions.take c.limit).map (c.symbolAmong nameLimit count) := by
  have hwalk := walkExports_eq_bound hc
  rw [ExportContext.bound_of_offered _ _ _ (fun n _ hn => hall n (by omega)), Nat.sub_zero,
    Nat.zero_add, ExportContext.symbolAt_eq hnames] at hwalk
  exact Prod.ext_iff.mp hwalk

/-- Another limit on exports, and otherwise the same options. -/
def limitedTo (options : LoadOptions) (m : UInt64) : LoadOptions :=
  { options with maxExports := m }

/-- With room for every function all entries of the name table are read,
and with another limit the first of them. -/
theorem readContext_limitedTo (hc : readContext v directory options = .ok c)
    (hroom : c.header.functionCount.toNat ≤ options.maxExports.toNat) (m : UInt64) :
    c.header.namesFrom c.view options.maxNameLength.toNat c.header.nameCount.toNat 0 ∅
        = .ok c.names
      ∧ ∃ names,
        c.header.namesFrom c.view options.maxNameLength.toNat
            (min c.header.nameCount.toNat m.toNat) 0 ∅ = .ok names
          ∧ readContext v directory (limitedTo options m)
            = .ok { c with names := names, limit := m.toNat } := by
  unfold readContext at hc
  obtain ⟨h, hheader, hc⟩ := except_bind_eq_ok_iff.mp hc
  obtain ⟨library, hlibrary, hc⟩ := except_bind_eq_ok_iff.mp hc
  by_cases hcounts : h.functionCount < h.nameCount
  · rw [if_pos hcounts] at hc
    cases hc
  · rw [if_neg hcounts] at hc
    obtain ⟨all, hall, hc⟩ := except_bind_eq_ok_iff.mp hc
    cases hc
    have hle : h.nameCount.toNat ≤ h.functionCount.toNat :=
      UInt32.le_iff_toNat_le.mp (UInt32.not_lt.mp hcounts)
    rw [Nat.min_eq_left (Nat.le_trans hle hroom)] at hall
    obtain ⟨names, hnames⟩ := ExportHeader.namesFrom_of_le (Nat.min_le_left _ m.toNat) hall
    refine ⟨hall, names, hnames, ?_⟩
    unfold readContext
    refine except_bind_eq_ok_iff.mpr ⟨h, hheader, ?_⟩
    refine except_bind_eq_ok_iff.mpr ⟨library, hlibrary, ?_⟩
    rw [if_neg hcounts]
    exact except_bind_eq_ok_iff.mpr ⟨names, hnames, rfl⟩

/-- How the walk with another limit compares to one with room for every
function. -/
structure LimitedWalk (c : ExportContext) (nameLimit : Nat) (m : Nat) (full short : Walk Nat) :
    Prop where
  /-- With room, every function is defined by the whole name table. -/
  full_eq : definitions full.steps
    = c.functions.map (c.symbolAmong nameLimit c.header.nameCount.toNat)
  full_outcome : full.outcome = .ok c.functions.length
  /-- The limit leaves the first functions, and the first names. -/
  short_eq : definitions short.steps
    = (c.functions.take m).map (c.symbolAmong nameLimit (min c.header.nameCount.toNat m))
  short_outcome : short.outcome = .ok (min m c.functions.length)
  addresses_eq : (definitions short.steps).map (·.address)
    = ((definitions full.steps).take m).map (·.address)
  /-- Nothing else changes exactly if every function that is left keeps
  its name. -/
  take_iff : definitions short.steps = (definitions full.steps).take m
    ↔ ∀ p ∈ c.functions.take m,
        c.symbolAmong nameLimit (min c.header.nameCount.toNat m) p
          = c.symbolAmong nameLimit c.header.nameCount.toNat p
  /-- It does if no entry past the limit is for it. -/
  take_of_forall : (∀ p ∈ c.functions.take m, ∀ j, m ≤ j → j < c.header.nameCount.toNat →
      c.header.nameFor? c.view nameLimit p.1 j = none) →
    definitions short.steps = (definitions full.steps).take m

/-- Everything follows from which functions the two walks define, and by
which entries. -/
theorem LimitedWalk.of_eq {nameLimit m : Nat} {full short : Walk Nat}
    (hfull : definitions full.steps
      = c.functions.map (c.symbolAmong nameLimit c.header.nameCount.toNat))
    (hshort : definitions short.steps
      = (c.functions.take m).map (c.symbolAmong nameLimit (min c.header.nameCount.toNat m)))
    (hfullOutcome : full.outcome = .ok c.functions.length)
    (hshortOutcome : short.outcome = .ok (min m c.functions.length)) :
    LimitedWalk c nameLimit m full short := by
  have htake : definitions short.steps = (definitions full.steps).take m
      ↔ ∀ p ∈ c.functions.take m,
          c.symbolAmong nameLimit (min c.header.nameCount.toNat m) p
            = c.symbolAmong nameLimit c.header.nameCount.toNat p := by
    rw [hshort, hfull, ← List.map_take, List.map_inj_left]
  refine ⟨hfull, hfullOutcome, hshort, hshortOutcome, ?_, htake, ?_⟩
  · rw [hshort, hfull, ← List.map_take, List.map_map, List.map_map]
    rfl
  · intro hnone
    rw [htake]
    intro p hp
    unfold ExportContext.symbolAmong
    rw [ExportHeader.nameAmong?_of_forall (Nat.min_le_left _ m)]
    intro j hlow hhigh
    exact hnone p hp j (by omega) hhigh

/-- A lower limit leaves the first functions of a walk with room for all
of them, at their addresses, and each by the entries that are left of the
name table. -/
theorem walkExports_limitedTo {h : ExportHeader} {n : Nat}
    (hheader : ExportHeader.read v directory.rva.toNat = .ok h)
    (hroom : h.functionCount.toNat ≤ options.maxExports.toNat)
    (hfull : (walkExports v directory options).outcome = .ok n) (m : UInt64) :
    ∃ c, readContext v directory options = .ok c ∧ c.header = h ∧ c.functions.length = n
      ∧ c.functions.Pairwise (fun p q => p.1 < q.1)
      ∧ LimitedWalk c options.maxNameLength.toNat m.toNat
          (walkExports v directory options) (walkExports v directory (limitedTo options m)) := by
  obtain ⟨c, hc⟩ : ∃ c, readContext v directory options = .ok c := by
    rw [walkExports_eq] at hfull
    obtain ⟨c, hc, -⟩ := Walk.bind_eq_ok_iff.mp hfull
    exact ⟨c, hc⟩
  obtain ⟨hview, hlimit, hread, -⟩ := readContext_eq_ok hc
  obtain rfl : c.header = h := Except.ok.inj (hread.symm.trans hheader)
  obtain ⟨hnames, names, hcut, hc'⟩ := readContext_limitedTo hc hroom m
  -- the loop with room has resolved every function, so the other loop can
  have hall : ∀ k < c.header.functionCount.toNat, ∃ o, c.offered k = .ok o := by
    have hok : (c.bound c.header.functionCount.toNat 0 0).1 = .ok n := by
      rw [← walkExports_eq_bound hc]
      exact hfull
    intro k hk
    exact ExportContext.offered_of_bound (by omega) hok k (Nat.zero_le _) (by omega)
  have hlength : c.functions.length ≤ c.limit := by
    have := c.length_offers_le c.header.functionCount.toNat 0
    unfold ExportContext.functions
    omega
  obtain ⟨hout, hdefs⟩ := walkExports_of_offered hc hnames hall
  obtain ⟨hout', hdefs'⟩ := walkExports_of_offered hc' hcut hall
  refine ⟨c, hc, rfl, ?_, ExportContext.pairwise_offers _ _, .of_eq ?_ hdefs' ?_ hout'⟩
  · rw [hout, Nat.min_eq_right hlength] at hfull
    exact Except.ok.inj hfull
  · rw [hdefs, List.take_of_length_le hlength]
  · rw [hout, Nat.min_eq_right hlength]

-- =============================================================== a sample

/-- A library of two functions, whose names stand in the other order. -/
def crossNamed : View where
  data :=
    List.toArray <| List.flatten
      [ -- 0x1000: export header, two functions and two names
        blank 12, spell 4 0x1040, spell 4 1, spell 4 2, spell 4 2, spell 4 0x1028,
        spell 4 0x1030, spell 4 0x1038,
        -- 0x1028: function, name and index tables
        spell 4 0x1044, spell 4 0x1045, spell 4 0x103C, spell 4 0x103E, spell 2 1, spell 2 0,
        -- 0x103C: the names `a` and `b`, the library `m`
        [0x61, 0, 0x62, 0, 0x6D, 0, 0, 0],
        -- 0x1044: the functions
        [0xC3, 0xC3] ]
  segments := [⟨".edata", 0, 0x401000, 0x401046, .empty, by decide⟩]
  base := 0x400000

/-- Its export directory. -/
def crossNamedExports : DataDirectory := ⟨0x1000, 40⟩

/-- A walk limited to one export, beside the unlimited one. -/
theorem walkExports_limitedTo_crossNamed :
    ∃ c, readContext crossNamed crossNamedExports .default = .ok c
      ∧ LimitedWalk c 512 1 (walkExports crossNamed crossNamedExports .default)
          (walkExports crossNamed crossNamedExports (limitedTo .default 1)) := by
  have hheader : ExportHeader.read crossNamed crossNamedExports.rva.toNat
      = .ok ⟨0x1040, 1, 2, 2, 0x1028, 0x1030, 0x1038⟩ := by
    decide +kernel
  have hfull : (walkExports crossNamed crossNamedExports .default).outcome = .ok 2 := by
    decide +kernel
  obtain ⟨c, hc, -, -, -, hlimited⟩ := walkExports_limitedTo hheader (by decide) hfull 1
  exact ⟨c, hc, hlimited⟩

/-- The function that is left loses its name. -/
theorem crossNamed_renames :
    (ExportHeader.read crossNamed crossNamedExports.rva.toNat).map (·.functionCount) = .ok 2
      ∧ (walkExports crossNamed crossNamedExports .default).outcome = .ok 2
      ∧ (definitions (walkExports crossNamed crossNamedExports .default).steps).take 1
        = [⟨"b", 0x401044, .exported⟩]
      ∧ definitions (walkExports crossNamed crossNamedExports (limitedTo .default 1)).steps
        = [⟨"m!ord1", 0x401044, .exported⟩] := by
  decide +kernel

end Dissect.Pe

/-
What the export walk leaves.

The function loop is taken apart one function at a time by
`bindFrom_succ`, which is free of the list of steps that the loop
carries; every fact about the loop is an induction over the count with
this equation. Whatever the tables of an image hold, the loop defines
the symbols of functions, which are exported ones at mapped addresses,
and no more of them than the limit leaves room for, also when it ends
with an error. The name of a function is an entry of the name table
(`namesFrom_eq_ok`), or else its ordinal behind the name of the library.
-/
import Dissect.Pe.Export
import Dissect.Proofs.Pe.View

namespace Dissect.Pe

/-- A name by index was there before, or an entry of the name table gives
it. -/
theorem ExportHeader.namesFrom_eq_ok {h : ExportHeader} {v : View} {limit count entry : Nat}
    {names names' : Std.ExtTreeMap Nat String}
    (hnames : h.namesFrom v limit count entry names = .ok names') {index : Nat} {name : String}
    (hname : names'[index]? = some name) :
    names[index]? = some name
      ∨ ∃ j < entry + count, h.nameAt v limit j = .ok (index, name) := by
  induction count generalizing entry names with
  | zero =>
      rw [namesFrom] at hnames
      cases hnames
      exact .inl hname
  | succ count ih =>
      rw [namesFrom] at hnames
      split at hnames
      · cases hnames
      · next index' name' hentry =>
        rcases ih hnames with hold | ⟨j, hj, hlater⟩
        · rw [Std.ExtTreeMap.getElem?_insert] at hold
          split at hold
          · next hsame =>
            cases hold
            obtain rfl := Std.LawfulEqCmp.eq_of_compare hsame
            exact .inr ⟨entry, by omega, hentry⟩
          · exact .inl hold
        · exact .inr ⟨j, by omega, hlater⟩

namespace ExportContext

/-- The loop, one function at a time. -/
theorem bindFrom_succ (c : ExportContext) (count index defined : Nat) :
    c.bindFrom (count + 1) index defined [] = (do
      let rva ← Walk.read (c.header.functionAt c.view index)
      if rva = 0 then c.bindFrom count (index + 1) defined []
      else if c.isForwarder rva then do
        Walk.note (.exportForwarded index)
        c.bindFrom count (index + 1) defined []
      else if c.limit ≤ defined then do
        Walk.note (.exportLimit c.limit)
        pure defined
      else do
        let address ← Walk.read (c.view.mappedAddress rva.toNat)
        Walk.note (.exportFound address (c.nameOf index))
        Walk.define ⟨c.nameOf index, address, .exported⟩
        c.bindFrom count (index + 1) (defined + 1) []) := by
  rw [bindFrom]
  cases c.header.functionAt c.view index with
  | error e => rfl
  | ok rva =>
      rw [Walk.read_ok_bind]
      refine ite_congr rfl (fun _ => rfl) fun _ => ?_
      refine ite_congr rfl (fun _ => ?_) fun _ => ?_
      · rw [bindFrom_eq_append]
        rfl
      · refine ite_congr rfl (fun _ => rfl) fun _ => ?_
        cases c.view.mappedAddress rva.toNat with
        | error e => rfl
        | ok address =>
            dsimp only
            rw [bindFrom_eq_append]
            rfl

/-- The symbol is that of the function with an index. -/
structure Exports (c : ExportContext) (index : Nat) (s : Symbol) : Prop where
  address_eq : ∃ rva, c.header.functionAt c.view index = .ok rva
    ∧ c.view.mappedAddress rva.toNat = .ok s.address
  name_eq : s.name = c.nameOf index
  kind_eq : s.kind = .exported

/-- Everything the loop defines is the symbol of a function. -/
theorem exports_bindFrom (c : ExportContext) (count index defined : Nat) :
    ∀ s ∈ definitions (c.bindFrom count index defined []).steps, ∃ n, c.Exports n s := by
  induction count generalizing index defined with
  | zero =>
      intro s hs
      simp [bindFrom] at hs
  | succ count ih =>
      rw [bindFrom_succ]
      cases hfunction : c.header.functionAt c.view index with
      | error e => simp
      | ok rva =>
          rw [Walk.read_ok_bind]
          split
          · exact ih _ _
          · split
            · simpa using ih _ _
            · split
              · simp
              · cases haddress : c.view.mappedAddress rva.toNat with
                | error e => simp
                | ok address =>
                    intro s hs
                    simp only [Walk.read_ok_bind, Walk.note_bind, Walk.define_bind,
                      definitions_note, definitions_define, List.mem_cons] at hs
                    rcases hs with rfl | hs
                    · exact ⟨index, ⟨rva, hfunction, haddress⟩, rfl, rfl⟩
                    · exact ih _ _ s hs

/-- The loop defines no more than the limit leaves room for. -/
theorem length_bindFrom_le (c : ExportContext) (count index defined : Nat) :
    (definitions (c.bindFrom count index defined []).steps).length ≤ c.limit - defined := by
  induction count generalizing index defined with
  | zero => simp [bindFrom]
  | succ count ih =>
      rw [bindFrom_succ]
      cases c.header.functionAt c.view index with
      | error e => simp
      | ok rva =>
          rw [Walk.read_ok_bind]
          split
          · exact ih _ _
          · split
            · simpa using ih _ _
            · split
              · simp
              · next hroom =>
                cases c.view.mappedAddress rva.toNat with
                | error e => simp
                | ok address =>
                    have hrest := ih (index + 1) (defined + 1)
                    simp only [Walk.read_ok_bind, Walk.note_bind, Walk.define_bind,
                      definitions_note, definitions_define, List.length_cons]
                    omega

end ExportContext

-- ============================================================ the walk

/-- What the walk reads before its first function. -/
def readContext (v : View) (directory : DataDirectory) (options : LoadOptions) :
    Except ImageError ExportContext := do
  let limit := options.maxNameLength.toNat
  let h ← ExportHeader.read v directory.rva.toNat
  let library ← h.library v limit
  if h.functionCount < h.nameCount then
    throw (.exportTable
      (Numeral.decimal h.nameCount.toNat ++ " names for "
        ++ Numeral.decimal h.functionCount.toNat ++ " functions"))
  else
    let names ← h.namesFrom v limit (min h.nameCount.toNat options.maxExports.toNat) 0 ∅
    pure ⟨v, directory, h, library, names, options.maxExports.toNat⟩

/-- The walk is the function loop behind its reads, and a note. -/
theorem walkExports_eq (v : View) (directory : DataDirectory) (options : LoadOptions) :
    walkExports v directory options = (do
      let c ← Walk.read (readContext v directory options)
      let defined ← c.bindFrom c.header.functionCount.toNat 0 0 []
      Walk.note (.exportsWalked c.library defined)
      pure defined) := by
  unfold walkExports readContext
  simp only [Walk.read_bind, Walk.bind_assoc]
  congr 1
  funext h
  congr 1
  funext library
  by_cases hcounts : h.functionCount < h.nameCount
  · rw [if_pos hcounts, if_pos hcounts]
    rfl
  · rw [if_neg hcounts, if_neg hcounts, Walk.read_bind, Walk.bind_assoc]
    rfl

/-- The context has the view and the limit that the walk was given, and
the header and the names that the view shows. -/
theorem readContext_eq_ok {v : View} {directory : DataDirectory} {options : LoadOptions}
    {c : ExportContext} (h : readContext v directory options = .ok c) :
    c.view = v ∧ c.limit = options.maxExports.toNat
      ∧ ExportHeader.read v directory.rva.toNat = .ok c.header
      ∧ c.header.namesFrom v options.maxNameLength.toNat
          (min c.header.nameCount.toNat options.maxExports.toNat) 0 ∅ = .ok c.names := by
  unfold readContext at h
  obtain ⟨header, hheader, h⟩ := except_bind_eq_ok_iff.mp h
  obtain ⟨library, -, h⟩ := except_bind_eq_ok_iff.mp h
  split at h
  · cases h
  · obtain ⟨names, hnames, h⟩ := except_bind_eq_ok_iff.mp h
    cases h
    exact ⟨rfl, rfl, hheader, hnames⟩

/-- The walk defines nothing, or what the function loop defines. -/
theorem definitions_walkExports (v : View) (directory : DataDirectory)
    (options : LoadOptions) :
    definitions (walkExports v directory options).steps = []
      ∨ ∃ c, readContext v directory options = .ok c
          ∧ ∃ count, definitions (walkExports v directory options).steps
              = definitions (c.bindFrom count 0 0 []).steps := by
  rw [walkExports_eq]
  cases hcontext : readContext v directory options with
  | error e => exact .inl rfl
  | ok c =>
      refine .inr ⟨c, rfl, c.header.functionCount.toNat, ?_⟩
      rw [Walk.read_ok_bind]
      cases hloop : (c.bindFrom c.header.functionCount.toNat 0 0 []).outcome with
      | error e => rw [Walk.bind_of_error hloop]
      | ok defined =>
          rw [Walk.bind_of_ok hloop]
          simp

/-- Everything the export walk defines is the symbol of a function. -/
theorem exports_walkExports (v : View) (directory : DataDirectory) (options : LoadOptions) :
    ∀ s ∈ definitions (walkExports v directory options).steps,
      ∃ c n, readContext v directory options = .ok c ∧ c.Exports n s := by
  intro s hs
  rcases definitions_walkExports v directory options with h | ⟨c, hc, count, h⟩
  · rw [h] at hs
    simp at hs
  · rw [h] at hs
    obtain ⟨n, hn⟩ := c.exports_bindFrom count 0 0 s hs
    exact ⟨c, n, hc, hn⟩

/-- Everything the export walk defines is an exported symbol at a mapped
address. -/
theorem places_walkExports (v : View) (directory : DataDirectory) (options : LoadOptions) :
    ∀ s ∈ definitions (walkExports v directory options).steps, v.Places .exported s := by
  intro s hs
  obtain ⟨c, n, hc, hn⟩ := exports_walkExports v directory options s hs
  obtain ⟨rva, -, haddress⟩ := hn.address_eq
  obtain ⟨rfl, -⟩ := readContext_eq_ok hc
  exact ⟨hn.kind_eq, rva.toNat, haddress⟩

/-- The export walk keeps to its limit. -/
theorem length_walkExports_le (v : View) (directory : DataDirectory) (options : LoadOptions) :
    (definitions (walkExports v directory options).steps).length
      ≤ options.maxExports.toNat := by
  rcases definitions_walkExports v directory options with h | ⟨c, hc, count, h⟩
  · rw [h]
    exact Nat.zero_le _
  · rw [h, ← (readContext_eq_ok hc).2.1]
    exact c.length_bindFrom_le count 0 0

end Dissect.Pe

/-
The export walk with bounded arithmetic.

All numbers of an export directory have 32 bits: the addresses of its
tables, their lengths, the ordinal base and the directory's own end are
sums of two of them, and an entry of a table is at most four times
`2 ^ 32` bytes behind its start. No plain sum of the walk needs to know
what the reads before it found. The count of definitions is a word
because it stays within the limit, which is one.
-/
import Dissect.Proofs.Pe.Bounded.Reads
import Dissect.Proofs.Pe.Export

namespace Dissect.Pe.Bounded

/-- The header of an export directory: first all of its bytes, then its
fields. -/
def readExportHeader (v : View) (rva : Nat) : Guarded ExportHeader := do
  let _ ← bytes v rva exportHeaderSize
  let nameRva ← fieldAt v rva 12
  let ordinalBase ← fieldAt v rva 16
  let functionCount ← fieldAt v rva 20
  let nameCount ← fieldAt v rva 24
  let functionsRva ← fieldAt v rva 28
  let namesRva ← fieldAt v rva 32
  let indicesRva ← fieldAt v rva 36
  pure ⟨nameRva, ordinalBase, functionCount, nameCount, functionsRva, namesRva, indicesRva⟩

/-- The name of the library, if there is one. -/
def libraryName (h : ExportHeader) (v : View) (limit : Nat) : Guarded String :=
  if h.nameRva = 0 then pure "" else string v h.nameRva.toNat limit

/-- An entry of the name table, with the index of the function it
names. -/
def nameAt (h : ExportHeader) (v : View) (limit entry : Nat) : Guarded (Nat × String) := do
  let named ← entryAt h.namesRva.toNat entry 4
  let nameRva ← word32 v named
  let indexed ← entryAt h.indicesRva.toNat entry 2
  let index ← word16 v indexed
  let name ← string v nameRva.toNat limit
  pure (index.toNat, name)

/-- So many entries of the name table from one on; later ones replace
earlier ones. -/
def namesFrom (h : ExportHeader) (v : View) (limit : Nat) :
    (count entry : Nat) → Std.ExtTreeMap Nat String → Guarded (Std.ExtTreeMap Nat String)
  | 0, _, names => pure names
  | count + 1, entry, names => do
    let (index, name) ← nameAt h v limit entry
    let following ← add entry 1
    namesFrom h v limit count following (names.insert index name)

/-- The name of a function, or its ordinal; the ordinal is a sum. -/
def functionName (c : ExportContext) (index : Nat) : Guarded String :=
  match c.names[index]? with
  | some name => pure name
  | none => do
    let ordinal ← add c.header.ordinalBase.toNat index
    pure (qualifiedName c.library (.ordinal ordinal))

/-- The function loop; `stop` is the end of the directory. -/
def bindFunctions (c : ExportContext) (stop : Nat) : (count index defined : Nat) → Guarded Nat
  | 0, _, defined => pure defined
  | count + 1, index, defined => do
    let following ← add index 1
    let position ← entryAt c.header.functionsRva.toNat index 4
    let rva ← word32 c.view position
    if rva = 0 then bindFunctions c stop count following defined
    else if c.directory.rva.toNat ≤ rva.toNat && rva.toNat < stop then do
      note (.exportForwarded index)
      bindFunctions c stop count following defined
    else if c.limit ≤ defined then do
      note (.exportLimit c.limit)
      pure defined
    else do
      let address ← mappedAddress c.view rva.toNat
      let name ← functionName c index
      note (.exportFound address name)
      define ⟨name, address, .exported⟩
      let more ← add defined 1
      bindFunctions c stop count following more

/-- The walk of an export directory. The end of the directory is
computed first. -/
def walkExports (v : View) (directory : DataDirectory) (options : LoadOptions) :
    Guarded Nat := do
  let limit := options.maxNameLength.toNat
  let stop ← add directory.rva.toNat directory.size.toNat
  let h ← readExportHeader v directory.rva.toNat
  let library ← libraryName h v limit
  if h.functionCount < h.nameCount then
    fail (.exportTable
      (Numeral.decimal h.nameCount.toNat ++ " names for "
        ++ Numeral.decimal h.functionCount.toNat ++ " functions"))
  else do
    let count := min h.nameCount.toNat options.maxExports.toNat
    let names ← namesFrom h v limit count 0 ∅
    let c : ExportContext :=
      { view := v, directory := directory, header := h, library := library, names := names,
        limit := options.maxExports.toNat }
    let defined ← bindFunctions c stop h.functionCount.toNat 0 0
    note (.exportsWalked library defined)
    pure defined

-- ============================================================== agreement

section Agreement

variable {v : View} (hsize : v.data.size < sizeLimit)
include hsize

/-- Fields are at most forty bytes behind a 32-bit address. -/
theorem readExportHeader_eq {rva : Nat} (h : rva < 2 ^ 32) :
    readExportHeader v rva = read (ExportHeader.read v rva) := by
  unfold readExportHeader ExportHeader.read
  refine read_bind (bytes_eq hsize _ _) fun _ _ => ?_
  refine read_bind (fieldAt_eq hsize (by omega)) fun nameRva _ => ?_
  refine read_bind (fieldAt_eq hsize (by omega)) fun ordinalBase _ => ?_
  refine read_bind (fieldAt_eq hsize (by omega)) fun functionCount _ => ?_
  refine read_bind (fieldAt_eq hsize (by omega)) fun nameCount _ => ?_
  refine read_bind (fieldAt_eq hsize (by omega)) fun functionsRva _ => ?_
  refine read_bind (fieldAt_eq hsize (by omega)) fun namesRva _ => ?_
  exact read_bind (fieldAt_eq hsize (by omega)) fun indicesRva _ => rfl

theorem libraryName_eq (h : ExportHeader) (limit : Nat) :
    libraryName h v limit = read (h.library v limit) := by
  unfold libraryName ExportHeader.library
  split
  · rfl
  · exact string_eq hsize _ _

/-- Entries with a 32-bit number are behind a 32-bit address by at most
four times as much. -/
theorem nameAt_eq (h : ExportHeader) (limit : Nat) {entry : Nat} (hentry : entry < 2 ^ 32) :
    nameAt h v limit entry = read (h.nameAt v limit entry) := by
  have hnames := h.namesRva.toNat_lt
  have hindices := h.indicesRva.toNat_lt
  unfold nameAt ExportHeader.nameAt
  rw [entryAt_bind (by omega)]
  refine read_bind (word32_eq hsize _) fun nameRva _ => ?_
  rw [entryAt_bind (by omega)]
  refine read_bind (word16_eq hsize _) fun index _ => ?_
  exact read_bind (string_eq hsize _ _) fun name _ => rfl

/-- The numbers of the entries do not get past `2 ^ 32`. -/
theorem namesFrom_eq (h : ExportHeader) (limit : Nat) {count entry : Nat}
    (hentry : entry + count ≤ 2 ^ 32) (names : Std.ExtTreeMap Nat String) :
    namesFrom h v limit count entry names = read (h.namesFrom v limit count entry names) := by
  induction count generalizing entry names with
  | zero => rfl
  | succ count ih =>
      unfold namesFrom ExportHeader.namesFrom
      rw [nameAt_eq hsize h limit (by omega)]
      cases h.nameAt v limit entry with
      | error e => rfl
      | ok pair =>
          obtain ⟨index, name⟩ := pair
          rw [read_ok, pure_bind]
          dsimp only
          rw [add_bind (by omega), ih (by omega)]

end Agreement

/-- An ordinal is the sum of two numbers of 32 bits. -/
theorem functionName_eq (c : ExportContext) {index : Nat} (h : index < 2 ^ 32) :
    functionName c index = pure (c.nameOf index) := by
  have hbase := c.header.ordinalBase.toNat_lt
  unfold functionName ExportContext.nameOf
  cases c.names[index]? with
  | some name => rfl
  | none =>
      dsimp only
      rw [add_bind (by omega)]

/-- The loop stays among its 32-bit indices, and its count below the
limit. -/
theorem bindFunctions_eq {c : ExportContext} (hsize : c.view.data.size < sizeLimit)
    (hlimit : c.limit < 2 ^ 64) {count index defined : Nat} (hindex : index + count ≤ 2 ^ 32) :
    bindFunctions c (c.directory.rva.toNat + c.directory.size.toNat) count index defined
      = .within (c.bindFrom count index defined []) := by
  induction count generalizing index defined with
  | zero => rfl
  | succ count ih =>
      have hfunctions := c.header.functionsRva.toNat_lt
      unfold bindFunctions
      rw [c.bindFrom_succ, add_bind (by omega), entryAt_bind (by omega)]
      refine within_bind (word32_eq hsize _) fun rva _ => ?_
      by_cases hunused : rva = 0
      · rw [if_pos hunused, if_pos hunused]
        exact ih (by omega)
      · rw [if_neg hunused, if_neg hunused, ← ExportContext.isForwarder]
        split
        · exact within_bind rfl fun _ _ => ih (by omega)
        · split
          · rfl
          · next hroom =>
            refine within_bind (mappedAddress_eq _ _) fun address _ => ?_
            rw [functionName_eq c (by omega), pure_bind]
            refine within_bind rfl fun _ _ => within_bind rfl fun _ _ => ?_
            -- the count is below the limit here, and the limit is a word
            rw [add_bind (by omega)]
            exact ih (by omega)

/-- The walk of the exports never faults. What it needs to know of the
directory is only that its words have 32 bits. -/
theorem walkExports_eq {v : View} (hsize : v.data.size < sizeLimit) (directory : DataDirectory)
    (options : LoadOptions) :
    walkExports v directory options = .within (Pe.walkExports v directory options) := by
  have hrva := directory.rva.toNat_lt
  have hend := directory.size.toNat_lt
  unfold walkExports Pe.walkExports
  dsimp only
  rw [add_bind (by omega)]
  refine within_bind (readExportHeader_eq hsize hrva) fun h _ => ?_
  refine within_bind (libraryName_eq hsize h _) fun library _ => ?_
  have hnames := h.nameCount.toNat_lt
  have hfunctions := h.functionCount.toNat_lt
  by_cases hcounts : h.functionCount < h.nameCount
  · rw [if_pos hcounts, if_pos hcounts]
    rfl
  · rw [if_neg hcounts, if_neg hcounts]
    refine within_bind (namesFrom_eq hsize h _ (by omega) ∅) fun names _ => ?_
    refine within_bind (bindFunctions_eq hsize options.maxExports.toNat_lt (by omega)) ?_
    exact fun defined _ => rfl

end Dissect.Pe.Bounded

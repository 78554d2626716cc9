/-
The export directory: which functions an image offers, and under what
names.

# The walk

The function table gives a relative address for each index. A zero is an
unused index, and an address inside the directory itself is the name of
a function elsewhere. Every other index becomes a symbol, until the
limit is reached: it is met before the next symbol is looked at.

The name table pairs names with indices; only as many of its entries are
read as there may be symbols, all of them before the first function. Of
several names for one index the last one counts, and an index without a
name is called by its ordinal.

A declared function is read only when its turn comes, so what lies
behind the end of a walk is never looked at.
-/
import Dissect.Options
import Dissect.Pe.ImportName
import Dissect.Pe.View
import Dissect.Walk
import Std.Data.ExtTreeMap

namespace Dissect.Pe

/-- The size of the header of an export directory. -/
def exportHeaderSize : Nat := 40

/-- The header of an export directory. -/
structure ExportHeader where
  nameRva : UInt32
  ordinalBase : UInt32
  functionCount : UInt32
  nameCount : UInt32
  functionsRva : UInt32
  namesRva : UInt32
  indicesRva : UInt32
  deriving DecidableEq, Repr

/-- The header at a relative address; its bytes must all be in the
file. -/
def ExportHeader.read (v : View) (rva : Nat) : Except ImageError ExportHeader := do
  let _ ← v.bytes rva exportHeaderSize
  let nameRva ← v.word32 (rva + 12)
  let ordinalBase ← v.word32 (rva + 16)
  let functionCount ← v.word32 (rva + 20)
  let nameCount ← v.word32 (rva + 24)
  let functionsRva ← v.word32 (rva + 28)
  let namesRva ← v.word32 (rva + 32)
  let indicesRva ← v.word32 (rva + 36)
  pure
    { nameRva := nameRva, ordinalBase := ordinalBase, functionCount := functionCount,
      nameCount := nameCount, functionsRva := functionsRva, namesRva := namesRva,
      indicesRva := indicesRva }

namespace ExportHeader

/-- The name of the exporting library; a library without one has an empty
name. -/
def library (h : ExportHeader) (v : View) (limit : Nat) : Except ImageError String :=
  if h.nameRva = 0 then .ok "" else v.string h.nameRva.toNat limit

/-- An entry of the name table: the index of a function and its name. -/
def nameAt (h : ExportHeader) (v : View) (limit entry : Nat) :
    Except ImageError (Nat × String) := do
  let nameRva ← v.word32 (h.namesRva.toNat + entry * 4)
  let index ← v.word16 (h.indicesRva.toNat + entry * 2)
  let name ← v.string nameRva.toNat limit
  pure (index.toNat, name)

/-- The names by index, with `count` entries of the name table from an
entry on over those that are there. -/
def namesFrom (h : ExportHeader) (v : View) (limit : Nat) :
    (count entry : Nat) → Std.ExtTreeMap Nat String →
      Except ImageError (Std.ExtTreeMap Nat String)
  | 0, _, names => .ok names
  | count + 1, entry, names =>
    match h.nameAt v limit entry with
    | .error e => .error e
    | .ok (index, name) => h.namesFrom v limit count (entry + 1) (names.insert index name)

/-- The relative address of the function with an index. -/
def functionAt (h : ExportHeader) (v : View) (index : Nat) : Except ImageError UInt32 :=
  v.word32 (h.functionsRva.toNat + index * 4)

end ExportHeader

/-- What the function loop goes by. -/
structure ExportContext where
  view : View
  directory : DataDirectory
  header : ExportHeader
  library : String
  /-- The names of functions, by index. -/
  names : Std.ExtTreeMap Nat String
  /-- At most this many symbols. -/
  limit : Nat

namespace ExportContext

/-- The relative address lies in the directory itself. -/
def isForwarder (c : ExportContext) (rva : UInt32) : Bool :=
  c.directory.rva.toNat ≤ rva.toNat
    && rva.toNat < c.directory.rva.toNat + c.directory.size.toNat

/-- The name of the function with an index. -/
def nameOf (c : ExportContext) (index : Nat) : String :=
  match c.names[index]? with
  | some name => name
  | none => qualifiedName c.library (.ordinal (c.header.ordinalBase.toNat + index))

/-- Define a symbol for each of the `count` functions from an index on,
when so many are defined already; the number defined in the end. The
steps so far, of which the last comes first, are those of the walk. -/
def bindFrom (c : ExportContext) :
    (count index defined : Nat) → List Step → Walk Nat
  | 0, _, defined, done => ⟨done.reverse, .ok defined⟩
  | count + 1, index, defined, done =>
    match c.header.functionAt c.view index with
    | .error e => ⟨done.reverse, .error e⟩
    | .ok rva =>
      if rva = 0 then c.bindFrom count (index + 1) defined done
      else if c.isForwarder rva then
        c.bindFrom count (index + 1) defined (.note (.exportForwarded index) :: done)
      else if c.limit ≤ defined then
        ⟨(.note (.exportLimit c.limit) :: done).reverse, .ok defined⟩
      else
        match c.view.mappedAddress rva.toNat with
        | .error e => ⟨done.reverse, .error e⟩
        | .ok address =>
          let name := c.nameOf index
          c.bindFrom count (index + 1) (defined + 1)
            (.define ⟨name, address, .exported⟩ :: .note (.exportFound address name) :: done)

/-- The steps so far come before the others and have no part in what the
loop comes to. -/
theorem bindFrom_eq_append (c : ExportContext) (count index defined : Nat)
    (done : List Step) :
    c.bindFrom count index defined done
      = ⟨done.reverse ++ (c.bindFrom count index defined []).steps,
          (c.bindFrom count index defined []).outcome⟩ := by
  induction count generalizing index defined done with
  | zero => simp [bindFrom]
  | succ count ih =>
    unfold bindFrom
    split
    · simp
    · split
      · exact ih _ _ _
      · split
        · rw [ih, ih _ _ [_]]
          simp
        · split
          · simp
          · split
            · simp
            · dsimp only
              rw [ih, ih _ _ [_, _]]
              simp

end ExportContext

/-- Walk an export directory; the number of symbols defined. -/
def walkExports (v : View) (directory : DataDirectory) (options : LoadOptions) : Walk Nat := do
  let limit := options.maxNameLength.toNat
  let h ← Walk.read (ExportHeader.read v directory.rva.toNat)
  let library ← Walk.read (h.library v limit)
  if h.functionCount < h.nameCount then
    Walk.fail (.exportTable
      (Numeral.decimal h.nameCount.toNat ++ " names for "
        ++ Numeral.decimal h.functionCount.toNat ++ " functions"))
  else
    let count := min h.nameCount.toNat options.maxExports.toNat
    let names ← Walk.read (h.namesFrom v limit count 0 ∅)
    let c : ExportContext :=
      { view := v, directory := directory, header := h, library := library, names := names,
        limit := options.maxExports.toNat }
    let defined ← c.bindFrom h.functionCount.toNat 0 0 []
    Walk.note (.exportsWalked library defined)
    pure defined

end Dissect.Pe

/-
How ordinal databases file libraries, whatever way a database came
about.

# Case

Spellings of a library that differ in the case of ASCII letters mean the
same library. The operations that write file a library in lower case, and
a look-up that does not find the spelling it was given tries the one in
lower case, so all spellings come to the same table as long as there are
no others (`lookup?_of_normal`).

# Where capitals come from

Reading a database back verbatim is the one operation that files a
library as it is spelled. Nothing that is written afterwards takes a
table away, so a capital that came in this way stays in
(`Origin.Yields.normal_iff`): its table is found under that spelling
alone. Merged into another database the same tables are filed anew, and
no capital is left.
-/
import Dissect.Pe.Ordinal

namespace Dissect

/-- Capitals are lowered to the letters 32 places behind them, and any
other character stays. -/
theorem Text.toLower_cases (c : Char) :
    (65 ≤ c.toNat ∧ c.toNat ≤ 90 ∧ c.toLower.toNat = c.toNat + 32)
      ∨ (c.isUpper = false ∧ c.toLower = c) := by
  cases hupper : c.isUpper with
  | false => exact .inr ⟨rfl, dif_neg (of_decide_eq_false hupper)⟩
  | true =>
      have hbounds := of_decide_eq_true hupper
      have hlow : 65 ≤ c.toNat := UInt32.le_iff_toNat_le.mp hbounds.1
      have hhigh : c.toNat ≤ 90 := UInt32.le_iff_toNat_le.mp hbounds.2
      have hlower : c.toLower.toNat = (c.val + 32).toNat :=
        congrArg Char.toNat (dif_pos hbounds)
      have hsum : (c.val + 32).toNat = (c.toNat + 32) % 2 ^ 32 := UInt32.toNat_add _ _
      exact .inl ⟨hlow, hhigh, by omega⟩

/-- Text without an ASCII capital is in lower case. -/
theorem Text.lowerAscii_of_isUpper {s : String} (h : ∀ c ∈ s.toList, c.isUpper = false) :
    Text.lowerAscii s = s := by
  have hmap : s.toList.map Char.toLower = s.toList.map id := by
    apply List.map_congr_left
    intro c hc
    exact dif_neg (of_decide_eq_false (h c hc))
  rw [Text.lowerAscii, hmap, List.map_id, String.ofList_toList]

/-- Text in lower case has no ASCII capital. -/
theorem Text.isUpper_of_mem_lowerAscii {s : String} :
    ∀ c ∈ (Text.lowerAscii s).toList, c.isUpper = false := by
  intro c hc
  unfold Text.lowerAscii at hc
  rw [String.toList_ofList] at hc
  obtain ⟨c', -, rfl⟩ := List.mem_map.mp hc
  rcases toLower_cases c' with ⟨hlow, -, hnat⟩ | ⟨hupper, hsame⟩
  · -- a letter that was lowered is behind all capitals
    apply decide_eq_false
    intro hbounds
    have hhigh : c'.toLower.toNat ≤ 90 := UInt32.le_iff_toNat_le.mp hbounds.2
    omega
  · rw [hsame]
    exact hupper

namespace Pe.OrdinalDatabase

variable {db : OrdinalDatabase}

/-- No library is filed under a name with an ASCII capital. -/
def Normal (db : OrdinalDatabase) : Prop :=
  ∀ library ∈ db.tables, ∀ c ∈ library.toList, c.isUpper = false

/-- Spellings of a library that differ in the case of ASCII letters are
answered alike. -/
def CaseBlind (db : OrdinalDatabase) : Prop :=
  ∀ (library library' : String) (ordinal : UInt16),
    Text.lowerAscii library = Text.lowerAscii library' →
    db.lookup? library ordinal = db.lookup? library' ordinal

-- ============================================================== look-ups

/-- Where every library is filed in lower case, a look-up is one in the
table of the lower-case spelling. -/
theorem lookup?_of_normal (h : db.Normal) (library : String) (ordinal : UInt16) :
    db.lookup? library ordinal
      = db.tables[Text.lowerAscii library]?.bind fun t => t[ordinal]? := by
  unfold lookup?
  cases ht : db.tables[library]? with
  | none => rfl
  | some t =>
      have hmem : library ∈ db.tables := by
        rw [Std.ExtTreeMap.mem_iff_isSome_getElem?, ht]
        rfl
      rw [Text.lowerAscii_of_isUpper (h library hmem), ht]
      rfl

theorem caseBlind_of_normal (h : db.Normal) : db.CaseBlind := by
  intro library library' ordinal hsame
  rw [lookup?_of_normal h, lookup?_of_normal h, hsame]

-- =============================================================== writing

/-- A library is filed after names were added if it was before, or if it
is the one they were added for. -/
theorem mem_extend {library : String} {names : List (UInt16 × String)} {key : String} :
    key ∈ (db.extend library names).tables
      ↔ key = Text.lowerAscii library ∨ key ∈ db.tables := by
  unfold extend
  rw [Std.ExtTreeMap.mem_insert, Std.LawfulEqCmp.compare_eq_iff_eq]
  exact or_congr_left eq_comm

/-- Adding names leaves the libraries in lower case if they were, and
only then. -/
theorem normal_extend_iff {library : String} {names : List (UInt16 × String)} :
    (db.extend library names).Normal ↔ db.Normal := by
  constructor
  · intro h key hkey
    exact h key (mem_extend.mpr (.inr hkey))
  · intro h key hkey
    rcases mem_extend.mp hkey with rfl | hold
    · exact Text.isUpper_of_mem_lowerAscii
    · exact h key hold

/-- So does adding tables, however their libraries are spelled. -/
theorem normal_extendAll_iff {tables : List (String × OrdinalTable)} :
    (db.extendAll tables).Normal ↔ db.Normal := by
  unfold extendAll
  induction tables generalizing db with
  | nil => rfl
  | cons t rest ih =>
      rw [List.foldl_cons, ih]
      exact normal_extend_iff

theorem normal_empty : empty.Normal := by
  intro key hkey
  exact absurd hkey Std.ExtTreeMap.not_mem_empty

theorem normal_builtin : builtin.Normal := by
  unfold builtin
  rw [normal_extend_iff, normal_extend_iff, normal_extend_iff]
  exact normal_empty

-- =============================================================== origins

/-- How a database came about. -/
inductive Origin where
  | empty
  | builtin
  /-- From text, every library in lower case. -/
  | parsed (text : String)
  /-- From text, every library as it is spelled. -/
  | restored (text : String)
  | insert (o : Origin) (library : String) (ordinal : UInt16) (name : String)
  | extend (o : Origin) (library : String) (names : List (UInt16 × String))
  | merge (o other : Origin)

namespace Origin

/-- The databases that come about in a way. The tables that are added
together are added in any order. -/
inductive Yields : Origin → OrdinalDatabase → Prop where
  | empty : Yields .empty .empty
  | builtin : Yields .builtin .builtin
  | parsed {text : String} {verbatim : OrdinalDatabase}
      {tables : List (String × OrdinalTable)}
      (htext : parseVerbatim? text = some verbatim)
      (horder : tables.Perm verbatim.tables.toList) :
      Yields (.parsed text) (OrdinalDatabase.empty.extendAll tables)
  | restored {text : String} {db : OrdinalDatabase}
      (htext : parseVerbatim? text = some db) : Yields (.restored text) db
  | insert {o : Origin} {db : OrdinalDatabase} (h : Yields o db) (library : String)
      (ordinal : UInt16) (name : String) :
      Yields (.insert o library ordinal name) (db.insert library ordinal name)
  | extend {o : Origin} {db : OrdinalDatabase} (h : Yields o db) (library : String)
      (names : List (UInt16 × String)) :
      Yields (.extend o library names) (db.extend library names)
  | merge {o other : Origin} {db db' : OrdinalDatabase}
      {tables : List (String × OrdinalTable)} (h : Yields o db) (h' : Yields other db')
      (horder : tables.Perm db'.tables.toList) :
      Yields (.merge o other) (db.extendAll tables)

/-- What was written to in the end is text read back verbatim, with a
capital in the name of a library. -/
def Capitalized : Origin → Prop
  | .empty | .builtin | .parsed _ => False
  | .restored text => ∃ db, parseVerbatim? text = some db ∧ ¬ db.Normal
  | .insert o _ _ _ | .extend o _ _ | .merge o _ => o.Capitalized

/-- A database has a capital exactly if it was there at the start. -/
theorem Yields.normal_iff {o : Origin} {db : OrdinalDatabase} (h : o.Yields db) :
    db.Normal ↔ ¬ o.Capitalized := by
  induction h with
  | empty => exact iff_of_true normal_empty not_false
  | builtin => exact iff_of_true normal_builtin not_false
  | parsed htext horder =>
      exact iff_of_true (normal_extendAll_iff.mpr normal_empty) not_false
  | restored htext => simp [Capitalized, htext]
  | insert h library ordinal name ih => exact normal_extend_iff.trans ih
  | extend h library names ih => exact normal_extend_iff.trans ih
  | merge h h' horder ih ih' => exact normal_extendAll_iff.trans ih

end Origin

/-- Whatever way a database came about: its libraries are in lower case
unless it goes back to text that was read verbatim and had a capital in
the name of a library, and then every spelling of a library is answered
alike. -/
theorem origin_caseBlind {o : Origin} {db : OrdinalDatabase} (h : o.Yields db) :
    (db.Normal ↔ ¬ o.Capitalized) ∧ (¬ o.Capitalized → db.CaseBlind) := by
  refine ⟨h.normal_iff, fun hcapital => ?_⟩
  exact caseBlind_of_normal (h.normal_iff.mpr hcapital)

/-- A database as text, with a capital in the name of its library. -/
def capitalText : String := "\x7b\"A.dll\": \x7b\"1\": \"x\"\x7d\x7d"

/-- Merged into a database that was written to, the library with the
capital is one of many that are answered under every spelling. -/
theorem origin_caseBlind_merged :
    ∃ db, (Origin.merge (.insert .builtin "MFC42.DLL" 1576 "AfxWinMain")
        (.restored capitalText)).Yields db ∧ db.Normal ∧ db.CaseBlind := by
  have htext : (parseVerbatim? capitalText).isSome := by decide +kernel
  obtain ⟨verbatim, hverbatim⟩ := Option.isSome_iff_exists.mp htext
  have hyields := Origin.Yields.merge (.insert .builtin "MFC42.DLL" 1576 "AfxWinMain")
    (.restored hverbatim) (List.Perm.refl verbatim.tables.toList)
  obtain ⟨hnormal, hblind⟩ := origin_caseBlind hyields
  have hcapital : ¬ (Origin.merge (.insert .builtin "MFC42.DLL" 1576 "AfxWinMain")
      (.restored capitalText)).Capitalized := not_false
  exact ⟨_, hyields, hnormal.mpr hcapital, hblind hcapital⟩

/-- Read back verbatim, the library with the capital is answered under
that spelling and not in lower case. -/
theorem restored_not_caseBlind :
    ∃ db, (Origin.restored capitalText).Yields db ∧ db.lookup? "A.dll" 1 = some "x"
      ∧ db.lookup? "a.dll" 1 = none ∧ ¬ db.Normal ∧ ¬ db.CaseBlind := by
  have hanswers : (parseVerbatim? capitalText).map
      (fun db => (db.lookup? "A.dll" 1, db.lookup? "a.dll" 1)) = some (some "x", none) := by
    decide +kernel
  obtain ⟨db, htext, hlookups⟩ := Option.map_eq_some_iff.mp hanswers
  obtain ⟨hspelled, hlower⟩ := Prod.mk.inj hlookups
  have hsensitive : ¬ db.CaseBlind := by
    intro h
    have hsame := h "A.dll" "a.dll" 1 (by decide)
    rw [hspelled, hlower] at hsame
    cases hsame
  exact ⟨db, .restored htext, hspelled, hlower, fun h => hsensitive (caseBlind_of_normal h),
    hsensitive⟩

end Pe.OrdinalDatabase

end Dissect

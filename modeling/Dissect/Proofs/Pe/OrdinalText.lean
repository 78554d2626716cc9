/-
What a text says about ordinals, and what is read from it.

# Spellings

A text files its tables under libraries as they are spelled there, so
spellings of one library that differ in case have a table each. To read
the text is to add these tables to an empty database one after the other,
where they all come to be filed in lower case, and the order in which the
tables are come across is not that of the text: it can be any
(`ReadsAs`).

# Last come

A tour can be cut open at any table and that table put at its end
(`Tours.perm`), so any name that the text has for a place can be the last
one that is written there, and is what a look-up answers in some reading
(`exists_readsAs_of_mem`). All readings give the same answers exactly if
the text never has two names for one place.
-/
import Dissect.Proofs.Pe.OrdinalWrites

namespace Dissect.Pe.OrdinalDatabase

variable {db verbatim : OrdinalDatabase} {visit : Additions} {text : String}

-- ================================================================= names

/-- The names of a database as writes, each for its library as it is
spelled. -/
def writes (db : OrdinalDatabase) : List Write := writesOf db.tour

/-- A tour comes across the names that are filed. -/
theorem Tours.mem_writesOf_iff (h : db.Tours visit) {w : Write} :
    w ∈ writesOf visit ↔ db.filed? (w.library, w.ordinal) = some w.name := by
  unfold writesOf writesFor filed?
  simp only [List.mem_flatMap, List.mem_map, Option.bind_eq_some_iff]
  constructor
  · rintro ⟨t, ht, n, hn, rfl⟩
    obtain ⟨table, htable, hnames⟩ := h.names t ht
    refine ⟨table, htable, ?_⟩
    exact Std.ExtTreeMap.mem_toList_iff_getElem?_eq_some.mp (hnames.mem_iff.mp hn)
  · rintro ⟨table, htable, hname⟩
    have hfiled : w.library ∈ db.tables.keys := by
      rw [Std.ExtTreeMap.mem_keys, Std.ExtTreeMap.mem_iff_isSome_getElem?, htable]
      rfl
    obtain ⟨t, ht, hlibrary⟩ := List.mem_map.mp (h.libraries.mem_iff.mpr hfiled)
    obtain ⟨table', htable', hnames⟩ := h.names t ht
    obtain rfl : table' = table := by
      rw [hlibrary, htable] at htable'
      exact (Option.some.inj htable').symm
    refine ⟨t, ht, (w.ordinal, w.name), hnames.mem_iff.mpr ?_, ?_⟩
    · exact Std.ExtTreeMap.mem_toList_iff_getElem?_eq_some.mpr hname
    · rw [hlibrary]

/-- A tour makes the writes of its database, in some order. -/
theorem Tours.mem_writes_iff (h : db.Tours visit) {w : Write} :
    w ∈ writesOf visit ↔ w ∈ db.writes := by
  unfold writes
  rw [h.mem_writesOf_iff, db.tours_tour.mem_writesOf_iff]

/-- The tables of a tour can be put in another order. -/
theorem Tours.perm {visit' : Additions} (h : db.Tours visit) (hperm : visit'.Perm visit) :
    db.Tours visit' where
  libraries := (hperm.map _).trans h.libraries
  names := fun t ht => h.names t (hperm.mem_iff.mp ht)

/-- The names that were written to a place agree, for all places. -/
def Unambiguous (writes : List Write) : Prop :=
  ∀ w ∈ writes, ∀ w' ∈ writes, w.place = w'.place → w.name = w'.name

instance (writes : List Write) : Decidable (Unambiguous writes) :=
  inferInstanceAs
    (Decidable (∀ w ∈ writes, ∀ w' ∈ writes, w.place = w'.place → w.name = w'.name))

/-- If all names for a place are one, that one is the last. -/
theorem lastName?_eq_some_of_forall {writes : List Write} {w : Write} (hmem : w ∈ writes)
    (h : ∀ w' ∈ writes, w'.place = w.place → w'.name = w.name) :
    lastName? writes w.place = some w.name := by
  obtain ⟨name, hname⟩ := Option.isSome_iff_exists.mp
    (isSome_lastName?_iff.mpr ⟨w, hmem, rfl⟩)
  obtain ⟨w', hmem', hplace, rfl⟩ := exists_of_lastName? hname
  rw [hname, h w' hmem' hplace]

theorem Tours.isSome_lastName?_iff (h : db.Tours visit) {place : String × UInt16} :
    (lastName? (writesOf visit) place).isSome = true ↔ ∃ w ∈ db.writes, w.place = place := by
  rw [OrdinalDatabase.isSome_lastName?_iff]
  simp only [h.mem_writes_iff]

/-- If no two writes contend, a tour files each name, in any order. -/
theorem Tours.lastName?_of_unambiguous (h : db.Tours visit) (hsame : Unambiguous db.writes)
    {w : Write} (hw : w ∈ db.writes) : lastName? (writesOf visit) w.place = some w.name := by
  refine lastName?_eq_some_of_forall (h.mem_writes_iff.mpr hw) fun w' hw' hplace => ?_
  exact hsame w' (h.mem_writes_iff.mp hw') w hw hplace

/-- If no two names are for one place, no tour differs from another in
what it comes across last. -/
theorem Tours.lastName?_congr {visit' : Additions} (h : db.Tours visit)
    (h' : db.Tours visit') (hsame : Unambiguous db.writes) (place : String × UInt16) :
    lastName? (writesOf visit) place = lastName? (writesOf visit') place := by
  by_cases hwritten : ∃ w ∈ db.writes, w.place = place
  · obtain ⟨w, hw, rfl⟩ := hwritten
    rw [h.lastName?_of_unambiguous hsame hw, h'.lastName?_of_unambiguous hsame hw]
  · rw [Option.not_isSome_iff_eq_none.mp (mt h.isSome_lastName?_iff.mp hwritten),
      Option.not_isSome_iff_eq_none.mp (mt h'.isSome_lastName?_iff.mp hwritten)]

/-- A tour can come across any name last, of all that are for the same
place. -/
theorem exists_tours_lastName? (db : OrdinalDatabase) {w : Write} (hw : w ∈ db.writes) :
    ∃ visit, db.Tours visit ∧ lastName? (writesOf visit) w.place = some w.name := by
  obtain ⟨t, ht, hwt⟩ := List.mem_flatMap.mp hw
  have hperm : (db.tour.erase t ++ [t]).Perm db.tour :=
    (List.perm_append_singleton t _).trans (List.perm_cons_erase ht).symm
  have hvisit : db.Tours (db.tour.erase t ++ [t]) := db.tours_tour.perm hperm
  refine ⟨_, hvisit, ?_⟩
  have hlast : writesOf (db.tour.erase t ++ [t])
      = writesOf (db.tour.erase t) ++ writesFor t.1 t.2 := by
    simp [writesOf]
  have hfiled : ∀ w' ∈ writesFor t.1 t.2, db.filed? (t.1, w'.ordinal) = some w'.name := by
    intro w' hw'
    have hlibrary : w'.library = t.1 := by
      obtain ⟨n, -, rfl⟩ := List.mem_map.mp hw'
      rfl
    rw [← hlibrary, ← hvisit.mem_writesOf_iff, hlast]
    exact List.mem_append_right _ hw'
  -- One table has one name for an ordinal, so within it no order matters.
  rw [hlast, lastName?_append, lastName?_eq_some_of_forall hwt, Option.some_or]
  intro w' hw' hplace
  have hordinal : w'.ordinal = w.ordinal := congrArg Prod.snd hplace
  have hname := hfiled w' hw'
  rw [hordinal, hfiled w hwt] at hname
  exact (Option.some.inj hname).symm

-- ============================================================== readings

/-- The text is read as a database: its tables are added to an empty one
in the order of some tour. -/
def ReadsAs (text : String) (db : OrdinalDatabase) : Prop :=
  ∃ verbatim visit, parseVerbatim? text = some verbatim ∧ verbatim.Tours visit
    ∧ db = empty.extendEach visit

/-- What was read answers with the last name that the tour came across. -/
theorem lookup?_extendEach_empty (visit : Additions) (library : String) (ordinal : UInt16) :
    (empty.extendEach visit).lookup? library ordinal
      = lastName? (writesOf visit) (Text.lowerAscii library, ordinal) :=
  (records_empty.extendEach visit).lookup?_eq library ordinal

/-- A text reads as what a tour of its verbatim database builds. -/
theorem readsAs_iff (htext : parseVerbatim? text = some verbatim) :
    ReadsAs text db ↔ ∃ visit, verbatim.Tours visit ∧ db = empty.extendEach visit := by
  constructor
  · rintro ⟨verbatim', visit, htext', h⟩
    obtain rfl : verbatim' = verbatim := by
      rw [htext] at htext'
      exact (Option.some.inj htext').symm
    exact ⟨visit, h⟩
  · rintro ⟨visit, h⟩
    exact ⟨verbatim, visit, htext, h⟩

theorem exists_parse?_readsAs (htext : parseVerbatim? text = some verbatim) :
    ∃ db, parse? text = some db ∧ ReadsAs text db := by
  refine ⟨empty.merge verbatim, ?_, ?_⟩
  · rw [parse?, htext, Option.map_some]
  · rw [merge_eq_extendEach]
    exact ⟨verbatim, verbatim.tour, htext, verbatim.tours_tour, rfl⟩

/-- Any name that the text has is what some reading answers with. -/
theorem exists_readsAs_of_mem (htext : parseVerbatim? text = some verbatim) {w : Write}
    (hw : w ∈ verbatim.writes) :
    ∃ db, ReadsAs text db ∧ ∀ library, Text.lowerAscii library = Text.lowerAscii w.library →
      db.lookup? library w.ordinal = some w.name := by
  obtain ⟨visit, hvisit, hlast⟩ := verbatim.exists_tours_lastName? hw
  refine ⟨_, ⟨verbatim, visit, htext, hvisit, rfl⟩, fun library hlibrary => ?_⟩
  rw [lookup?_extendEach_empty, hlibrary]
  exact hlast

/-- Some reading finds a name exactly if some write has it. -/
theorem exists_lookup?_some_iff (htext : parseVerbatim? text = some verbatim)
    (library : String) (ordinal : UInt16) (name : String) :
    (∃ db, ReadsAs text db ∧ db.lookup? library ordinal = some name)
      ↔ ∃ w ∈ verbatim.writes,
          w.place = (Text.lowerAscii library, ordinal) ∧ w.name = name := by
  constructor
  · rintro ⟨db, hreads, hlookup⟩
    obtain ⟨visit, hvisit, rfl⟩ := (readsAs_iff htext).mp hreads
    rw [lookup?_extendEach_empty] at hlookup
    obtain ⟨w, hw, hplace⟩ := exists_of_lastName? hlookup
    exact ⟨w, hvisit.mem_writes_iff.mp hw, hplace⟩
  · rintro ⟨w, hw, hplace, rfl⟩
    obtain ⟨hlibrary, rfl⟩ := Prod.mk.inj hplace
    obtain ⟨db, hreads, hlookup⟩ := exists_readsAs_of_mem htext hw
    exact ⟨db, hreads, hlookup library hlibrary.symm⟩

/-- All readings find no name exactly where no write is. -/
theorem lookup?_none_iff (htext : parseVerbatim? text = some verbatim)
    (hreads : ReadsAs text db) (library : String) (ordinal : UInt16) :
    db.lookup? library ordinal = none
      ↔ ∀ w ∈ verbatim.writes, w.place ≠ (Text.lowerAscii library, ordinal) := by
  obtain ⟨visit, hvisit, rfl⟩ := (readsAs_iff htext).mp hreads
  rw [lookup?_extendEach_empty, ← Option.not_isSome_iff_eq_none, hvisit.isSome_lastName?_iff]
  simp only [not_exists, not_and, ne_eq]

/-- The readings of a text: the one that `parse?` makes is one of them,
and all have names for the same places. In some reading a look-up answers
with any name that the text has for the place, and in none with another;
all readings answer alike exactly if the text has no two names for one
place. -/
theorem readings_agree_iff (htext : parseVerbatim? text = some verbatim) :
    (∃ db, parse? text = some db ∧ ReadsAs text db)
    ∧ (∀ db, ReadsAs text db → ∀ library ordinal, db.lookup? library ordinal = none
        ↔ ∀ w ∈ verbatim.writes, w.place ≠ (Text.lowerAscii library, ordinal))
    ∧ (∀ library ordinal name,
        (∃ db, ReadsAs text db ∧ db.lookup? library ordinal = some name)
          ↔ ∃ w ∈ verbatim.writes,
              w.place = (Text.lowerAscii library, ordinal) ∧ w.name = name)
    ∧ ((∀ db db', ReadsAs text db → ReadsAs text db' →
          ∀ library ordinal, db.lookup? library ordinal = db'.lookup? library ordinal)
        ↔ Unambiguous verbatim.writes) := by
  refine ⟨exists_parse?_readsAs htext, fun db hreads => lookup?_none_iff htext hreads,
    exists_lookup?_some_iff htext, fun hagree w hw w' hw' hplace => ?_,
    fun hsame db db' hreads hreads' library ordinal => ?_⟩
  · obtain ⟨hlibrary, hordinal⟩ := Prod.mk.inj hplace
    obtain ⟨db, hreads, hlookup⟩ := exists_readsAs_of_mem htext hw
    obtain ⟨db', hreads', hlookup'⟩ := exists_readsAs_of_mem htext hw'
    have hanswers := hagree db db' hreads hreads' w.library w.ordinal
    rw [hlookup w.library rfl, hordinal, hlookup' w.library hlibrary] at hanswers
    exact Option.some.inj hanswers
  · obtain ⟨visit, hvisit, rfl⟩ := (readsAs_iff htext).mp hreads
    obtain ⟨visit', hvisit', rfl⟩ := (readsAs_iff htext).mp hreads'
    rw [lookup?_extendEach_empty, lookup?_extendEach_empty]
    exact hvisit.lastName?_congr hvisit' hsame _

/-- Two spellings of one library, with an ordinal each. -/
def spelledApart : String :=
  "\x7b\"A.dll\": \x7b\"1\": \"x\"\x7d, \"a.dll\": \x7b\"2\": \"y\"\x7d\x7d"

/-- All readings of it answer alike under any spelling. -/
theorem readings_agree_spelledApart :
    ∃ db, parse? spelledApart = some db
      ∧ ∀ db', ReadsAs spelledApart db' → ∀ library ordinal,
        db'.lookup? library ordinal = db.lookup? library ordinal := by
  have hparsed : (parseVerbatim? spelledApart).map writes
      = some [⟨"A.dll", 1, "x"⟩, ⟨"a.dll", 2, "y"⟩] := by decide +kernel
  obtain ⟨verbatim, htext, hwrites⟩ := Option.map_eq_some_iff.mp hparsed
  obtain ⟨⟨db, hparse, hreads⟩, -, -, hagree⟩ := readings_agree_iff htext
  have hsame : Unambiguous verbatim.writes := by
    rw [hwrites]
    decide
  exact ⟨db, hparse, fun db' hreads' => hagree.mpr hsame db' db hreads' hreads⟩

/-- Two spellings of one library, with two names for one ordinal. -/
def spelledTwice : String :=
  "\x7b\"A.dll\": \x7b\"1\": \"x\"\x7d, \"a.dll\": \x7b\"1\": \"y\"\x7d\x7d"

/-- It is read in two ways, with a name each. -/
theorem spelledTwice_ambiguous :
    ∃ db db', ReadsAs spelledTwice db ∧ ReadsAs spelledTwice db'
      ∧ db.lookup? "a.dll" 1 = some "x" ∧ db'.lookup? "a.dll" 1 = some "y" := by
  have hparsed : (parseVerbatim? spelledTwice).map writes
      = some [⟨"A.dll", 1, "x"⟩, ⟨"a.dll", 1, "y"⟩] := by decide +kernel
  obtain ⟨verbatim, htext, hwrites⟩ := Option.map_eq_some_iff.mp hparsed
  have hupper : ⟨"A.dll", 1, "x"⟩ ∈ verbatim.writes := by simp [hwrites]
  have hlower : ⟨"a.dll", 1, "y"⟩ ∈ verbatim.writes := by simp [hwrites]
  obtain ⟨db, hreads, hlookup⟩ := exists_readsAs_of_mem htext hupper
  obtain ⟨db', hreads', hlookup'⟩ := exists_readsAs_of_mem htext hlower
  exact ⟨db, db', hreads, hreads', hlookup "a.dll" (by decide), hlookup' "a.dll" rfl⟩

end Dissect.Pe.OrdinalDatabase

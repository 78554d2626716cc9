/-
An ordinal database as the writes that it was made by.

# The flat map

A database has two levels, of libraries and of ordinals, and files a
library in lower case whenever something is written. None of this shows:
it answers like one list of writes, of which the last for a place counts
(`Records`). A place is a library in lower case and an ordinal. One
addition of names carries the list on (`Records.extend`), and so does a
whole database that is merged (`Records.extendEach`), since that is
nothing but additions. The number of names is the number of places, as
the names that are filed have each a place of its own (`nodup_filings`).

# The order of a merge

The tables of a database that is merged are come across in any order,
and so are the names of a table. In a database that was made by writes
no two tables are of one library, so additions for different tables can
change places (`extend_comm`), and the merged database is the same for
all orders (`extendEach_eq_merge`). With that a whole history of writes
and merges, to any depth, comes to one database
(`History.Builds.eq_database`).
-/
import Dissect.Proofs.Pe.Ordinal
import Mathlib.Data.Finset.Card

namespace Dissect.Pe.OrdinalDatabase

variable {db other : OrdinalDatabase} {library : String} {names : List (UInt16 × String)}

-- ================================================================ writes

/-- A name written for an ordinal of a library. -/
structure Write where
  library : String
  ordinal : UInt16
  name : String
  deriving DecidableEq

/-- What the name is filed under. -/
def Write.place (w : Write) : String × UInt16 := (Text.lowerAscii w.library, w.ordinal)

/-- The places that were written to. -/
def places (writes : List Write) : Finset (String × UInt16) := (writes.map Write.place).toFinset

/-- The name that was written to a place last. -/
def lastName? (writes : List Write) (place : String × UInt16) : Option String :=
  (writes.filter fun w => w.place = place).getLast?.map Write.name

/-- The writes that add names for one library. -/
def writesFor (library : String) (names : List (UInt16 × String)) : List Write :=
  names.map fun n => ⟨library, n.1, n.2⟩

/-- Libraries and the names to add for them, one after the other. -/
abbrev Additions := List (String × List (UInt16 × String))

/-- The writes that make additions. -/
def writesOf (tour : Additions) : List Write :=
  tour.flatMap fun t => writesFor t.1 t.2

/-- Later writes come first. -/
theorem lastName?_append (xs ys : List Write) (place : String × UInt16) :
    lastName? (xs ++ ys) place = (lastName? ys place).or (lastName? xs place) := by
  unfold lastName?
  rw [List.filter_append, List.getLast?_append, Option.map_or]

theorem lastName?_cons (w : Write) (rest : List Write) (place : String × UInt16) :
    lastName? (w :: rest) place
      = (lastName? rest place).or (if w.place = place then some w.name else none) := by
  rw [← List.singleton_append, lastName?_append]
  congr 1
  by_cases h : w.place = place
  · simp [lastName?, h]
  · simp [lastName?, h]

/-- The last name was written there. -/
theorem exists_of_lastName? {writes : List Write} {place : String × UInt16} {name : String}
    (h : lastName? writes place = some name) :
    ∃ w ∈ writes, w.place = place ∧ w.name = name := by
  unfold lastName? at h
  obtain ⟨w, hw, rfl⟩ := Option.map_eq_some_iff.mp h
  obtain ⟨hmem, hplace⟩ := List.mem_filter.mp (List.mem_of_getLast? hw)
  exact ⟨w, hmem, of_decide_eq_true hplace, rfl⟩

theorem isSome_lastName?_iff {writes : List Write} {place : String × UInt16} :
    (lastName? writes place).isSome = true ↔ ∃ w ∈ writes, w.place = place := by
  constructor
  · intro h
    obtain ⟨name, hname⟩ := Option.isSome_iff_exists.mp h
    obtain ⟨w, hmem, hplace, -⟩ := exists_of_lastName? hname
    exact ⟨w, hmem, hplace⟩
  · rintro ⟨w, hmem, hplace⟩
    unfold lastName?
    rw [Option.isSome_map, List.getLast?_isSome]
    exact List.ne_nil_of_mem (List.mem_filter.mpr ⟨hmem, decide_eq_true hplace⟩)

-- =============================================================== filings

/-- The name that is filed under a library, as it is spelled, and an
ordinal. -/
def filed? (db : OrdinalDatabase) (place : String × UInt16) : Option String :=
  db.tables[place.1]?.bind fun t => t[place.2]?

/-- Names added to a table are found as the writes say. -/
theorem getElem?_insertMany (t : OrdinalTable) (library : String)
    (names : List (UInt16 × String)) (ordinal : UInt16) :
    (t.insertMany names)[ordinal]?
      = (lastName? (writesFor library names) (Text.lowerAscii library, ordinal)).or
          t[ordinal]? := by
  induction names generalizing t with
  | nil => rfl
  | cons n rest ih =>
      have hwrites : writesFor library (n :: rest)
          = ⟨library, n.1, n.2⟩ :: writesFor library rest := rfl
      rw [← Prod.mk.eta (p := n), Std.ExtTreeMap.insertMany_cons, ih, Prod.mk.eta, hwrites,
        lastName?_cons, Option.or_assoc, Std.ExtTreeMap.getElem?_insert]
      congr 1
      by_cases h : n.1 = ordinal
      · simp [Write.place, h]
      · simp [Write.place, h]

/-- Adding names files them as the writes say and leaves the rest. -/
theorem filed?_extend (place : String × UInt16) :
    (db.extend library names).filed? place
      = (lastName? (writesFor library names) place).or (db.filed? place) := by
  obtain ⟨key, ordinal⟩ := place
  unfold filed? extend
  rw [Std.ExtTreeMap.getElem?_insert]
  by_cases h : Text.lowerAscii library = key
  · subst h
    rw [if_pos Std.ReflCmp.compare_self, Option.bind_some, getElem?_insertMany _ library]
    congr 1
    unfold table
    cases db.tables[Text.lowerAscii library]? with
    | none => simp
    | some t => rfl
  · have helsewhere : lastName? (writesFor library names) (key, ordinal) = none := by
      refine Option.not_isSome_iff_eq_none.mp fun hsome => ?_
      obtain ⟨w, hmem, hplace⟩ := isSome_lastName?_iff.mp hsome
      obtain ⟨n, -, rfl⟩ := List.mem_map.mp hmem
      exact h (congrArg Prod.fst hplace)
    rw [if_neg fun heq => h (Std.LawfulEqCmp.eq_of_compare heq), helsewhere, Option.none_or]

/-- The places of all names that are filed. -/
def filings (db : OrdinalDatabase) : List (String × UInt16) :=
  db.tables.toList.flatMap fun t => t.2.keys.map fun ordinal => (t.1, ordinal)

theorem mem_filings_iff {place : String × UInt16} :
    place ∈ db.filings ↔ (db.filed? place).isSome = true := by
  obtain ⟨key, ordinal⟩ := place
  unfold filings filed?
  simp only [List.mem_flatMap, List.mem_map, Prod.mk.injEq]
  constructor
  · rintro ⟨⟨key', t⟩, hmem, ordinal', hordinal, rfl, rfl⟩
    rw [Std.ExtTreeMap.mem_toList_iff_getElem?_eq_some.mp hmem]
    exact Std.ExtTreeMap.mem_iff_isSome_getElem?.mp (Std.ExtTreeMap.mem_keys.mp hordinal)
  · intro h
    obtain ⟨name, hname⟩ := Option.isSome_iff_exists.mp h
    obtain ⟨t, ht, hname⟩ := Option.bind_eq_some_iff.mp hname
    refine ⟨(key, t), Std.ExtTreeMap.mem_toList_iff_getElem?_eq_some.mpr ht, ordinal, ?_, rfl,
      rfl⟩
    rw [Std.ExtTreeMap.mem_keys, Std.ExtTreeMap.mem_iff_isSome_getElem?]
    exact Option.isSome_iff_exists.mpr ⟨name, hname⟩

/-- No place has two names. -/
theorem nodup_filings (db : OrdinalDatabase) : db.filings.Nodup := by
  unfold filings
  rw [List.nodup_flatMap]
  constructor
  · intro t _
    refine Std.ExtTreeMap.nodup_keys.map fun o o' h => ?_
    exact congrArg Prod.snd h
  · refine Std.ExtTreeMap.distinct_keys_toList.imp fun {t t'} hne => ?_
    intro place hplace hplace'
    obtain ⟨o, -, rfl⟩ := List.mem_map.mp hplace
    obtain ⟨o', -, h⟩ := List.mem_map.mp hplace'
    have hsame : t'.1 = t.1 := (Prod.mk.inj h).1
    exact hne (by rw [hsame]; exact Std.ReflCmp.compare_self)

/-- A database has as many names as filings. -/
theorem size_eq_length_filings (db : OrdinalDatabase) : db.size = db.filings.length := by
  unfold size filings
  rw [Std.ExtTreeMap.foldl_eq_foldl_toList, List.length_flatMap]
  generalize db.tables.toList = tables
  simp only [List.length_map, Std.ExtTreeMap.length_keys]
  rw [← Nat.zero_add (List.sum _)]
  generalize 0 = count
  induction tables generalizing count with
  | nil => rfl
  | cons t rest ih =>
      rw [List.foldl_cons, ih, List.map_cons, List.sum_cons]
      omega

-- =============================================================== records

/-- The database is what the writes made of an empty one: libraries are
in lower case, and the last name written to a place is filed there. -/
structure Records (db : OrdinalDatabase) (writes : List Write) : Prop where
  normal : db.Normal
  filed : ∀ place, db.filed? place = lastName? writes place

theorem records_empty : Records empty [] where
  normal := normal_empty
  filed := fun place => by simp [filed?, empty, lastName?]

/-- Added names are the last writes. -/
theorem Records.extend {writes : List Write} (h : Records db writes) (library : String)
    (names : List (UInt16 × String)) :
    Records (db.extend library names) (writes ++ writesFor library names) where
  normal := normal_extend_iff.mpr h.normal
  filed := fun place => by rw [filed?_extend, lastName?_append, h.filed]

/-- Add names for one library after the other. -/
def extendEach (db : OrdinalDatabase) (tour : Additions) : OrdinalDatabase :=
  tour.foldl (fun db t => db.extend t.1 t.2) db

/-- A tour records its writes behind those recorded already. -/
theorem Records.extendEach {writes : List Write} (h : Records db writes) (tour : Additions) :
    Records (db.extendEach tour) (writes ++ writesOf tour) := by
  induction tour generalizing db writes with
  | nil =>
      rw [show writesOf [] = [] from rfl, List.append_nil]
      exact h
  | cons t rest ih =>
      have hwrites : writesOf (t :: rest) = writesFor t.1 t.2 ++ writesOf rest := rfl
      rw [hwrites, ← List.append_assoc]
      exact ih (h.extend t.1 t.2)

namespace Records

variable {writes : List Write}

/-- A lookup gives the last write, whatever the case of the library's
name. -/
theorem lookup?_eq (h : Records db writes) (library : String) (ordinal : UInt16) :
    db.lookup? library ordinal = lastName? writes (Text.lowerAscii library, ordinal) := by
  rw [← h.filed]
  exact lookup?_of_normal h.normal library ordinal

/-- There are as many names as places written to. -/
theorem size_eq (h : Records db writes) : db.size = (places writes).card := by
  have hplaces : db.filings.toFinset = places writes := by
    ext place
    rw [List.mem_toFinset, mem_filings_iff, h.filed, isSome_lastName?_iff, places,
      List.mem_toFinset, List.mem_map]
  rw [size_eq_length_filings, ← List.toFinset_card_of_nodup db.nodup_filings, hplaces]

theorem isEmpty_iff (h : Records db writes) :
    db.isEmpty = true ↔ (places writes).card = 0 := by
  unfold isEmpty
  rw [beq_iff_eq, h.size_eq]

end Records

-- ================================================================= tours

/-- The tables of a database, come across one after the other: every
library once, in any order, with its names in any order. -/
structure Tours (db : OrdinalDatabase) (tour : Additions) : Prop where
  libraries : (tour.map (·.1)).Perm db.tables.keys
  names : ∀ t ∈ tour, ∃ table, db.tables[t.1]? = some table ∧ t.2.Perm table.toList

/-- A tour in order. -/
def tour (db : OrdinalDatabase) : Additions :=
  db.tables.toList.map fun t => (t.1, t.2.toList)

theorem tours_tour (db : OrdinalDatabase) : db.Tours db.tour where
  libraries := by
    unfold tour
    rw [List.map_map, ← Std.ExtTreeMap.map_fst_toList_eq_keys]
    exact .refl _
  names := by
    intro t ht
    obtain ⟨⟨key, table⟩, hmem, rfl⟩ := List.mem_map.mp ht
    exact ⟨table, Std.ExtTreeMap.mem_toList_iff_getElem?_eq_some.mp hmem, .refl _⟩

/-- Merging is visiting the other database and adding what it has. -/
theorem merge_eq_extendEach (db other : OrdinalDatabase) :
    db.merge other = db.extendEach other.tour := by
  unfold merge extendAll extendEach tour
  rw [List.foldl_map]

/-- Names with an ordinal each can be added in any order. -/
theorem insertMany_perm {t : OrdinalTable} {xs ys : List (UInt16 × String)} (h : xs.Perm ys)
    (hdistinct : (xs.map (·.1)).Nodup) : t.insertMany xs = t.insertMany ys := by
  rw [Std.ExtTreeMap.insertMany_list_eq_foldl, Std.ExtTreeMap.insertMany_list_eq_foldl]
  refine h.foldl_eq' ?_ t
  intro x hx y hy t
  by_cases hxy : x.1 = y.1
  · rw [List.inj_on_of_nodup_map hdistinct hx hy hxy]
  · refine Std.ExtTreeMap.ext_getElem? fun k => ?_
    simp only [Std.ExtTreeMap.getElem?_insert, Std.LawfulEqCmp.compare_eq_iff_eq]
    grind

/-- Additions for different libraries can change places. -/
theorem extend_comm (db : OrdinalDatabase) {library library' : String}
    (h : Text.lowerAscii library ≠ Text.lowerAscii library')
    (names names' : List (UInt16 × String)) :
    (db.extend library names).extend library' names'
      = (db.extend library' names').extend library names := by
  unfold extend table
  congr 1
  refine Std.ExtTreeMap.ext_getElem? fun k => ?_
  simp only [Std.ExtTreeMap.getElem?_insert, Std.LawfulEqCmp.compare_eq_iff_eq]
  grind

/-- The names that are filed under a library, as it is spelled. -/
def namesAt (db : OrdinalDatabase) (key : String) : List (UInt16 × String) :=
  (db.tables[key]?.getD ∅).toList

/-- Of a tour only the order of the libraries can matter. -/
theorem extendEach_eq_foldl {visit : Additions} (h : other.Tours visit) :
    db.extendEach visit
      = (visit.map (·.1)).foldl (fun db key => db.extend key (other.namesAt key)) db := by
  unfold extendEach
  rw [List.foldl_map]
  refine List.foldl_ext _ _ db fun db t ht => ?_
  obtain ⟨table, htable, hnames⟩ := h.names t ht
  have hdistinct : (table.toList.map (·.1)).Nodup := by
    rw [Std.ExtTreeMap.map_fst_toList_eq_keys]
    exact Std.ExtTreeMap.nodup_keys
  unfold extend namesAt
  rw [htable, Option.getD_some, insertMany_perm hnames.symm hdistinct]

/-- Where every library is in lower case, that does not matter either. -/
theorem extendEach_eq_merge (hnormal : other.Normal) {visit : Additions}
    (h : other.Tours visit) : db.extendEach visit = db.merge other := by
  have hlibraries : (visit.map (·.1)).Perm (other.tour.map (·.1)) :=
    h.libraries.trans other.tours_tour.libraries.symm
  have hlower : ∀ key ∈ visit.map (·.1), Text.lowerAscii key = key := by
    intro key hkey
    have hfiled : key ∈ other.tables := Std.ExtTreeMap.mem_keys.mp (h.libraries.mem_iff.mp hkey)
    exact Text.lowerAscii_of_isUpper (hnormal key hfiled)
  rw [merge_eq_extendEach, extendEach_eq_foldl h, extendEach_eq_foldl other.tours_tour]
  refine hlibraries.foldl_eq' ?_ db
  intro x hx y hy db
  by_cases hxy : x = y
  · rw [hxy]
  · refine db.extend_comm ?_ _ _
    rw [hlower x hx, hlower y hy]
    exact hxy

-- ============================================================= histories

/-- How a database was written, from an empty one on. -/
inductive History where
  | empty
  | insert (before : History) (library : String) (ordinal : UInt16) (name : String)
  | extend (before : History) (library : String) (names : List (UInt16 × String))
  /-- A database with a history of its own was merged. -/
  | merge (before other : History)

namespace History

/-- The database that was written. -/
def database : History → OrdinalDatabase
  | .empty => OrdinalDatabase.empty
  | .insert before library ordinal name => before.database.insert library ordinal name
  | .extend before library names => before.database.extend library names
  | .merge before other => before.database.merge other.database

/-- The databases a history builds, with the writes it comes to. A merge
writes every name of the other database, in the order of any tour. -/
inductive Builds : History → OrdinalDatabase → List Write → Prop where
  | empty : Builds .empty .empty []
  | insert {before : History} {db : OrdinalDatabase} {writes : List Write}
      (h : Builds before db writes) (library : String) (ordinal : UInt16) (name : String) :
      Builds (.insert before library ordinal name) (db.insert library ordinal name)
        (writes ++ [⟨library, ordinal, name⟩])
  | extend {before : History} {db : OrdinalDatabase} {writes : List Write}
      (h : Builds before db writes) (library : String) (names : List (UInt16 × String)) :
      Builds (.extend before library names) (db.extend library names)
        (writes ++ writesFor library names)
  | merge {before other : History} {db db' : OrdinalDatabase} {writes writes' : List Write}
      {visit : Additions} (h : Builds before db writes)
      (h' : Builds other db' writes') (hvisit : db'.Tours visit) :
      Builds (.merge before other) (db.extendEach visit) (writes ++ writesOf visit)

variable {history : History} {db : OrdinalDatabase} {writes : List Write}

/-- A history builds its database by some writes. -/
theorem exists_builds (history : History) : ∃ writes, history.Builds history.database writes := by
  induction history with
  | empty => exact ⟨_, .empty⟩
  | insert before library ordinal name ih =>
      obtain ⟨writes, h⟩ := ih
      exact ⟨_, .insert h library ordinal name⟩
  | extend before library names ih =>
      obtain ⟨writes, h⟩ := ih
      exact ⟨_, .extend h library names⟩
  | merge before other ih ih' =>
      obtain ⟨writes, h⟩ := ih
      obtain ⟨writes', h'⟩ := ih'
      refine ⟨writes ++ writesOf other.database.tour, ?_⟩
      rw [database, merge_eq_extendEach]
      exact .merge h h' (tours_tour _)

/-- The database of a history records these writes. The induction is on
the history, so merged databases are covered however deep they are. -/
theorem Builds.records (h : history.Builds db writes) : Records db writes := by
  induction h with
  | empty => exact records_empty
  | insert _ library ordinal name ih => exact ih.extend library [(ordinal, name)]
  | extend _ library names ih => exact ih.extend library names
  | merge _ _ _ ih _ => exact ih.extendEach _

/-- No order that a merge can take makes a difference. -/
theorem Builds.eq_database (h : history.Builds db writes) : db = history.database := by
  induction h with
  | empty => rfl
  | insert _ library ordinal name ih => rw [ih, database]
  | extend _ library names ih => rw [ih, database]
  | merge _ h' hvisit ih ih' =>
      rw [extendEach_eq_merge h'.records.normal hvisit, ih, ih', database]

/-- Every history builds a database, the same one in whatever order its
merges come across tables and names. It answers with the name that was
written last for the library, in any case, and the ordinal, and has as
many names as places were written to. -/
theorem refines_writes (history : History) :
    (∃ writes, history.Builds history.database writes)
    ∧ ∀ db writes, history.Builds db writes →
      (∀ library ordinal, db.lookup? library ordinal
        = lastName? writes (Text.lowerAscii library, ordinal))
      ∧ db.size = (places writes).card
      ∧ (db.isEmpty = true ↔ (places writes).card = 0)
      ∧ db = history.database := by
  refine ⟨history.exists_builds, fun db writes h => ?_⟩
  exact ⟨h.records.lookup?_eq, h.records.size_eq, h.records.isEmpty_iff, h.eq_database⟩

/-- A name, and a database of two names for the same library over it. -/
def overwritten : History :=
  .merge (.insert .empty "A.dll" 1 "x") (.extend .empty "A.DLL" [(2, "z"), (1, "y")])

/-- A history that overwrites a name, through a merge. -/
theorem refines_writes_overwritten :
    ∃ writes, overwritten.Builds overwritten.database writes
      ∧ overwritten.database.lookup? "a.Dll" 1 = some "y"
      ∧ overwritten.database.lookup? "b.dll" 1 = none
      ∧ overwritten.database.size = 2 ∧ overwritten.database.isEmpty = false := by
  have hother := Builds.extend .empty "A.DLL" [(2, "z"), (1, "y")]
  have hbuilds := Builds.merge (.insert .empty "A.dll" 1 "x") hother (tours_tour _)
  have hwrites : writesOf (OrdinalDatabase.empty.extend "A.DLL" [(2, "z"), (1, "y")]).tour
      = [⟨"a.dll", 1, "y"⟩, ⟨"a.dll", 2, "z"⟩] := by decide +kernel
  rw [hwrites] at hbuilds
  obtain ⟨hlookup, hsize, hempty, hsame⟩ := (refines_writes overwritten).2 _ _ hbuilds
  rw [hsame] at hbuilds hlookup hsize hempty
  refine ⟨_, hbuilds, ?_, ?_, hsize, ?_⟩
  · rw [hlookup]
    decide
  · rw [hlookup]
    decide
  · rw [← Bool.not_eq_true, hempty]
    decide

end History

end Dissect.Pe.OrdinalDatabase

/-
That load options survive being written and read, whole or in part.

# Partial records

A record may hold some options, in any order, and anything under keys
that name no option (`HeldBy`). What is given for a name depends neither
on other names nor on the order, so each option is found under its name
if it is held and not found otherwise (`given_of_heldBy`). Then it is
read or has its default, one field at a time (`keep`).

All options are held by the record that is written for them, so whole
records are the case in which nothing is left out.
-/
import Dissect.Options
import Dissect.Proofs.Json.RoundTrip

namespace Dissect.LoadOptions

variable {o : LoadOptions} {chosen : String → Bool} {members : List (String × Json)}

/-- The options by their names, in field order. -/
def entries (o : LoadOptions) : List (String × Json) := fieldNames.zip o.fieldValues

/-- The members of an object that name options are the chosen ones of the
given options, in any order. -/
def HeldBy (o : LoadOptions) (chosen : String → Bool) (members : List (String × Json)) : Prop :=
  (members.filter fun m => m.1 ∈ fieldNames).Perm (o.entries.filter fun m => chosen m.1)

/-- The chosen options, and the defaults of all others. -/
def keep (o : LoadOptions) (chosen : String → Bool) : LoadOptions where
  walkExports := if chosen "parse_exports" then o.walkExports else default.walkExports
  walkImports := if chosen "parse_imports" then o.walkImports else default.walkImports
  maxSections := if chosen "max_sections" then o.maxSections else default.maxSections
  maxImports := if chosen "max_imports" then o.maxImports else default.maxImports
  maxExports := if chosen "max_exports" then o.maxExports else default.maxExports
  maxNameLength := if chosen "max_name_len" then o.maxNameLength else default.maxNameLength
  maxFileSize := if chosen "max_file_size" then o.maxFileSize else default.maxFileSize

-- ================================================================ fields

theorem nodup_entries (o : LoadOptions) : (o.entries.map (·.1)).Nodup := by
  have hnames : fieldNames.Nodup := by decide
  exact hnames

/-- An option is given once if it is held, and else not at all. -/
theorem given_of_heldBy (h : o.HeldBy chosen members) {name : String}
    (hname : name ∈ fieldNames) :
    Json.given name members
      = (if chosen name then o.entries.lookup name else none).toList := by
  have hown : Json.given name (o.entries.filter fun m => chosen m.1)
      = (if chosen name then o.entries.lookup name else none).toList := by
    rw [Json.given_filter]
    split
    · exact Json.given_eq_lookup o.nodup_entries name
    · rfl
  have hknown := Json.given_filter (fun n => n ∈ fieldNames) name members
  rw [if_pos (decide_eq_true hname)] at hknown
  rw [← hknown]
  exact Json.given_of_perm h hown

/-- A field that is given is read, and one that is not has its
default. -/
theorem orDefault_ite {α : Type} {read? : Json → Option α} {j : Json} {a : α}
    (h : read? j = some a) (fallback : α) (held : Bool) :
    orDefault fallback read? (if held then some j else none)
      = some (if held then a else fallback) := by
  cases held with
  | true => exact h
  | false => rfl

/-- Options are read from an object that holds some of them. -/
theorem ofJson?_of_heldBy {raw : List (List Char × Json)}
    (hkeys : Json.decodeKeys? raw = some members) (h : o.HeldBy chosen members) :
    ofJson? (.object raw) = some (o.keep chosen) := by
  have hrecord : Json.record? fieldNames (.object raw)
      = some
        [ if chosen "parse_exports" then some (.bool o.walkExports) else none,
          if chosen "parse_imports" then some (.bool o.walkImports) else none,
          if chosen "max_sections" then some (.ofNat o.maxSections.toNat) else none,
          if chosen "max_imports" then some (.ofNat o.maxImports.toNat) else none,
          if chosen "max_exports" then some (.ofNat o.maxExports.toNat) else none,
          if chosen "max_name_len" then some (.ofNat o.maxNameLength.toNat) else none,
          if chosen "max_file_size" then some (.ofNat o.maxFileSize.toNat) else none ] :=
    Json.record?_object hkeys fun name hname => given_of_heldBy h hname
  have hbool : ∀ b, Json.bool? (.bool b) = some b := fun b => rfl
  unfold ofJson? keep
  rw [hrecord]
  simp [orDefault_ite (hbool _), orDefault_ite (Json.word64?_ofNat _)]

/-- Every text of an object that holds some options is read as these and
the defaults of all others. -/
theorem parse?_of_heldBy {text : String} {raw : List (List Char × Json)}
    (htext : Json.Spells text.toList (.object raw))
    (hkeys : Json.decodeKeys? raw = some members) (h : o.HeldBy chosen members) :
    parse? text = some (o.keep chosen) := by
  unfold parse?
  rw [htext.parse?, Option.bind_some, ofJson?_of_heldBy hkeys h]

-- ========================================================= whole records

theorem written_toJson (o : LoadOptions) : o.toJson.Written := by
  apply Json.Written.object
  intro m hm
  simp only [fieldNames, fieldValues, List.zip_cons_cons, List.zip_nil_left, List.mem_cons,
    List.not_mem_nil, or_false] at hm
  rcases hm with rfl | rfl | rfl | rfl | rfl | rfl | rfl
  · exact .bool o.walkExports
  · exact .bool o.walkImports
  · exact .word o.maxSections.toNat_lt_size
  · exact .word o.maxImports.toNat_lt_size
  · exact .word o.maxExports.toNat_lt_size
  · exact .word o.maxNameLength.toNat_lt_size
  · exact .word o.maxFileSize.toNat_lt_size

/-- A record that is written holds all options. -/
theorem heldBy_entries (o : LoadOptions) : o.HeldBy (fun _ => true) o.entries := by
  have hnames : o.entries.filter (fun m => m.1 ∈ fieldNames) = o.entries :=
    List.filter_eq_self.mpr fun m hm => decide_eq_true (List.of_mem_zip hm).1
  unfold HeldBy
  rw [hnames, List.filter_eq_self.mpr fun _ _ => rfl]

/-- Options are read back from their text. -/
theorem parse?_render (o : LoadOptions) : parse? o.render = some o := by
  have htext : Json.Spells o.render.toList o.toJson := by
    unfold render Json.indented
    rw [String.toList_ofList]
    exact o.written_toJson.spells_indented 0
  exact parse?_of_heldBy htext (Json.decodeKeys?_map_bodyOf o.entries) o.heldBy_entries

/-- Options survive being written and read. Every text of an object that
holds any of them, in any order and beside anything under other keys, is
read as these options and the defaults of all others. -/
theorem survive_json :
    (∀ o : LoadOptions, parse? o.render = some o)
    ∧ ∀ (o : LoadOptions) (chosen : String → Bool) (text : String)
        (raw : List (List Char × Json)) (members : List (String × Json)),
        Json.Spells text.toList (.object raw) → Json.decodeKeys? raw = some members →
          o.HeldBy chosen members → parse? text = some (o.keep chosen) :=
  ⟨parse?_render, fun _ _ _ _ _ htext hkeys h => parse?_of_heldBy htext hkeys h⟩

/-- Two options out of order, beside a key that is given twice. -/
def partMembers : List (String × Json) :=
  [ ("limits", .array [.null, .number (.other ['-', '0', '.', '5'])]),
    ("max_imports", .ofNat 18446744073709551615),
    ("limits", .object []),
    ("parse_exports", .bool false) ]

/-- A text that gives two options in another order, among members with a
key that is none and comes twice. -/
def partText : String :=
  "\x7b\"limits\":[null,-0.5], \"max_imports\": 18446744073709551615,"
    ++ "\"limits\":\x7b \x7d,\"parse_exports\":false\n\x7d"

theorem spells_partText : Json.Spells partText.toList (Json.ofMembers partMembers) := by
  have hkey := fun s : String => Json.Spells.string (Json.body_bodyOf s)
  have hfraction : Json.Fraction ['.', '5'] :=
    .present (List.cons_ne_nil _ _) (List.forall_mem_singleton.mpr rfl)
  have hhalf := Json.SpellsNumber.other (n := 0) (.inr (Eq.refl ['-'])) hfraction .absent
    (.inl (by decide))
  have hword := Json.SpellsNumber.natural (n := 18446744073709551615) (by decide)
  have hspelled := Json.Spells.object
    (.cons (hkey "limits") (.array (.cons .null (.one (.number hhalf))))
      (.cons (.blankBefore (b := ' ') rfl (hkey "max_imports"))
        (.blankBefore (b := ' ') rfl (.number hword))
        (.cons (hkey "limits") (.emptyObject Json.blanks_space)
          (.one (hkey "parse_exports") (.blankAfter (b := '\n') rfl (.bool false))))))
  have hsame : ∀ cs, Json.Spells cs (Json.ofMembers partMembers) → partText.toList = cs →
      Json.Spells partText.toList (Json.ofMembers partMembers) := fun _ h heq => heq ▸ h
  exact hsame _ hspelled (by decide +kernel)

/-- The two options are read, and the limit on sections, which the text
does not hold, is the default. -/
theorem survive_json_partly :
    Json.Spells partText.toList (Json.ofMembers partMembers)
      ∧ parse? partText
        = some { walkExports := false, maxImports := 18446744073709551615 } := by
  let o : LoadOptions :=
    { walkExports := false, maxSections := 7, maxImports := 18446744073709551615 }
  have hheld : o.HeldBy (fun name => name = "parse_exports" ∨ name = "max_imports")
      partMembers := List.Perm.swap _ _ []
  exact ⟨spells_partText, survive_json.2 o _ partText _ partMembers spells_partText
    (Json.decodeKeys?_map_bodyOf partMembers) hheld⟩

end Dissect.LoadOptions

/-
What is said of a header that ends early.

# Truthful reports

A header that ends early is reported with the length it needed and the
length there was. `Truthful` says that the first then exceeds the
second. Chains of reads are truthful when their links are
(`Truthful.bind`), so a reader comes down to the words it reads: where a
word is not answered, the bytes end before the word does. What is read
through the segments of an image is refused in other words.

# Headers that declare too little

The size of an optional header is compared with the room that the
reader needs three times: with the first word, with the file, and with
the kind of header. The first two share a report, which gives the
length of the file. So a header that declares less than its first word
is reported with a length that may be as large as it likes
(`readOptionalHeader_of_understated`). `UnderstatedAt` says in bytes when
a reader comes to this report, and there is no other like it.
-/
import Dissect.Proofs.Pe.Grammar

namespace Dissect

variable {α β : Type}

-- =============================================================== reports

/-- An early end is reported only where there was less than was
needed. -/
def Truthful (r : Except ImageError α) : Prop :=
  ∀ expected actual, r = .error (.truncated expected actual) → actual < expected

namespace Truthful

/-- An answer reports no early end. -/
theorem ok (a : α) : Truthful (.ok a : Except ImageError α) := by
  intro expected actual h
  cases h

/-- A report is truthful if the numbers in it are in order. -/
theorem truncated {expected actual : Nat} (h : actual < expected) :
    Truthful (.error (.truncated expected actual) : Except ImageError α) := by
  intro expected' actual' heq
  cases heq
  exact h

/-- An error of another kind says nothing about lengths. -/
theorem error {e : ImageError} (h : ∀ expected actual, e ≠ .truncated expected actual) :
    Truthful (.error e : Except ImageError α) := by
  intro expected actual heq
  exact absurd (Except.error.inj heq) (h expected actual)

/-- A chain of reads is truthful if each of them is. -/
theorem bind {r : Except ImageError α} {next : α → Except ImageError β} (hr : Truthful r)
    (hnext : ∀ a, r = .ok a → Truthful (next a)) : Truthful (r >>= next) := by
  cases r with
  | error e =>
      intro expected actual h
      cases h
      exact hr expected actual rfl
  | ok a => exact hnext a rfl

/-- A report made where an optional value is absent is truthful if the
value is absent only because there was less than was needed. -/
theorem orTruncated {expected actual : Nat} {o : Option α}
    (h : o = none → actual < expected) : Truthful (Pe.orTruncated expected actual o) := by
  cases o with
  | none => exact truncated (h rfl)
  | some a => exact ok a

/-- A reader that refuses under a condition is truthful if it is on both
sides. -/
theorem refuse {c : Prop} [Decidable c] {e : ImageError} {next : Unit → Except ImageError α}
    {r : Except ImageError α} (he : c → Truthful (.error e : Except ImageError α))
    (hr : ¬ c → Truthful r) : Truthful (if c then throw e >>= next else r) := by
  by_cases h : c
  · rw [if_pos h]
    exact he h
  · rw [if_neg h]
    exact hr h

/-- Reads of a list are truthful if each of them is. -/
theorem mapM {f : α → Except ImageError β} (hf : ∀ a, Truthful (f a)) (xs : List α) :
    Truthful (xs.mapM f) := by
  induction xs with
  | nil => exact ok []
  | cons x xs ih =>
      rw [List.mapM_cons]
      exact (hf x).bind fun y _ => ih.bind fun ys _ => ok (y :: ys)

/-- A walk is truthful if the parts it is made of are. -/
theorem walk {w : Walk α} {next : α → Walk β} (hw : Truthful w.outcome)
    (hnext : ∀ a, w.outcome = .ok a → Truthful (next a).outcome) :
    Truthful (w >>= next).outcome := by
  cases h : w.outcome with
  | error e =>
      rw [Walk.bind_of_error h]
      intro expected actual heq
      cases heq
      exact hw expected actual h
  | ok a =>
      rw [Walk.bind_of_ok h]
      exact hnext a h

end Truthful

-- ================================================================= words

namespace Bytes

variable {data : Bytes} {i width : Nat}

/-- A word is not answered where the bytes end before it. -/
theorem lt_of_map_word? {ofNat : Nat → α} (h : (data.word? width i).map ofNat = none) :
    data.size < i + width := by
  by_contra hroom
  have hfits : i + width ≤ data.size := Nat.not_lt.mp hroom
  obtain ⟨w, hw⟩ := exists_map_word? ofNat hfits
  rw [h] at hw
  cases hw

/-- The bytes end before a word of two bytes that is not answered. -/
theorem lt_of_word16? (h : data.word16? i = none) : data.size < i + 2 := lt_of_map_word? h

theorem lt_of_word32? (h : data.word32? i = none) : data.size < i + 4 := lt_of_map_word? h

theorem lt_of_word64? (h : data.word64? i = none) : data.size < i + 8 := lt_of_map_word? h

theorem lt_of_slice? {count : Nat} (h : data.slice? i count = none) :
    data.size < i + count := by
  unfold slice? at h
  split at h
  · cases h
  · omega

end Bytes

namespace Pe

variable {data : Bytes} {place size : Nat}

-- =============================================================== headers

/-- The length is compared with 64, and the two words that are reported
one by one end where their own reports say. -/
theorem truthful_readDosHeader (data : Bytes) : Truthful (readDosHeader data) := by
  unfold readDosHeader
  refine .refuse (fun hshort => .truncated hshort) fun hlong => ?_
  refine .bind (.orTruncated fun hnone => ?_) fun magic _ => ?_
  · exact Bytes.lt_of_word16? hnone
  · refine .refuse (fun _ => .error (by simp)) fun _ => ?_
    refine .bind (.orTruncated fun hnone => ?_) fun peOffset _ => .ok _
    exact Bytes.lt_of_word32? hnone

/-- Each of the five words reports the end of the whole header, and the
last one ends there. -/
theorem truthful_readCoffHeader (data : Bytes) (place : Nat) :
    Truthful (readCoffHeader data place) := by
  -- every word ends within the header, whose end is what is reported
  have hword16 : ∀ k ≤ 18,
      Truthful (orTruncated (place + coffHeaderSize) data.size (data.word16? (place + k))) := by
    intro k hk
    refine .orTruncated fun hnone => ?_
    have hlt := Bytes.lt_of_word16? hnone
    unfold coffHeaderSize
    omega
  have hword32 :
      Truthful (orTruncated (place + coffHeaderSize) data.size (data.word32? (place + 4))) := by
    refine .orTruncated fun hnone => ?_
    have hlt := Bytes.lt_of_word32? hnone
    unfold coffHeaderSize
    omega
  unfold readCoffHeader
  refine .bind (hword16 0 (by decide)) fun machine _ => ?_
  refine .bind (hword16 2 (by decide)) fun count _ => ?_
  refine .bind hword32 fun timestamp _ => ?_
  refine .bind (hword16 16 (by decide)) fun optionalSize _ => ?_
  exact .bind (hword16 18 (by decide)) fun characteristics _ => .ok _

/-- The declared size of an optional header has no room for its first
word, and the file has. -/
def Understated (data : Bytes) (place size : Nat) : Prop :=
  size < 2 ∧ place + 2 ≤ data.size

/-- Such a header is reported as if the file had ended in its first
word. -/
theorem readOptionalHeader_of_understated (h : Understated data place size) :
    readOptionalHeader data place size = .error (.truncated (place + 2) data.size) := by
  obtain ⟨hsize, -⟩ := h
  unfold readOptionalHeader
  dsimp only
  rw [if_pos (.inl hsize), show max (place + size) (place + 2) = place + 2 by omega]
  rfl

/-- The declared bytes of a header that are in the file are as many as
it declares. -/
theorem size_extract_of_le (h : place + size ≤ data.size) :
    (data.extract place (place + size)).size = size := by
  rw [Array.size_extract]
  omega

/-- A field that is missing ends behind the declared header. -/
theorem truthful_readImageBase? {header : Bytes} (hsize : header.size = size) (kind : Kind) :
    Truthful (orTruncated (place + 32) (place + size) (readImageBase? header kind)) := by
  refine .orTruncated fun hnone => ?_
  cases kind with
  | pe32 =>
      have hlt := Bytes.lt_of_word32? (Option.map_eq_none_iff.mp hnone)
      omega
  | pe32Plus =>
      have hlt := Bytes.lt_of_word64? hnone
      omega

/-- But for understated headers, each of the comparisons with the length
that is there is with a length that is needed. -/
theorem truthful_readOptionalHeader (h : ¬ Understated data place size) :
    Truthful (readOptionalHeader data place size) := by
  unfold Understated at h
  unfold readOptionalHeader
  refine .refuse (fun hshort => .truncated ?_) fun hlong => ?_
  · -- too small a declared size is truthful only where the file is short too
    omega
  refine .bind (.orTruncated fun hnone => Bytes.lt_of_word16? hnone) fun magic _ => ?_
  cases Kind.ofMagic? magic with
  | none => exact .error (by simp)
  | some kind =>
      have hfits : place + size ≤ data.size := by omega
      have hsize := size_extract_of_le hfits
      have hfield : ∀ k, Truthful (orTruncated (place + k + 4) (place + size)
          (Bytes.word32? (data.extract place (place + size)) k)) := by
        intro k
        refine .orTruncated fun hnone => ?_
        have hlt := Bytes.lt_of_word32? hnone
        omega
      refine .refuse (fun hshort => .truncated ?_) fun hroom => ?_
      · -- here the end of the declared bytes is reported, not that of the file
        omega
      refine .bind (truthful_readImageBase? hsize kind) fun imageBase _ => ?_
      refine .bind (hfield 16) fun entryRva _ => ?_
      refine .bind (hfield 32) fun sectionAlignment _ => ?_
      refine .bind (hfield 36) fun fileAlignment _ => ?_
      refine .bind (hfield 56) fun imageSize _ => ?_
      exact .bind (hfield _) fun directoryCount _ => .ok _

/-- An understated header is the only one that is misreported. -/
theorem truthful_readOptionalHeader_iff :
    Truthful (readOptionalHeader data place size) ↔ ¬ Understated data place size := by
  refine ⟨fun htruthful h => ?_, truthful_readOptionalHeader⟩
  have hlt := htruthful _ _ (readOptionalHeader_of_understated h)
  have hle := h.2
  omega

/-- The headers behind a signature declare an optional header that is
understated. -/
structure UnderstatedAt (data : Bytes) (place : Nat) : Prop where
  room : place + 26 ≤ data.size
  signature :
    data[place]? = some 0x50 ∧ data[place + 1]? = some 0x45
      ∧ data[place + 2]? = some 0 ∧ data[place + 3]? = some 0
  machine : data.u16 (place + 4) ∈ supportedMachines
  declared : data.u16 (place + 20) < 2

/-- Headers that declare so little are reported as the optional header
is, from the place behind the COFF header. -/
theorem readHeaders_of_understatedAt (h : UnderstatedAt data place) :
    readHeaders data place = .error (.truncated (place + 26) data.size) := by
  have hroom := h.room
  have hsignature : data.slice? place 4 = some signature :=
    slice?_eq_signature_iff.mpr ⟨by omega, h.signature⟩
  have hfits : place + 4 + 20 ≤ data.size := by omega
  obtain ⟨coff, hcoff⟩ := exists_readCoffHeader_iff.mpr hfits
  obtain ⟨raw, hmachine, hraw⟩ := machine_eq hcoff
  have hsupported : coff.machine.isSupported = true := by
    rw [hmachine, isSupported_ofRaw_iff, hraw]
    exact h.machine
  have hshort : Understated data (place + 4 + coffHeaderSize) coff.optionalSize.toNat := by
    refine ⟨?_, hroom⟩
    rw [optionalSize_eq hcoff]
    exact h.declared
  unfold readHeaders
  simp only [hsignature, hcoff, orTruncated, bind, Except.bind, ne_eq, not_true_eq_false,
    ↓reduceIte, hsupported, Bool.not_true, Bool.false_eq_true,
    readOptionalHeader_of_understated hshort]
  rfl

/-- Signature, COFF header and machine are refused truthfully or in
other words, so that only the optional header is left to misreport. -/
theorem truthful_readHeaders (h : ¬ UnderstatedAt data place) :
    Truthful (readHeaders data place) := by
  unfold readHeaders
  refine .bind (.orTruncated fun hnone => Bytes.lt_of_slice? hnone) fun found hfound => ?_
  refine .refuse (fun _ => .error (by simp)) fun hsignature => ?_
  refine .bind (truthful_readCoffHeader data (place + 4)) fun coff hcoff => ?_
  refine .refuse (fun _ => .error (by simp)) fun hsupported => ?_
  refine .bind (truthful_readOptionalHeader fun hshort => h ?_) fun r _ => .ok _
  obtain ⟨hsize, hroom⟩ := hshort
  obtain ⟨raw, hmachine, hraw⟩ := machine_eq hcoff
  rw [orTruncated_eq_ok_iff, Decidable.not_not.mp hsignature] at hfound
  refine ⟨hroom, (slice?_eq_signature_iff.mp hfound).2, ?_, ?_⟩
  · rw [← hraw, ← isSupported_ofRaw_iff, ← hmachine]
    simpa using hsupported
  · rw [optionalSize_eq hcoff] at hsize
    exact hsize

/-- The exception of the optional header is the exception of the
headers. -/
theorem truthful_readHeaders_iff :
    Truthful (readHeaders data place) ↔ ¬ UnderstatedAt data place := by
  refine ⟨fun htruthful h => ?_, truthful_readHeaders⟩
  have hlt := htruthful _ _ (readHeaders_of_understatedAt h)
  have hle := h.room
  omega

-- ============================================================== sections

/-- Each section header is reported by its own end. -/
theorem truthful_readSections (data : Bytes) (place count limit : Nat) :
    Truthful (readSections data place count limit) := by
  unfold readSections
  split
  · exact .error (by simp)
  · refine .mapM (fun i => ?_) _
    exact .bind (.orTruncated fun hnone => Bytes.lt_of_slice? hnone) fun raw _ => .ok _

-- ================================================================= views

namespace View

variable (v : View)

/-- An address that overflows is refused in other words. -/
theorem truthful_address (rva : Nat) : Truthful (v.address rva) := by
  unfold address
  split
  · exact .ok _
  · exact .error (by simp)

theorem truthful_mappedAddress (rva : Nat) : Truthful (v.mappedAddress rva) := by
  refine .bind (v.truthful_address rva) fun a _ => ?_
  split
  · exact .ok _
  · exact .error (by simp)

theorem truthful_offset (rva : Nat) : Truthful (v.offset rva) := by
  refine .bind (v.truthful_address rva) fun a _ => ?_
  split
  · exact .ok _
  · exact .error (by simp)

/-- What the file ends in is refused by its offset, not as a header that
ends early. -/
theorem truthful_readAt (read? : Nat → Option α) (rva : Nat) :
    Truthful (v.readAt read? rva) := by
  refine .bind (v.truthful_offset rva) fun offset _ => ?_
  split
  · exact .ok _
  · exact .error (by simp)

theorem truthful_string (rva limit : Nat) : Truthful (v.string rva limit) := by
  refine .bind (v.truthful_offset rva) fun offset _ => ?_
  split
  · exact .ok _
  · exact .error (by simp)

end View

-- ================================================================= walks

theorem truthful_walkEntryPoint (v : View) (rva : UInt32) :
    Truthful (walkEntryPoint v rva).outcome := by
  unfold walkEntryPoint
  split
  · exact .ok _
  · refine .walk (v.truthful_mappedAddress _) fun address _ => ?_
    exact .walk (.ok _) fun _ _ => .ok _

/-- The fields of an export directory are read through the segments. -/
theorem ExportHeader.truthful_read (v : View) (rva : Nat) :
    Truthful (ExportHeader.read v rva) := by
  refine .bind (v.truthful_readAt _ _) fun _ _ => ?_
  refine .bind (v.truthful_readAt _ _) fun nameRva _ => ?_
  refine .bind (v.truthful_readAt _ _) fun ordinalBase _ => ?_
  refine .bind (v.truthful_readAt _ _) fun functionCount _ => ?_
  refine .bind (v.truthful_readAt _ _) fun nameCount _ => ?_
  refine .bind (v.truthful_readAt _ _) fun functionsRva _ => ?_
  refine .bind (v.truthful_readAt _ _) fun namesRva _ => ?_
  exact .bind (v.truthful_readAt _ _) fun indicesRva _ => .ok _

theorem ExportHeader.truthful_namesFrom (h : ExportHeader) (v : View) (limit count entry : Nat)
    (names : Std.ExtTreeMap Nat String) :
    Truthful (h.namesFrom v limit count entry names) := by
  induction count generalizing entry names with
  | zero => exact .ok _
  | succ count ih =>
      -- an entry is three reads through the segments
      have hentry : Truthful (h.nameAt v limit entry) := by
        refine .bind (v.truthful_readAt _ _) fun nameRva _ => ?_
        refine .bind (v.truthful_readAt _ _) fun index _ => ?_
        exact .bind (v.truthful_string _ _) fun name _ => .ok _
      rw [namesFrom]
      split
      · next e he =>
        intro expected actual heq
        cases heq
        exact hentry expected actual he
      · exact ih _ _

/-- All that the walk of the exports starts from is read through the
segments, or refused as a malformed table. -/
theorem truthful_readContext (v : View) (directory : DataDirectory) (options : LoadOptions) :
    Truthful (readContext v directory options) := by
  refine .bind (ExportHeader.truthful_read v _) fun h _ => ?_
  refine .bind ?_ fun library _ => ?_
  · unfold ExportHeader.library
    split
    · exact .ok _
    · exact v.truthful_string _ _
  · split
    · exact .error (by simp)
    · exact .bind (h.truthful_namesFrom v _ _ _ _) fun names _ => .ok _

/-- The walk of the exports reads one word for each function, along its
own steps. -/
theorem ExportContext.truthful_bindFrom (c : ExportContext) (count index defined : Nat) :
    Truthful (c.bindFrom count index defined []).outcome := by
  induction count generalizing index defined with
  | zero => exact .ok _
  | succ count ih =>
      rw [bindFrom_succ]
      refine .walk (c.view.truthful_readAt _ _) fun rva _ => ?_
      split
      · exact ih _ _
      · split
        · exact .walk (.ok _) fun _ _ => ih _ _
        · split
          · exact .walk (.ok _) fun _ _ => .ok _
          · refine .walk (c.view.truthful_mappedAddress _) fun address _ => ?_
            refine .walk (.ok _) fun _ _ => ?_
            exact .walk (.ok _) fun _ _ => ih _ _

/-- Whatever is exported, or nothing, the exports report no early end. -/
theorem truthful_walkExportsIfPresent (v : View) (h : Headers) (options : LoadOptions) :
    Truthful (walkExportsIfPresent v h options).outcome := by
  unfold walkExportsIfPresent
  dsimp only
  split
  · rw [walkExports_eq]
    refine .walk ?_ fun _ _ => .ok _
    refine .walk (truthful_readContext v _ options) fun c _ => ?_
    refine .walk (c.truthful_bindFrom _ _ _) fun defined _ => ?_
    exact .walk (.ok _) fun _ _ => .ok _
  · exact .ok _

namespace Importer

variable (i : Importer)

theorem truthful_thunk (t : Thunk) (v : View) (rva : Nat) : Truthful (t.read v rva) := by
  cases t with
  | narrow => exact .bind (v.truthful_readAt _ _) fun w _ => .ok _
  | wide => exact v.truthful_readAt _ _

/-- The name of an import is an ordinal's or a string read through the
segments. -/
theorem truthful_symbolOf (library : String) (slots index : Nat) (value : UInt64) :
    Truthful (i.symbolOf library slots index value) := by
  refine .bind (i.view.truthful_mappedAddress _) fun address _ => ?_
  refine .bind ?_ fun name _ => .ok _
  unfold importName
  split
  · split
    · exact .ok _
    · exact .ok _
  · split
    · exact .error (by simp)
    · exact .bind (i.view.truthful_string _ _) fun name _ => .ok _

/-- The loop over the thunks of a library, along its own steps. -/
theorem truthful_bindFrom (library : String) (names slots fuel index : Nat)
    (s : ImportSummary) :
    Truthful (i.bindFrom library names slots fuel index s []).toWalk.outcome := by
  induction fuel generalizing index s with
  | zero => exact .error (by simp)
  | succ fuel ih =>
      rw [toWalk_bindFrom_succ]
      refine .walk (truthful_thunk i.thunk i.view _) fun value _ => ?_
      split
      · exact .ok _
      · split
        · exact .walk (.ok _) fun _ _ => .ok _
        · refine .walk (i.truthful_symbolOf library slots index value) fun symbol _ => ?_
          refine .walk (.ok _) fun _ _ => ?_
          exact .walk (.ok _) fun _ _ => ih _ _

/-- A descriptor names its library by a string and is then the loop over
its thunks. -/
theorem truthful_readDescriptor (s : ImportSummary) (d : ImportDescriptor) :
    Truthful (i.readDescriptor s d).toWalk.outcome := by
  rw [toWalk_readDescriptor]
  refine .walk (i.view.truthful_string _ _) fun file _ => ?_
  dsimp only
  split
  · exact .ok _
  · split
    · exact .error (by simp)
    · exact i.truthful_bindFrom _ _ _ _ _ _

theorem truthful_descriptor (v : View) (rva : Nat) :
    Truthful (ImportDescriptor.read v rva) := by
  refine .bind (v.truthful_readAt _ _) fun lookupRva _ => ?_
  refine .bind (v.truthful_readAt _ _) fun timestamp _ => ?_
  refine .bind (v.truthful_readAt _ _) fun forwarderChain _ => ?_
  refine .bind (v.truthful_readAt _ _) fun libraryRva _ => ?_
  exact .bind (v.truthful_readAt _ _) fun slotsRva _ => .ok _

/-- The loop over the descriptors, along its own steps. -/
theorem truthful_walkFrom (fuel rva : Nat) (s : ImportSummary) :
    Truthful (i.walkFrom fuel rva s []).toWalk.outcome := by
  induction fuel generalizing rva s with
  | zero => exact .error (by simp)
  | succ fuel ih =>
      rw [toWalk_walkFrom_succ]
      refine .walk (truthful_descriptor i.view rva) fun d _ => ?_
      split
      · exact .ok _
      · split
        · exact .walk (.ok _) fun _ _ => ih _ _
        · refine .walk (i.truthful_readDescriptor _ d) fun s' _ => ?_
          split
          · exact .ok _
          · exact ih _ _

end Importer

/-- Whatever is imported, or nothing, the imports report no early end. -/
theorem truthful_walkImportsIfPresent (v : View) (h : Headers) (names : OrdinalNames)
    (options : LoadOptions) : Truthful (walkImportsIfPresent v h names options).outcome := by
  unfold walkImportsIfPresent
  dsimp only
  split
  · rw [Importer.toWalk_walk]
    refine .walk ?_ fun _ _ => .ok _
    refine .walk (Importer.truthful_walkFrom _ _ _ _) fun s _ => ?_
    exact .walk (.ok _) fun _ _ => .ok _
  · exact .ok _

-- ================================================================= loads

/-- The file has a DOS header, and the headers it points to are
understated. -/
structure UnderstatedFile (data : Bytes) : Prop where
  dos_le : 64 ≤ data.size
  dos_signature : data[0]? = some 0x4D ∧ data[1]? = some 0x5A
  headers : UnderstatedAt data (peAt data)

variable (options : LoadOptions) (names : OrdinalNames)

/-- A load of an understated file ends in the report of its headers. -/
theorem walkImage_of_understatedFile (h : UnderstatedFile data) :
    (walkImage options names data).outcome
      = .error (.truncated (peAt data + 26) data.size) := by
  obtain ⟨dos, hdos⟩ := exists_readDosHeader_iff.mpr ⟨h.dos_le, h.dos_signature⟩
  unfold walkImage
  rw [hdos, Walk.read_ok_bind, peOffset_eq hdos, readHeaders_of_understatedAt h.headers]
  rfl

/-- Of all that a load does, only the headers can misreport an early
end. -/
theorem truthful_walkImage (h : ¬ UnderstatedFile data) :
    Truthful (walkImage options names data).outcome := by
  unfold walkImage
  refine .walk (truthful_readDosHeader data) fun dos hdos => ?_
  refine .walk (truthful_readHeaders fun hshort => h ?_) fun headers _ => ?_
  · obtain ⟨hsize, hsignature⟩ := exists_readDosHeader_iff.mp ⟨dos, hdos⟩
    rw [peOffset_eq hdos] at hshort
    exact ⟨hsize, hsignature, hshort⟩
  refine .walk (truthful_readSections data _ _ _) fun sections _ => ?_
  refine .walk (.ok _) fun _ _ => ?_
  refine .walk (.ok _) fun _ _ => ?_
  refine .walk (truthful_walkEntryPoint _ _) fun _ _ => ?_
  refine .walk (truthful_walkExportsIfPresent _ _ _) fun _ _ => ?_
  exact .walk (truthful_walkImportsIfPresent _ _ _ _) fun variant _ => .ok _

/-- A load fails with the error that ended its walk. -/
theorem load_eq_error_iff {e : ImageError} :
    (load options names data).outcome = .error (.image e)
      ↔ (walkImage options names data).outcome = .error e := by
  unfold load conclude
  cases (walkImage options names data).outcome with
  | error e' => simp
  | ok s => simp

/-- Reports of an early end are truthful but for an optional header
that declares less than its first word in a file that has the word.
Places, sizes and counts are natural numbers here, so that their sums
are exact. A machine adds them in words of 64 bits, and places so close
to `2 ^ 64` that such a sum wraps or faults are left out: no place that
a load comes to is near it, since places come from words of at most 32
bits. -/
theorem truncation_truthful_iff (data : Bytes) :
    Truthful (readDosHeader data)
      ∧ (∀ place, Truthful (readCoffHeader data place))
      ∧ (∀ place size,
          Truthful (readOptionalHeader data place size) ↔ ¬ Understated data place size)
      ∧ (∀ place, Truthful (readHeaders data place) ↔ ¬ UnderstatedAt data place)
      ∧ (∀ place count limit, Truthful (readSections data place count limit))
      ∧ ∀ options names,
          (∀ expected actual,
              (load options names data).outcome = .error (.image (.truncated expected actual)) →
              actual < expected)
            ↔ ¬ UnderstatedFile data := by
  refine ⟨truthful_readDosHeader data, truthful_readCoffHeader data,
    fun place size => truthful_readOptionalHeader_iff, fun place => truthful_readHeaders_iff,
    truthful_readSections data, fun options names => ⟨?_, ?_⟩⟩
  · intro htruthful h
    have hlt := htruthful _ _
      ((load_eq_error_iff options names).mpr (walkImage_of_understatedFile options names h))
    have hle := h.headers.room
    omega
  · intro h expected actual hload
    exact truthful_walkImage options names h expected actual
      ((load_eq_error_iff options names).mp hload)

/-- Headers that declare no optional header, and a few bytes behind
them. -/
def bareHeaders : Bytes :=
  List.toArray <| List.flatten
    [ [0x4D, 0x5A], blank 58, spell 4 64, signature.toList, spell 2 0x14C, blank 18, blank 8 ]

/-- The load says that it needed 90 bytes and that there were 96. -/
theorem bareHeaders_misreported :
    (load .default OrdinalDatabase.builtin.lookup? bareHeaders).outcome
        = .error (.image (.truncated 90 96))
      ∧ readHeaders bareHeaders 64 = .error (.truncated 90 96)
      ∧ readOptionalHeader bareHeaders 88 0 = .error (.truncated 90 96)
      ∧ ¬ Truthful (readOptionalHeader bareHeaders 88 0) := by
  have hreport : readOptionalHeader bareHeaders 88 0 = .error (.truncated 90 96) := by
    decide +kernel
  refine ⟨by decide +kernel, by decide +kernel, hreport, fun htruthful => ?_⟩
  exact absurd (htruthful 90 96 hreport) (by decide)

end Pe

end Dissect

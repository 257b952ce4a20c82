import Mathlib.Control.Monad.Basic
import Mathlib.Data.Bool.AllAny
import SchemaReader.Enumeration
import SchemaReader.Proofs.Number.Numeral
import SchemaReader.Proofs.Text.Pieces

/-!
# Enumerations written into a comment and read back

A written item is the number, one separator and the label.  The reader takes the
digits, the separator and what is left without the blanks around it, so an item
comes back when its label is a text the reader could have produced.  Conversely
the reader produces only such labels, whatever comment it reads: a list of
entries survives being written exactly if it lies in the image of the reader.
-/

namespace SchemaReader.Enumeration

open SchemaReader.Number SchemaReader.Text
open SchemaReader.Schema (EnumEntry)

/-- A label without blanks at its ends and without a sign that ends an item. -/
structure IsLabel (label : List Char) : Prop where
  ne_nil : label ≠ []
  trim_eq : trim label = label
  free : ∀ c ∈ label, c ∉ delimiters ∧ c ∉ terminators

structure Writable (entry : EnumEntry) : Prop where
  nonneg : 0 ≤ entry.value
  label : IsLabel entry.label.toList

instance (label : List Char) : Decidable (IsLabel label) :=
  decidable_of_iff (label ≠ [] ∧ trim label = label ∧
      label.all fun c => c ∉ delimiters ∧ c ∉ terminators)
    ⟨fun ⟨h₁, h₂, h₃⟩ => ⟨h₁, h₂, List.all_iff_forall_prop.1 h₃⟩,
      fun h => ⟨h.ne_nil, h.trim_eq, List.all_iff_forall_prop.2 h.free⟩⟩

instance (entry : EnumEntry) : Decidable (Writable entry) :=
  decidable_of_iff (0 ≤ entry.value ∧ IsLabel entry.label.toList)
    ⟨fun ⟨h₁, h₂⟩ => ⟨h₁, h₂⟩, fun h => ⟨h.nonneg, h.label⟩⟩

def Style.ofSigns (separator delimiter colon : Char) : Style where
  separator := String.singleton separator
  delimiter := String.singleton delimiter
  colon := String.singleton colon

theorem not_isDigit_of_mem_separators : ∀ c ∈ separators, isDigit c = false :=
  List.all_iff_forall_prop.1 rfl

theorem not_isBlank_of_mem_separators : ∀ c ∈ separators, isBlank c = false :=
  List.all_iff_forall_prop.1 rfl

theorem not_isBlank_of_mem_colons : ∀ c ∈ colons, isBlank c = false :=
  List.all_iff_forall_prop.1 rfl

theorem not_mem_ends_of_mem_separators : ∀ c ∈ separators, c ∉ delimiters ∧ c ∉ terminators :=
  List.all_iff_forall_prop.1 rfl

theorem not_mem_terminators_of_mem_delimiters : ∀ c ∈ delimiters, c ∉ terminators :=
  List.all_iff_forall_prop.1 rfl

theorem not_isDigit_of_mem_ends : ∀ c ∈ delimiters ++ terminators, isDigit c = false :=
  List.all_iff_forall_prop.1 rfl

theorem not_mem_ends_of_isDigit {c : Char} (h : isDigit c = true) :
    c ∉ delimiters ∧ c ∉ terminators := by
  constructor
  · intro hc
    simp [not_isDigit_of_mem_ends c (List.mem_append_left _ hc)] at h
  · intro hc
    simp [not_isDigit_of_mem_ends c (List.mem_append_right _ hc)] at h

/-! ## The marker -/

theorem afterText?_eq_some_iff {lead text rest : List Char} :
    afterText? lead text = some rest ↔ text = lead ++ rest := by
  induction lead generalizing text with
  | nil => simp [afterText?]
  | cons l lead ih =>
      cases text with
      | nil => simp [afterText?]
      | cons c text =>
          simp only [afterText?, List.cons_append, List.cons.injEq]
          split
          · rename_i h
            rw [ih]
            simp [h]
          · rename_i h
            simp [Ne.symm h]

theorem afterMarkerHere?_eq_some_iff {text items : List Char} :
    afterMarkerHere? text = some items ↔
      ∃ blanks colon, (∀ c ∈ blanks, isBlank c = true) ∧ colon ∈ colons ∧
        text = marker ++ blanks ++ colon :: items := by
  simp only [afterMarkerHere?, Option.bind_eq_some_iff, afterText?_eq_some_iff]
  constructor
  · rintro ⟨rest, rfl, hrest⟩
    have hcut := List.takeWhile_append_dropWhile (p := isBlank) (l := rest)
    split at hrest
    · rename_i colon later htrim
      split at hrest
      · rename_i hcolon
        cases hrest
        refine ⟨rest.takeWhile isBlank, colon, fun c hc => List.mem_takeWhile_imp hc, hcolon, ?_⟩
        rw [List.append_assoc, ← htrim, trimLeft, hcut]
      · contradiction
    · contradiction
  · rintro ⟨blanks, colon, hblanks, hcolon, rfl⟩
    refine ⟨blanks ++ colon :: items, List.append_assoc .., ?_⟩
    have htrim : trimLeft (blanks ++ colon :: items) = colon :: items := by
      rw [trimLeft, List.dropWhile_append_of_pos hblanks]
      exact List.dropWhile_cons_of_neg (by simp [not_isBlank_of_mem_colons colon hcolon])
    rw [htrim]
    exact if_pos hcolon

theorem not_mem_behind_bracket {blanks : List Char} {colon : Char}
    (hblanks : ∀ c ∈ blanks, isBlank c = true) (hcolon : colon ∈ colons) :
    '【' ∉ marker.tail ++ blanks ++ [colon] := by
  intro hin
  rcases List.mem_append.1 hin with hin | hin
  · rcases List.mem_append.1 hin with hin | hin
    · exact absurd hin (by decide)
    · exact absurd (hblanks _ hin) (by decide)
  · rw [← List.mem_singleton.1 hin] at hcolon
    exact absurd hcolon (by decide)

/-- A marker does not begin inside another one, nor in the blanks behind it. -/
theorem afterMarkerHere?_append_marker (rest : List Char) {lead : List Char} (hne : lead ≠ [])
    (h : afterMarkerHere? lead = none) : afterMarkerHere? (lead ++ marker ++ rest) = none := by
  rw [Option.eq_none_iff_forall_ne_some] at h ⊢
  intro items hitems
  obtain ⟨blanks, colon, hblanks, hcolon, htext⟩ := afterMarkerHere?_eq_some_iff.1 hitems
  have hfound : ∀ later, lead = (marker ++ blanks ++ [colon]) ++ later → False := by
    intro later hlater
    refine h later (afterMarkerHere?_eq_some_iff.2 ⟨blanks, colon, hblanks, hcolon, ?_⟩)
    rw [hlater, List.append_assoc _ [colon]]
    rfl
  rw [List.append_assoc, ← List.singleton_append, ← List.append_assoc (marker ++ blanks)] at htext
  rcases List.append_eq_append_iff.1 htext with ⟨later, hlead, hmarker⟩ | ⟨later, hlead, -⟩
  · cases later with
    | nil => exact hfound [] (by rw [hlead, List.append_nil, List.append_nil])
    | cons x later =>
        obtain rfl : '【' = x := (List.cons.inj hmarker).1
        -- The opening bracket would stand behind the first character of the match.
        obtain ⟨first, lead, rfl⟩ := List.exists_cons_of_ne_nil hne
        have htail : marker.tail ++ blanks ++ [colon] = lead ++ '【' :: later :=
          (List.cons.inj hlead).2
        have hmem : '【' ∈ lead ++ '【' :: later := List.mem_append_right _ List.mem_cons_self
        rw [← htail] at hmem
        exact not_mem_behind_bracket hblanks hcolon hmem
  · exact hfound later hlead

theorem afterMarker?_of_here {text items : List Char} (h : afterMarkerHere? text = some items) :
    afterMarker? text = some items := by
  cases text with
  | nil =>
      have hnone : afterMarkerHere? [] = none := rfl
      rw [hnone] at h
      cases h
  | cons c rest => rw [afterMarker?, h]

theorem afterMarker?_append_marker {lead items : List Char} {colon : Char}
    (hlead : hasMarker lead = false) (hcolon : colon ∈ colons) :
    afterMarker? (lead ++ marker ++ colon :: items) = some items := by
  rw [hasMarker, Option.isSome_eq_false_iff, Option.isNone_iff_eq_none] at hlead
  induction lead with
  | nil =>
      apply afterMarker?_of_here
      exact afterMarkerHere?_eq_some_iff.2 ⟨[], colon, by simp, hcolon, by simp⟩
  | cons c lead ih =>
      rw [afterMarker?] at hlead
      split at hlead
      · contradiction
      · rename_i hhere
        have hnot := afterMarkerHere?_append_marker (colon :: items) (List.cons_ne_nil c lead) hhere
        simp only [List.cons_append] at hnot ⊢
        rw [afterMarker?, hnot]
        exact ih hlead

/-! ## One item -/

theorem of_itemParts? {item digits label : List Char}
    (h : itemParts? item = some (digits, label)) :
    (digits ≠ [] ∧ ∀ c ∈ digits, isDigit c = true) ∧
      label ≠ [] ∧ trim label = label ∧ label <:+: item := by
  simp only [itemParts?] at h
  split at h
  · rename_i c rest hrest
    split at h
    · rename_i hshape
      cases h
      have hcut : c :: rest <:+ item :=
        hrest ▸ (List.dropWhile_suffix _).trans (List.dropWhile_suffix _)
      have hinside : rest <:+: item := ((List.suffix_cons c rest).trans hcut).isInfix
      simp only [Bool.and_eq_true] at hshape
      exact ⟨⟨by simpa using hshape.1.1, fun c hc => List.mem_takeWhile_imp hc⟩,
        by simpa using hshape.2, (trimmed_trim rest).trim_eq, (infix_trim rest).trans hinside⟩
    · contradiction
  · contradiction

theorem readItem_eq_some_iff {item : List Char} {entry : EnumEntry} :
    readItem item = .ok (some entry) ↔
      ∃ digits label value, itemParts? (trim item) = some (digits, label) ∧
        readNatural digits = .ok value ∧ entry = ⟨(value : Nat), String.ofList label⟩ := by
  rcases hparts : itemParts? (trim item) with _ | ⟨digits, label⟩
  · simp [readItem, hparts]
  · cases hvalue : readNatural digits <;> simp [readItem, hparts, hvalue, Except.map, eq_comm]

def itemChars (separator : Char) (entry : EnumEntry) : List Char :=
  (toString entry.value).toList ++ separator :: entry.label.toList

theorem toList_itemText (separator delimiter colon : Char) (entry : EnumEntry) :
    (itemText (.ofSigns separator delimiter colon) entry).toList =
      itemChars separator entry := by
  simp [itemText, itemChars, Style.ofSigns]

theorem Writable.itemChars_eq {entry : EnumEntry} (h : Writable entry) (separator : Char) :
    itemChars separator entry =
      Nat.toDigits 10 entry.value.toNat ++ separator :: entry.label.toList := by
  obtain ⟨n, hn⟩ := Int.eq_ofNat_of_zero_le h.nonneg
  rw [itemChars, hn]
  congr 1
  exact congrArg String.toList (Nat.repr_eq_ofList_toDigits (n := n)) |>.trans (by simp)

section Item

variable {separator : Char} {entry : EnumEntry}

theorem Writable.trimmed_itemChars (h : Writable entry) (hseparator : separator ∈ separators) :
    Trimmed (itemChars separator entry) := by
  have hblank := not_isBlank_of_mem_separators separator hseparator
  rw [h.itemChars_eq, ← List.singleton_append]
  have hdigits : Trimmed (Nat.toDigits 10 entry.value.toNat) :=
    trimmed_of_forall fun c hc => not_isBlank_of_isDigit (isDigit_of_mem_toDigits hc)
  have hlabel : Trimmed ([separator] ++ entry.label.toList) :=
    (trimmed_of_forall (by simpa using hblank)).append (List.cons_ne_nil _ _)
      (trim_eq_self_iff.1 h.label.trim_eq).last
  exact hdigits.append Nat.toDigits_ne_nil hlabel.last

theorem Writable.not_mem_ends (h : Writable entry) (hseparator : separator ∈ separators) :
    ∀ c ∈ itemChars separator entry, c ∉ delimiters ∧ c ∉ terminators := by
  intro c hc
  rw [h.itemChars_eq] at hc
  rcases List.mem_append.1 hc with hdigit | hc
  · exact not_mem_ends_of_isDigit (isDigit_of_mem_toDigits hdigit)
  · rcases List.mem_cons.1 hc with rfl | hlabel
    · exact not_mem_ends_of_mem_separators c hseparator
    · exact h.label.free c hlabel

theorem Writable.itemParts?_itemChars (h : Writable entry) (hseparator : separator ∈ separators) :
    itemParts? (itemChars separator entry) =
      some (Nat.toDigits 10 entry.value.toNat, entry.label.toList) := by
  have hstop : ∀ c ∈ (separator :: entry.label.toList).head?, isDigit c = false := by
    simpa using not_isDigit_of_mem_separators separator hseparator
  have hsign : trimLeft (separator :: entry.label.toList) = separator :: entry.label.toList :=
    trimLeft_eq_self (by simpa using not_isBlank_of_mem_separators separator hseparator)
  have hlabel : entry.label.toList.isEmpty = false := by simpa using h.label.ne_nil
  simp only [itemParts?, h.itemChars_eq, takeWhile_toDigits_append _ hstop,
    dropWhile_toDigits_append _ hstop, hsign, h.label.trim_eq]
  rw [if_pos]
  simp [hseparator, hlabel]

theorem Writable.readItem_itemChars (h : Writable entry) (hseparator : separator ∈ separators)
    (hlength : (Nat.toDigits 10 entry.value.natAbs).length ≤ maxDigits) :
    readItem (itemChars separator entry) = .ok (some entry) := by
  have hvalue : ((entry.value.toNat : Nat) : Int) = entry.value := Int.toNat_of_nonneg h.nonneg
  have hsize : entry.value.toNat < 10 ^ maxDigits := by
    apply (Nat.length_toDigits_le_iff (by decide) (by decide)).1
    rwa [show entry.value.toNat = entry.value.natAbs by omega]
  have hparts := h.itemParts?_itemChars hseparator
  rw [← (h.trimmed_itemChars hseparator).trim_eq] at hparts
  rw [readItem_eq_some_iff.2 ⟨_, _, _, hparts, readNatural_toDigits hsize, rfl⟩, hvalue,
    String.ofList_toList]

end Item

theorem of_readItem {item : List Char} {entry : EnumEntry}
    (hfree : ∀ c ∈ item, c ∉ delimiters ∧ c ∉ terminators)
    (h : readItem item = .ok (some entry)) :
    Writable entry ∧ entry.value.natAbs < 10 ^ maxDigits := by
  obtain ⟨digits, label, value, hparts, hvalue, rfl⟩ := readItem_eq_some_iff.1 h
  obtain ⟨-, hne, htrim, hinside⟩ := of_itemParts? hparts
  refine ⟨⟨Int.natCast_nonneg value, ?_⟩, lt_of_readNatural hvalue⟩
  rw [String.toList_ofList]
  exact ⟨hne, htrim, fun c hc => hfree c ((hinside.trans (infix_trim item)).subset hc)⟩

theorem mapM_readItem_itemChars {separator : Char} (hseparator : separator ∈ separators)
    {entries : List EnumEntry} (h : ∀ entry ∈ entries, Writable entry)
    (hlength : ∀ entry ∈ entries,
      (Nat.toDigits 10 entry.value.natAbs).length ≤ maxDigits) :
    (entries.map (itemChars separator)).mapM readItem = .ok (entries.map some) := by
  rw [List.mapM_map]
  exact mapM_eq_ok fun entry hentry =>
    (h entry hentry).readItem_itemChars hseparator (hlength entry hentry)

def itemsChars (separator delimiter : Char) (entries : List EnumEntry) : List Char :=
  [delimiter].intercalate (entries.map (itemChars separator))

section Items

variable {separator delimiter : Char} {entries : List EnumEntry}

theorem splitAtChars_itemsChars (hseparator : separator ∈ separators)
    (hdelimiter : delimiter ∈ delimiters) (hne : entries ≠ [])
    (h : ∀ entry ∈ entries, Writable entry) :
    splitAtChars (delimiters.contains ·) (itemsChars separator delimiter entries) =
      entries.map (itemChars separator) := by
  rw [splitAtChars_eq_splitOnP]
  apply splitOnP_intercalate
  · simpa using hdelimiter
  · simpa using hne
  · intro piece hpiece c hc
    obtain ⟨entry, hentry, rfl⟩ := List.mem_map.1 hpiece
    simpa using ((h entry hentry).not_mem_ends hseparator c hc).1

theorem not_mem_terminators_of_mem_itemsChars (hseparator : separator ∈ separators)
    (hdelimiter : delimiter ∈ delimiters) (h : ∀ entry ∈ entries, Writable entry) :
    ∀ c ∈ itemsChars separator delimiter entries, c ∉ terminators := by
  induction entries with
  | nil => simp [itemsChars]
  | cons entry entries ih =>
      have hentry : ∀ c ∈ itemChars separator entry, c ∉ terminators := fun c hc =>
        ((h entry List.mem_cons_self).not_mem_ends hseparator c hc).2
      have hrest := ih fun e he => h e (List.mem_cons_of_mem _ he)
      rw [itemsChars, List.map_cons]
      by_cases hlast : entries.map (itemChars separator) = []
      · rwa [hlast, List.intercalate_singleton]
      · rw [List.intercalate_cons_of_ne_nil hlast]
        intro c hc
        simp only [List.mem_append, List.mem_singleton] at hc
        rcases hc with (hc | rfl) | hc
        · exact hentry c hc
        · exact not_mem_terminators_of_mem_delimiters c hdelimiter
        · exact hrest c hc

theorem readItems_itemsChars (hseparator : separator ∈ separators)
    (hdelimiter : delimiter ∈ delimiters) (hne : entries ≠ [])
    (h : ∀ entry ∈ entries, Writable entry)
    (hlength : ∀ entry ∈ entries, (Nat.toDigits 10 entry.value.natAbs).length ≤ maxDigits) :
    readItems (itemsChars separator delimiter entries) = .ok entries := by
  rw [readItems, splitAtChars_itemsChars hseparator hdelimiter hne h,
    mapM_readItem_itemChars hseparator h hlength]
  simp [Except.map]

end Items

theorem of_readItems {items : List Char} {entries : List EnumEntry}
    (hfree : ∀ c ∈ items, c ∉ terminators) (h : readItems items = .ok entries) :
    ∀ entry ∈ entries, Writable entry ∧ entry.value.natAbs < 10 ^ maxDigits := by
  rw [readItems, splitAtChars_eq_splitOnP] at h
  obtain ⟨found, hread, rfl⟩ := exists_of_map_ok h
  intro entry hentry
  have hmem : some entry ∈ found := by simpa using hentry
  obtain ⟨piece, hpiece, hitem⟩ := exists_of_mapM_ok hread (some entry) hmem
  refine of_readItem (fun c hc => ?_) hitem
  obtain ⟨hin, hcut⟩ := of_mem_splitOnP _ hpiece c hc
  exact ⟨by simpa using hcut, hfree c hin⟩

/-! ## Whole comments -/

theorem of_decode {comment : List Char} {entries : List EnumEntry}
    (h : decode comment = .ok (some entries)) :
    entries ≠ [] ∧
      ∀ entry ∈ entries, Writable entry ∧ entry.value.natAbs < 10 ^ maxDigits := by
  simp only [decode] at h
  split at h
  · cases h
  · rename_i rest _
    obtain ⟨found, hread, hfound⟩ := exists_of_map_ok h
    split at hfound
    · cases hfound
    · rename_i hne
      cases hfound
      refine ⟨by simpa using hne, of_readItems (fun c hc => ?_) hread⟩
      simpa using List.mem_takeWhile_imp hc

/-- The comment is refused only for a number that has no room. -/
theorem encode_ofSigns {separator delimiter colon : Char} (hseparator : separator ∈ separators)
    (hdelimiter : delimiter ∈ delimiters) (hcolon : colon ∈ colons) (lead : String)
    (entries : List EnumEntry) :
    encode (.ofSigns separator delimiter colon) lead entries =
      if entries.all hasRoom then
        .ok (String.ofList
          (lead.toList ++ marker ++ colon :: itemsChars separator delimiter entries))
      else .error .value := by
  have hfault : (Style.ofSigns separator delimiter colon).fault? = none := by
    simp [Style.fault?, Style.ofSigns, isSign, hseparator, hdelimiter, hcolon]
  have hitems : entries.map (fun entry =>
      (itemText (.ofSigns separator delimiter colon) entry).toList) =
        entries.map (itemChars separator) :=
    List.map_congr_left fun entry _ => toList_itemText separator delimiter colon entry
  have htext : lead ++ String.ofList marker ++ String.singleton colon ++
      String.intercalate (String.singleton delimiter)
        (entries.map (itemText (.ofSigns separator delimiter colon))) =
      String.ofList (lead.toList ++ marker ++ colon :: itemsChars separator delimiter entries) := by
    apply String.toList_inj.1
    simp [itemsChars, ← hitems, String.toList_intercalate, Function.comp_def]
  rw [encode, hfault, ← htext]
  rfl

theorem encode_eq_ok {separator delimiter colon : Char} (hseparator : separator ∈ separators)
    (hdelimiter : delimiter ∈ delimiters) (hcolon : colon ∈ colons) (lead : String)
    {entries : List EnumEntry}
    (hlength : ∀ entry ∈ entries, (Nat.toDigits 10 entry.value.natAbs).length ≤ maxDigits) :
    ∃ text, encode (.ofSigns separator delimiter colon) lead entries = .ok text ∧
      text.toList =
        lead.toList ++ marker ++ colon :: itemsChars separator delimiter entries := by
  have hroom : entries.all hasRoom = true :=
    List.all_eq_true.2 fun entry hentry => decide_eq_true (hlength entry hentry)
  rw [encode_ofSigns hseparator hdelimiter hcolon, if_pos hroom]
  exact ⟨_, rfl, String.toList_ofList⟩

theorem decode_written {separator delimiter colon : Char} (hseparator : separator ∈ separators)
    (hdelimiter : delimiter ∈ delimiters) (hcolon : colon ∈ colons) {lead : List Char}
    (hlead : hasMarker lead = false) {entries : List EnumEntry} (hne : entries ≠ [])
    (h : ∀ entry ∈ entries, Writable entry)
    (hlength : ∀ entry ∈ entries, (Nat.toDigits 10 entry.value.natAbs).length ≤ maxDigits) :
    decode (lead ++ marker ++ colon :: itemsChars separator delimiter entries) =
      .ok (some entries) := by
  have hall : (itemsChars separator delimiter entries).takeWhile
      (fun c => !terminators.contains c) = itemsChars separator delimiter entries := by
    rw [List.takeWhile_eq_self_iff]
    intro c hc
    simpa using not_mem_terminators_of_mem_itemsChars hseparator hdelimiter h c hc
  simp only [decode, afterMarker?_append_marker hlead hcolon, hall,
    readItems_itemsChars hseparator hdelimiter hne h hlength, Except.map]
  simp [hne]

/-- Written with whatever signs behind whatever text without a marker, a list of entries is read
back exactly if it is a non-empty list of writable ones; and what is read from any comment is
such a list. -/
theorem decode_encode {separator delimiter colon : Char} (hseparator : separator ∈ separators)
    (hdelimiter : delimiter ∈ delimiters) (hcolon : colon ∈ colons) {lead : String}
    (hlead : hasMarker lead.toList = false) :
    (∀ entries : List EnumEntry,
      (∀ entry ∈ entries, (Nat.toDigits 10 entry.value.natAbs).length ≤ maxDigits) →
      ∃ text, encode (.ofSigns separator delimiter colon) lead entries = .ok text ∧
        (decode text.toList = .ok (some entries) ↔
          entries ≠ [] ∧ ∀ entry ∈ entries, Writable entry)) ∧
    (∀ comment entries, decode comment = .ok (some entries) →
      ∃ text, encode (.ofSigns separator delimiter colon) lead entries = .ok text ∧
        decode text.toList = .ok (some entries)) := by
  have hback : ∀ entries : List EnumEntry, entries ≠ [] → (∀ entry ∈ entries, Writable entry) →
      (∀ entry ∈ entries, (Nat.toDigits 10 entry.value.natAbs).length ≤ maxDigits) →
      decode (lead.toList ++ marker ++ colon :: itemsChars separator delimiter entries) =
        .ok (some entries) :=
    fun entries => decode_written hseparator hdelimiter hcolon hlead
  constructor
  · intro entries hlength
    obtain ⟨text, hencode, htext⟩ :=
      encode_eq_ok hseparator hdelimiter hcolon lead hlength
    refine ⟨text, hencode, fun h => ?_, fun ⟨hne, h⟩ => htext ▸ hback entries hne h hlength⟩
    obtain ⟨hne, hentries⟩ := of_decode h
    exact ⟨hne, fun entry hentry => (hentries entry hentry).1⟩
  · intro comment entries h
    obtain ⟨hne, hentries⟩ := of_decode h
    have hlength : ∀ entry ∈ entries,
        (Nat.toDigits 10 entry.value.natAbs).length ≤ maxDigits := fun entry hentry =>
      (Nat.length_toDigits_le_iff (by decide) (by decide)).2 (hentries entry hentry).2
    obtain ⟨text, hencode, htext⟩ :=
      encode_eq_ok hseparator hdelimiter hcolon lead hlength
    exact ⟨text, hencode, htext ▸ hback entries hne (fun e he => (hentries e he).1) hlength⟩

/-- A label may begin with a marker and a colon of its own, behind a text that holds most of a
marker. -/
theorem decode_encode_label_with_marker :
    decode "状态【枚举【枚举】：1-【枚举】:x，12--".toList =
      .ok (some [⟨1, "【枚举】:x"⟩, ⟨12, "-"⟩]) := by
  have hlead : hasMarker "状态【枚举".toList = false := by decide
  have hseparator : '-' ∈ separators := by decide
  have hdelimiter : '，' ∈ delimiters := by decide
  have hcolon : '：' ∈ colons := by decide
  have h := (decode_encode hseparator hdelimiter hcolon hlead).1
    [⟨1, "【枚举】:x"⟩, ⟨12, "-"⟩] (by decide)
  obtain ⟨text, hencode, hdecode⟩ := h
  cases hencode
  exact hdecode.2 ⟨by decide, by decide⟩

end SchemaReader.Enumeration

import Mathlib.Tactic.FinCases
import SchemaReader.Output
import SchemaReader.Proofs.Output.Numeral

/-!
# Written documents are read back

The text of a document is a JSON text, and what it says is the document: reading it
gives the same objects, arrays, texts and numbers.  The proof follows the layout.
Every value ends before a comma, a closing bracket or a line break, and no other
character can follow a numeral, which alone has no end of its own.
-/

namespace SchemaReader.Output

open SchemaReader.Number (Binary64)
open SchemaReader.Text (CodePoint)

mutual

def Json.datum : Json → Datum
  | .null => .null
  | .bool value => .bool value
  | .int value => .number value
  | .real (.finite negative m e) => .number (Datum.signed negative (Datum.magnitude m e))
  | .real (.infinite negative) => .infinity negative
  | .text value => .string value
  | .array items => .array (Json.dataOf items)
  | .object entries => .object (Json.entryDataOf entries)

def Json.dataOf : List Json → List Datum
  | [] => []
  | item :: items => item.datum :: Json.dataOf items

def Json.entryDataOf : List (String × Json) → List (String × Datum)
  | [] => []
  | (key, value) :: entries => (key, value.datum) :: Json.entryDataOf entries

end

namespace Json

mutual

theorem writeAt_eq (level : Nat) : (json : Json) → (out : String) →
    json.writeAt level out = out ++ json.writeAt level ""
  | null, _ | bool _, _ | int _, _ | real _, _ | text _, _ | array [], _ | object [], _ => by
      simp [writeAt]
  | array (item :: items), out => by
      rw [writeAt, writeAt, writeItems_eq _ items, writeItems_eq _ items (writeAt _ _ _),
        writeAt_eq _ item, writeAt_eq _ item ("" ++ _ ++ _)]
      simp only [String.append_assoc, String.empty_append]
  | object ((key, value) :: entries), out => by
      rw [writeAt, writeAt, writeEntries_eq _ entries, writeEntries_eq _ entries (writeAt _ _ _),
        writeAt_eq _ value, writeAt_eq _ value ("" ++ _ ++ _ ++ _ ++ _)]
      simp only [String.append_assoc, String.empty_append]

theorem writeItems_eq (level : Nat) : (items : List Json) → (out : String) →
    writeItems level out items = out ++ writeItems level "" items
  | [], out => by simp [writeItems]
  | item :: items, out => by
      rw [writeItems, writeItems, writeItems_eq _ items, writeItems_eq _ items (writeAt _ _ _),
        writeAt_eq _ item, writeAt_eq _ item ("" ++ _ ++ _)]
      simp only [String.append_assoc, String.empty_append]

theorem writeEntries_eq (level : Nat) : (entries : List (String × Json)) → (out : String) →
    writeEntries level out entries = out ++ writeEntries level "" entries
  | [], out => by simp [writeEntries]
  | (key, value) :: entries, out => by
      rw [writeEntries, writeEntries, writeEntries_eq _ entries,
        writeEntries_eq _ entries (writeAt _ _ _), writeAt_eq _ value,
        writeAt_eq _ value ("" ++ _ ++ _ ++ _ ++ _)]
      simp only [String.append_assoc, String.empty_append]

end

def indent (level : Nat) : List Char := (newLine level).toList

def chars (level : Nat) (json : Json) : List Char := (json.writeAt level "").toList

def itemsChars (level : Nat) (items : List Json) : List Char := (writeItems level "" items).toList

def entriesChars (level : Nat) (entries : List (String × Json)) : List Char :=
  (writeEntries level "" entries).toList

def stringChars (value : String) : List Char := (quotedText value).toList

theorem stringChars_append (value : String) (rest : List Char) :
    stringChars value ++ rest = '"' :: (value.toList.flatMap escapedChar ++ '"' :: rest) := by
  simp [stringChars, quotedText]

theorem indent_cons (level : Nat) : indent level = '\n' :: List.replicate (2 * level) ' ' := by
  simp [indent, newLine]

theorem chars_nil_array (level : Nat) : (array []).chars level = ['[', ']'] := by
  simp [chars, writeAt]

theorem chars_nil_object (level : Nat) : (object []).chars level = ['\x7b', '\x7d'] := by
  simp [chars, writeAt]

theorem chars_array (level : Nat) (item : Json) (items : List Json) :
    (array (item :: items)).chars level =
      '[' :: (indent (level + 1) ++ (item.chars (level + 1) ++
        (itemsChars (level + 1) items ++ (indent level ++ [']'])))) := by
  rw [chars, writeAt, writeItems_eq, writeAt_eq]
  simp [chars, itemsChars, indent]

theorem itemsChars_cons (level : Nat) (item : Json) (items : List Json) :
    itemsChars level (item :: items) =
      ',' :: (indent level ++ (item.chars level ++ itemsChars level items)) := by
  rw [itemsChars, writeItems, writeItems_eq, writeAt_eq]
  simp [chars, itemsChars, indent]

theorem chars_object (level : Nat) (key : String) (value : Json) (entries : List (String × Json)) :
    (object ((key, value) :: entries)).chars level =
      '\x7b' :: (indent (level + 1) ++ (stringChars key ++ (':' :: ' ' ::
        (value.chars (level + 1) ++
          (entriesChars (level + 1) entries ++ (indent level ++ ['\x7d'])))))) := by
  rw [chars, writeAt, writeEntries_eq, writeAt_eq]
  simp [chars, entriesChars, indent, stringChars]

theorem entriesChars_cons (level : Nat) (key : String) (value : Json)
    (entries : List (String × Json)) :
    entriesChars level ((key, value) :: entries) =
      ',' :: (indent level ++ (stringChars key ++ (':' :: ' ' ::
        (value.chars level ++ entriesChars level entries)))) := by
  rw [entriesChars, writeEntries, writeEntries_eq, writeAt_eq]
  simp [chars, entriesChars, indent, stringChars]

end Json

namespace Datum

theorem skip_of_not_isSpace {c : Char} (h : isSpace c = false) (text : List Char) :
    skip (c :: text) = c :: text := by
  simp [skip, h]

theorem skip_indent (level : Nat) (text : List Char) :
    skip (Json.indent level ++ text) = skip text := by
  refine List.dropWhile_append_of_pos fun c hc => ?_
  rw [Json.indent_cons, List.mem_cons] at hc
  rcases hc with rfl | hc
  · rfl
  · rw [List.eq_of_mem_replicate hc]
    rfl

theorem hexValue?_hexDigit : ∀ n < 16, hexValue? (Text.hexDigit n) = some n := by decide

theorem hexValues?_hexDigits {n : Nat} (h : n < 65536) :
    hexValues? (Text.hexDigits 4 n) = some n := by
  have hdigit (m : Nat) : hexValue? (Text.hexDigit (m % 16)) = some (m % 16) :=
    hexValue?_hexDigit _ (Nat.mod_lt m (by decide))
  simp only [hexValues?, Text.hexDigits, List.nil_append, List.cons_append, List.foldlM_cons,
    List.foldlM_nil, hdigit, Option.map_some, Option.bind_eq_bind, Option.bind_some,
    Option.pure_def]
  congr 1
  omega

theorem escapedChar_cases (c : Char) :
    (∃ e, e ≠ 'u' ∧ escaped? e = some c ∧ Json.escapedChar c = ['\\', e]) ∨
    (c.toNat < 32 ∧ Json.escapedChar c = '\\' :: 'u' :: Text.hexDigits 4 c.toNat) ∨
    (c ≠ '"' ∧ c ≠ '\\' ∧ 32 ≤ c.toNat ∧ Json.escapedChar c = [c]) := by
  unfold Json.escapedChar
  split
  · rename_i h
    rcases (by simpa using h : c = '"' ∨ c = '\\') with rfl | rfl
    · exact .inl ⟨'"', by decide, by decide, rfl⟩
    · exact .inl ⟨'\\', by decide, by decide, rfl⟩
  rename_i hplain
  split
  · subst c
    exact .inl ⟨'n', by decide, by decide, rfl⟩
  split
  · subst c
    exact .inl ⟨'r', by decide, by decide, rfl⟩
  split
  · subst c
    exact .inl ⟨'t', by decide, by decide, rfl⟩
  split
  · rename_i h
    obtain rfl : c = '\x08' := Char.toNat_inj.1 h
    exact .inl ⟨'b', by decide, by decide, rfl⟩
  split
  · rename_i h
    obtain rfl : c = '\x0c' := Char.toNat_inj.1 h
    exact .inl ⟨'f', by decide, by decide, rfl⟩
  split
  · rename_i h
    exact .inr (.inl ⟨h, rfl⟩)
  · rename_i h
    simp only [Bool.or_eq_true, decide_eq_true_eq, not_or] at hplain
    exact .inr (.inr ⟨hplain.1, hplain.2, Nat.not_lt.1 h, rfl⟩)

theorem points?_escapedChar (c : Char) (rest : List Char) :
    points? (Json.escapedChar c ++ rest) =
      (points? rest).map fun (points, rest) => (.char c :: points, rest) := by
  rcases escapedChar_cases c with ⟨e, hu, he, hc⟩ | ⟨hlow, hc⟩ | ⟨hquote, hslash, hlow, hc⟩
  · rw [hc, List.cons_append, List.cons_append, points?.eq_def]
    simp [hu, he]
  · have hcode := hexValues?_hexDigits (Nat.lt_trans hlow (by decide : 32 < 65536))
    have hpoint : CodePoint.ofNat c.toNat = .char c := by
      rw [CodePoint.ofNat, if_neg (by simp; omega), Char.ofNat_toNat]
    rw [hc, points?.eq_def]
    simp only [Text.hexDigits, List.nil_append, List.cons_append] at hcode ⊢
    simp [hcode, hpoint]
  · rw [hc, List.cons_append, List.nil_append, points?.eq_def]
    simp [hquote, hslash, Nat.not_lt.2 hlow]

theorem points?_escapedChars (chars rest : List Char) :
    points? (chars.flatMap Json.escapedChar ++ '"' :: rest) = some (chars.map .char, rest) := by
  induction chars with
  | nil =>
      rw [List.flatMap_nil, List.nil_append, points?.eq_def]
      rfl
  | cons c chars ih =>
      rw [List.flatMap_cons, List.append_assoc, points?_escapedChar, ih]
      rfl

theorem joined?_map_char (chars : List Char) : joined? (chars.map .char) = some chars := by
  induction chars with
  | nil => rfl
  | cons c chars ih =>
      rw [List.map_cons, joined?, ih]
      rfl

theorem string?_escapedChars (value : String) (rest : List Char) :
    string? (value.toList.flatMap Json.escapedChar ++ '"' :: rest) = some (value, rest) := by
  simp [string?, points?_escapedChars, joined?_map_char]

/-! ## Values without items -/

/-- The text is no text of an array or object, and is read as `datum`. -/
structure IsScalar (text : List Char) (datum : Datum) : Prop where
  lead : ∃ c rest, text = c :: rest ∧ isSpace c = false ∧ c ∉ ['[', ']', '\x7b']
  read : ∀ rest, EndsNumber rest → scalar? (text ++ rest) = some (datum, rest)

theorem ne_of_isDigit {c d : Char} (hc : c.isDigit) (hd : d.isDigit = false) : c ≠ d := by
  rintro rfl
  rw [hd] at hc
  contradiction

theorem word?_none {c : Char} {text : List Char} (h : c ∉ ['n', 't', 'f', 'I', '-']) :
    word? (c :: text) = none := by
  simp only [List.mem_cons, not_or] at h
  simp [word?, words, Ne.symm, h]

theorem word?_minus {c : Char} {text : List Char} (h : c ≠ 'I') :
    word? ('-' :: c :: text) = none := by
  simp [word?, words, h.symm]

theorem scalar?_of_isDigit {c : Char} (hc : c.isDigit) (text : List Char) :
    scalar? (c :: text) = number? false (c :: text) := by
  have hword : word? (c :: text) = none := by
    refine word?_none fun hmem => ?_
    fin_cases hmem <;> cases hc
  unfold scalar?
  rw [hword]
  dsimp only
  split
  · rename_i heq
    cases heq
    cases hc
  · rename_i heq
    cases heq
    cases hc
  · rfl

theorem isScalar_numeral {numeral : Numeral} (h : numeral.Valid) (negative : Bool) :
    IsScalar ((if negative then ['-'] else []) ++ numeral.chars)
      (.number (signed negative numeral.value)) := by
  obtain ⟨c, text, hchars, hc⟩ := h.exists_cons
  cases negative with
  | false =>
      refine ⟨⟨c, text, hchars, by simp [isSpace, ne_of_isDigit hc], by simp [ne_of_isDigit hc]⟩,
        fun rest hrest => ?_⟩
      rw [← number?_chars h false hrest, hchars]
      exact scalar?_of_isDigit hc _
  | true =>
      refine ⟨⟨'-', _, rfl, by decide, by decide⟩, fun rest hrest => ?_⟩
      have hword : word? ('-' :: c :: (text ++ rest)) = none := word?_minus (ne_of_isDigit hc rfl)
      rw [← number?_chars h true hrest, hchars]
      simp [scalar?, hword]

theorem isScalar_word {word : List Char} {datum : Datum} (h : (word, datum) ∈ words) :
    IsScalar word datum := by
  simp only [words, List.mem_cons, Prod.mk.injEq, List.not_mem_nil, or_false] at h
  rcases h with ⟨rfl, rfl⟩ | ⟨rfl, rfl⟩ | ⟨rfl, rfl⟩ | ⟨rfl, rfl⟩ | ⟨rfl, rfl⟩ <;>
    exact ⟨⟨_, _, rfl, by decide, by decide⟩, fun rest _ => rfl⟩

theorem isScalar_int (n : Int) : IsScalar (toString n).toList (.number n) := by
  have hvalid : (Numeral.mk (Nat.toDigits 10 n.natAbs) [] none).Valid :=
    ⟨isWhole_toDigits n.natAbs, by simp⟩
  have hvalue : signed (decide (n < 0))
      (Numeral.mk (Nat.toDigits 10 n.natAbs) [] none).value = n := by
    have hdigits : (Numeral.mk (Nat.toDigits 10 n.natAbs) [] none).value = (n.natAbs : Int) := by
      simp [Numeral.value]
    rw [hdigits]
    by_cases hneg : n < 0
    · have habs : (n.natAbs : Int) = -n := by omega
      rw [decide_eq_true hneg, signed, if_pos rfl, habs]
      simp
    · have habs : (n.natAbs : Int) = n := by omega
      rw [decide_eq_false hneg, signed, if_neg Bool.false_ne_true, habs]
  have hscalar := isScalar_numeral hvalid (decide (n < 0))
  rw [hvalue] at hscalar
  rw [toList_toString]
  simpa [Numeral.chars] using hscalar

theorem isScalar_real (x : Binary64) :
    IsScalar (x.textWith "Infinity").toList (Json.real x).datum := by
  cases x with
  | infinite negative =>
      have hword : (((Binary64.infinite negative).textWith "Infinity").toList,
          (Json.real (.infinite negative)).datum) ∈ words := by
        cases negative
        · exact List.mem_of_getElem? (i := 3) rfl
        · exact List.mem_of_getElem? (i := 4) rfl
      exact isScalar_word hword
  | finite negative m e =>
      obtain ⟨numeral, hvalid, hchars, hvalue⟩ := exists_numeral_magnitude m e
      have hscalar := isScalar_numeral hvalid negative
      rw [hchars, hvalue] at hscalar
      rw [Json.datum]
      cases negative <;> simpa [Binary64.textWith] using hscalar

theorem isScalar_text (value : String) : IsScalar (Json.stringChars value) (.string value) := by
  have htext := Json.stringChars_append value []
  rw [List.append_nil] at htext
  refine ⟨⟨'"', _, htext, by decide, by decide⟩, fun rest _ => ?_⟩
  · rw [Json.stringChars_append, scalar?, word?_none (by decide)]
    simp [string?_escapedChars]

/-! ## Arrays and objects -/

theorem value?_congr (left : Nat) {text other : List Char} (h : skip text = skip other) :
    value? left text = value? left other := by
  cases left with
  | zero => rfl
  | succ left => rw [value?, value?, h]

theorem value?_scalar {text : List Char} {datum : Datum} (h : IsScalar text datum) (left : Nat)
    {rest : List Char} (hrest : EndsNumber rest) :
    value? (left + 1) (text ++ rest) = some (datum, rest) := by
  rw [← h.read rest hrest]
  obtain ⟨c, text, rfl, hspace, hc⟩ := h.lead
  rw [value?, List.cons_append, skip_of_not_isSpace hspace]
  split
  · rename_i heq
    cases heq
    exact absurd hc (by decide)
  · rename_i heq
    cases heq
    exact absurd hc (by decide)
  · rfl

theorem value?_array {left : Nat} {c : Char} {text rest : List Char} {items : List Datum}
    (hspace : isSpace c = false) (hc : c ≠ ']')
    (hitems : items? left (c :: text) = some (items, rest)) (level : Nat) :
    value? (left + 1) ('[' :: (Json.indent level ++ c :: text)) = some (.array items, rest) := by
  rw [value?, skip_of_not_isSpace (by decide)]
  simp only [skip_indent, skip_of_not_isSpace hspace]
  split
  · rename_i heq
    cases heq
    exact absurd rfl hc
  · rw [hitems]
    rfl

theorem value?_object {left : Nat} {key : String} {text rest : List Char}
    {entries : List (String × Datum)}
    (hentries : entries? left (Json.stringChars key ++ text) = some (entries, rest))
    (level : Nat) :
    value? (left + 1) ('\x7b' :: (Json.indent level ++ (Json.stringChars key ++ text))) =
      some (.object entries, rest) := by
  rw [Json.stringChars_append] at hentries ⊢
  rw [value?, skip_of_not_isSpace (by decide)]
  simp only [skip_indent, skip_of_not_isSpace (by decide : isSpace '"' = false)]
  exact congrArg (Option.map _) hentries

theorem items?_last {left : Nat} {text rest : List Char} {item : Datum} (level : Nat)
    (hitem : value? left text = some (item, Json.indent level ++ ']' :: rest)) :
    items? (left + 1) text = some ([item], rest) := by
  rw [items?, hitem, Option.bind_some]
  simp only [skip_indent, skip_of_not_isSpace (by decide : isSpace ']' = false)]

theorem items?_more {left : Nat} {text next rest : List Char} {item : Datum} {items : List Datum}
    (hitem : value? left text = some (item, ',' :: next))
    (hitems : items? left next = some (items, rest)) :
    items? (left + 1) text = some (item :: items, rest) := by
  rw [items?, hitem, Option.bind_some]
  simp only [skip_of_not_isSpace (by decide : isSpace ',' = false)]
  rw [hitems]
  rfl

theorem entries?_congr (left : Nat) {text other : List Char} (h : skip text = skip other) :
    entries? left text = entries? left other := by
  cases left with
  | zero => rfl
  | succ left => rw [entries?, entries?, h]

/-- What is read where an entry was read up to `rest`. -/
def entriesFrom (left : Nat) (entry : String × Datum) (rest : List Char) :
    Option (List (String × Datum) × List Char) :=
  match skip rest with
  | ',' :: rest => (entries? left rest).map fun (entries, rest) => (entry :: entries, rest)
  | '\x7d' :: rest => some ([entry], rest)
  | _ => none

theorem entries?_of_value {left : Nat} {key : String} {value : Datum} {text rest : List Char}
    (hvalue : value? left text = some (value, rest)) :
    entries? (left + 1) (Json.stringChars key ++ ':' :: ' ' :: text) =
      entriesFrom left (key, value) rest := by
  have hspace : value? left (' ' :: text) = some (value, rest) := by
    rw [← hvalue]
    exact value?_congr left rfl
  rw [entries?, Json.stringChars_append, skip_of_not_isSpace (by decide)]
  simp only [string?_escapedChars, Option.bind_some,
    skip_of_not_isSpace (by decide : isSpace ':' = false), hspace]
  rfl

theorem entries?_last {left : Nat} {key : String} {value : Datum} {text rest : List Char}
    (level : Nat)
    (hvalue : value? left text = some (value, Json.indent level ++ '\x7d' :: rest)) :
    entries? (left + 1) (Json.stringChars key ++ ':' :: ' ' :: text) =
      some ([(key, value)], rest) := by
  rw [entries?_of_value hvalue, entriesFrom, skip_indent, skip_of_not_isSpace (by decide)]
  rfl

theorem entries?_more {left : Nat} {key : String} {value : Datum} {text next rest : List Char}
    {entries : List (String × Datum)} (hvalue : value? left text = some (value, ',' :: next))
    (hentries : entries? left next = some (entries, rest)) :
    entries? (left + 1) (Json.stringChars key ++ ':' :: ' ' :: text) =
      some ((key, value) :: entries, rest) := by
  rw [entries?_of_value hvalue, entriesFrom, skip_of_not_isSpace (by decide)]
  simp only [hentries]
  rfl

theorem endsNumber_cons {c : Char} (h : c = ',' ∨ c = '\n') (rest : List Char) :
    EndsNumber (c :: rest) := by
  rintro d ⟨⟩
  rcases h with rfl | rfl <;> decide

theorem endsNumber_items (level outer : Nat) (items : List Json) (rest : List Char) :
    EndsNumber (Json.itemsChars level items ++ (Json.indent outer ++ rest)) := by
  cases items with
  | nil =>
      rw [Json.indent_cons]
      exact endsNumber_cons (.inr rfl) _
  | cons item items =>
      rw [Json.itemsChars_cons]
      exact endsNumber_cons (.inl rfl) _

theorem endsNumber_entries (level outer : Nat) (entries : List (String × Json))
    (rest : List Char) :
    EndsNumber (Json.entriesChars level entries ++ (Json.indent outer ++ rest)) := by
  cases entries with
  | nil =>
      rw [Json.indent_cons]
      exact endsNumber_cons (.inr rfl) _
  | cons entry entries =>
      rw [Json.entriesChars_cons]
      exact endsNumber_cons (.inl rfl) _

theorem isScalar_chars (level : Nat) (json : Json) (harray : ∀ items, json ≠ .array items)
    (hobject : ∀ entries, json ≠ .object entries) : IsScalar (json.chars level) json.datum := by
  cases json with
  | null => exact isScalar_word (by simp [words, Json.chars, Json.writeAt, Json.datum])
  | bool value =>
      cases value <;> exact isScalar_word (by simp [words, Json.chars, Json.writeAt, Json.datum])
  | int n => simpa [Json.chars, Json.writeAt, Json.datum] using isScalar_int n
  | real x => simpa [Json.chars, Json.writeAt] using isScalar_real x
  | text value =>
      simpa [Json.chars, Json.writeAt, Json.datum, Json.stringChars] using isScalar_text value
  | array items => exact absurd rfl (harray items)
  | object entries => exact absurd rfl (hobject entries)

theorem exists_lead (level : Nat) (json : Json) :
    ∃ c text, json.chars level = c :: text ∧ isSpace c = false ∧ c ≠ ']' := by
  by_cases harray : ∃ items, json = .array items
  · obtain ⟨items, rfl⟩ := harray
    cases items with
    | nil => exact ⟨'[', _, Json.chars_nil_array level, by decide, by decide⟩
    | cons item items => exact ⟨'[', _, Json.chars_array level item items, by decide, by decide⟩
  by_cases hobject : ∃ entries, json = .object entries
  · obtain ⟨entries, rfl⟩ := hobject
    cases entries with
    | nil => exact ⟨'\x7b', _, Json.chars_nil_object level, by decide, by decide⟩
    | cons entry entries =>
        exact ⟨'\x7b', _, Json.chars_object level entry.1 entry.2 entries, by decide, by decide⟩
  · have hscalar := isScalar_chars level json (fun items h => harray ⟨items, h⟩)
      fun entries h => hobject ⟨entries, h⟩
    obtain ⟨c, text, hchars, hspace, hc⟩ := hscalar.lead
    exact ⟨c, text, hchars, hspace, fun heq => hc (by simp [heq])⟩

theorem value?_nil_array (level left : Nat) (rest : List Char) :
    value? (left + 1) ((Json.array []).chars level ++ rest) = some (.array [], rest) := by
  rw [Json.chars_nil_array]
  rfl

theorem value?_nil_object (level left : Nat) (rest : List Char) :
    value? (left + 1) ((Json.object []).chars level ++ rest) = some (.object [], rest) := by
  rw [Json.chars_nil_object]
  rfl

-- Every value takes a character at least, so the length of the text bounds how many are read.
mutual

theorem value?_chars : (json : Json) → ∀ (level left : Nat) (rest : List Char),
    (json.chars level).length ≤ left → EndsNumber rest →
    value? (left + 1) (json.chars level ++ rest) = some (json.datum, rest)
  | .array [] => fun level left rest _ _ => value?_nil_array level left rest
  | .array (item :: items) => fun level left rest hleft _ => by
      rw [Json.chars_array] at hleft ⊢
      simp only [List.length_cons, List.length_append, List.length_nil, Json.indent_cons] at hleft
      obtain ⟨left, rfl⟩ : ∃ fewer, left = fewer + 2 := ⟨left - 2, by omega⟩
      have hitem := value?_chars item (level + 1) left
        (Json.itemsChars (level + 1) items ++ (Json.indent level ++ ']' :: rest)) (by omega)
        (endsNumber_items _ _ _ _)
      have hitems := items?_chars items (level + 1) level _ _ _ rest (by omega) hitem
      obtain ⟨c, text, hchars, hspace, hc⟩ := exists_lead (level + 1) item
      rw [hchars] at hitems ⊢
      rw [Json.datum, Json.dataOf]
      simpa using value?_array hspace hc hitems (level + 1)
  | .object [] => fun level left rest _ _ => value?_nil_object level left rest
  | .object ((key, value) :: entries) => fun level left rest hleft _ => by
      rw [Json.chars_object] at hleft ⊢
      simp only [List.length_cons, List.length_append, List.length_nil, Json.indent_cons] at hleft
      obtain ⟨left, rfl⟩ : ∃ fewer, left = fewer + 2 := ⟨left - 2, by omega⟩
      have hvalue := value?_chars value (level + 1) left
        (Json.entriesChars (level + 1) entries ++ (Json.indent level ++ '\x7d' :: rest)) (by omega)
        (endsNumber_entries _ _ _ _)
      have hentries := entries?_chars entries (level + 1) level _ key _ _ rest (by omega) hvalue
      rw [Json.datum, Json.entryDataOf]
      simpa using value?_object hentries (level + 1)
  | .null | .bool _ | .int _ | .real _ | .text _ => fun level left _ _ hrest =>
      value?_scalar (isScalar_chars level _ (by simp) (by simp)) left hrest

theorem items?_chars : (items : List Json) → ∀ (level outer left : Nat) (item : Datum)
    (text rest : List Char), (Json.itemsChars level items).length ≤ left →
    value? left text =
      some (item, Json.itemsChars level items ++ (Json.indent outer ++ ']' :: rest)) →
    items? (left + 1) text = some (item :: Json.dataOf items, rest)
  | [] => fun _ outer _ _ _ _ _ hitem => items?_last outer hitem
  | next :: items => fun level outer left item text rest hleft hitem => by
      rw [Json.itemsChars_cons] at hleft hitem
      simp only [List.length_cons, List.length_append, Json.indent_cons] at hleft
      obtain ⟨left, rfl⟩ : ∃ fewer, left = fewer + 2 := ⟨left - 2, by omega⟩
      refine items?_more (by simpa using hitem)
        (items?_chars items level outer (left + 1) _ _ rest (by omega) ?_)
      rw [value?_congr _ (skip_indent level _)]
      simpa using value?_chars next level left _ (by omega) (endsNumber_items level outer items _)

theorem entries?_chars : (entries : List (String × Json)) → ∀ (level outer left : Nat)
    (key : String) (value : Datum) (text rest : List Char),
    (Json.entriesChars level entries).length ≤ left →
    value? left text =
      some (value, Json.entriesChars level entries ++ (Json.indent outer ++ '\x7d' :: rest)) →
    entries? (left + 1) (Json.stringChars key ++ ':' :: ' ' :: text) =
      some ((key, value) :: Json.entryDataOf entries, rest)
  | [] => fun _ outer _ _ _ _ _ _ hvalue => entries?_last outer hvalue
  | (nextKey, next) :: entries => fun level outer left key value text rest hleft hvalue => by
      rw [Json.entriesChars_cons] at hleft hvalue
      simp only [List.length_cons, List.length_append, Json.indent_cons] at hleft
      obtain ⟨left, rfl⟩ : ∃ fewer, left = fewer + 2 := ⟨left - 2, by omega⟩
      refine entries?_more (by simpa using hvalue) ?_
      rw [entries?_congr _ (skip_indent level _)]
      refine entries?_chars entries level outer (left + 1) nextKey _ _ rest (by omega) ?_
      simpa using value?_chars next level left _ (by omega)
        (endsNumber_entries level outer entries _)

end

/-- A document is what its text says. -/
theorem read?_render (json : Json) : read? json.render = some json.datum := by
  have hread := value?_chars json 0 (json.chars 0).length [] (Nat.le_refl _) (by simp [EndsNumber])
  rw [List.append_nil] at hread
  have htext : json.render.toList = json.chars 0 := rfl
  rw [read?, htext, hread]
  rfl

end Datum

end SchemaReader.Output

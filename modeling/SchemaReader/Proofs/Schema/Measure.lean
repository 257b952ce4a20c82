import SchemaReader.Proofs.Number.Numeral
import SchemaReader.Proofs.Text.Pieces
import SchemaReader.Reading.Column
import SchemaReader.Schema.Measure

/-!
# Precision and scale of a type

The length of a type is cut at its commas.  A part of decimal digits is worth its
value and most other parts are worth nothing, but a part that merely looks like
digits, or has too many of them, cannot be read.  All parts are read before one is
chosen, so such a part makes both numbers fail, whichever part it is.
-/

namespace SchemaReader.Schema.ColumnType

open SchemaReader.Number SchemaReader.Text

def lengthTexts (type : ColumnType) : List (List Char) :=
  match type.length with
  | none => []
  | some length => (length.toList.splitOnP (· == ',')).map trim

def decimalValue? (text : List Char) : Option Nat :=
  if !text.isEmpty && text.all isDigit then some (digitsValue text) else none

/-- The text passes for digits and cannot be read: some character only looks like a digit, or there
are too many digits. -/
structure Unreadable (text : List Char) : Prop where
  ne_nil : text ≠ []
  digitLike : ∀ c ∈ text, isDigitLike c
  defect : (∃ c ∈ text, ¬ isDigit c) ∨ maxDigits < text.length

theorem all_iff {p : Char → Bool} {text : List Char} :
    (!text.isEmpty && text.all p) = true ↔ text ≠ [] ∧ ∀ c ∈ text, p c := by
  rw [Bool.and_eq_true, List.all_eq_true, Bool.not_eq_true', List.isEmpty_eq_false_iff]

theorem unreadable_iff {text : List Char} :
    Unreadable text ↔ (!text.isEmpty && text.all isDigitLike) = true ∧
      (text.all isDigit = false ∨ maxDigits < text.length) := by
  rw [all_iff, List.all_eq_false]
  constructor
  · rintro ⟨hne, hlike, hdefect⟩
    exact ⟨⟨hne, hlike⟩, hdefect⟩
  · rintro ⟨⟨hne, hlike⟩, hdefect⟩
    exact ⟨hne, hlike, hdefect⟩

instance (text : List Char) : Decidable (Unreadable text) := decidable_of_iff _ unreadable_iff.symm

def readingFault (text : List Char) : NumeralFault :=
  let digits := text.takeWhile isDigit
  if maxDigits < digits.length then .tooLong digits.length else .notNumeral text

theorem isDigitLike_of_isDigit {c : Char} (h : isDigit c) : isDigitLike c := by
  rw [isDigitLike, h, Bool.true_or]

theorem Unreadable.readNatural_eq {text : List Char} (h : Unreadable text) :
    readNatural text = .error (readingFault text) := by
  unfold readNatural readingFault
  by_cases hlong : maxDigits < (text.takeWhile isDigit).length
  · rw [if_pos hlong, if_pos hlong]
  · have hother : (text.takeWhile isDigit).length < text.length := by
      refine Nat.lt_of_le_of_ne (List.takeWhile_prefix _).length_le fun hall => ?_
      have htake := (List.takeWhile_prefix isDigit).eq_of_length hall
      rcases h.defect with ⟨c, hc, hdigit⟩ | hmany
      · exact hdigit (List.takeWhile_eq_self_iff.1 htake c hc)
      · exact hlong (htake.symm ▸ hmany)
    rw [if_neg hlong, if_neg hlong, if_pos (by simp [hother])]

theorem readPart_of_unreadable {part : List Char} (h : Unreadable (trim part)) :
    readPart part = .error (readingFault (trim part)) := by
  rw [readPart, if_pos (unreadable_iff.1 h).1, h.readNatural_eq]
  rfl

theorem readPart_of_readable {part : List Char} (h : ¬ Unreadable (trim part)) :
    readPart part = .ok (decimalValue? (trim part)) := by
  unfold readPart decimalValue?
  by_cases hdigits : (!(trim part).isEmpty && (trim part).all isDigit) = true
  · obtain ⟨hne, hall⟩ := all_iff.1 hdigits
    have hlike := all_iff.2 ⟨hne, fun c hc => isDigitLike_of_isDigit (hall c hc)⟩
    have hlength : (trim part).length ≤ maxDigits := by
      by_contra hmany
      exact h (unreadable_iff.2 ⟨hlike, .inr (by omega)⟩)
    rw [if_pos hlike, if_pos hdigits, readNatural_of_digits hne hall hlength]
    rfl
  · rw [if_neg hdigits, if_neg]
    intro hlike
    have hnone : (trim part).all isDigit = false := by
      rw [← Bool.not_eq_true]
      intro hall
      exact hdigits (all_iff.2 ⟨(all_iff.1 hlike).1, List.all_eq_true.1 hall⟩)
    exact h (unreadable_iff.2 ⟨hlike, .inl hnone⟩)

section Choice

variable {type : ColumnType}

theorem lengthParts_eq (type : ColumnType) :
    type.lengthParts = .ok [] ∧ (∀ text ∈ type.lengthTexts, text = []) ∨
      ∃ parts : List (List Char), type.lengthParts = parts.mapM readPart ∧
        type.lengthTexts = parts.map trim := by
  unfold lengthParts lengthTexts
  cases type.length with
  | none => exact .inl ⟨rfl, by simp⟩
  | some length =>
      by_cases hempty : length.isEmpty
      · rw [String.isEmpty_iff] at hempty
        subst hempty
        exact .inl ⟨rfl, by decide⟩
      · refine .inr ⟨_, if_neg hempty, ?_⟩
        rw [splitAtChars_eq_splitOnP]

theorem getElem?_parts_of_readable (h : ∀ text ∈ type.lengthTexts, ¬ Unreadable text)
    (index : Nat) :
    (type.lengthParts.map fun parts => parts[index]?.join) =
      .ok (type.lengthTexts[index]?.bind decimalValue?) := by
  rcases lengthParts_eq type with ⟨hparts, htexts⟩ | ⟨parts, hparts, htexts⟩
  · have hnone : type.lengthTexts[index]?.bind decimalValue? = none := by
      rw [Option.bind_eq_none_iff]
      intro text htext
      rw [htexts text (List.mem_of_getElem? htext)]
      rfl
    rw [hparts, hnone]
    rfl
  · rw [htexts] at h ⊢
    have hread : ∀ part ∈ parts, readPart part = .ok (decimalValue? (trim part)) :=
      fun part hpart => readPart_of_readable (h _ (List.mem_map_of_mem hpart))
    have hget : (parts.map fun part => decimalValue? (trim part))[index]?.join =
        (parts.map trim)[index]?.bind decimalValue? := by
      rw [List.getElem?_map, List.getElem?_map]
      cases parts[index]? <;> rfl
    rw [hparts, mapM_eq_ok hread]
    exact congrArg Except.ok hget

theorem lengthParts_of_unreadable {before after : List (List Char)} {text : List Char}
    (htexts : type.lengthTexts = before ++ text :: after)
    (hbefore : ∀ earlier ∈ before, ¬ Unreadable earlier) (h : Unreadable text) :
    type.lengthParts = .error (readingFault text) := by
  rcases lengthParts_eq type with ⟨-, hempty⟩ | ⟨parts, hparts, hmap⟩
  · exact absurd (hempty text (by simp [htexts])) h.ne_nil
  · rw [hmap] at htexts
    obtain ⟨first, rest, rfl, rfl, hrest⟩ := List.map_eq_append_iff.1 htexts
    obtain ⟨part, later, rfl, rfl, -⟩ := List.map_eq_cons_iff.1 hrest
    have hread : ∀ part ∈ first, readPart part = .ok (decimalValue? (trim part)) :=
      fun part hpart => readPart_of_readable (hbefore _ (List.mem_map_of_mem hpart))
    rw [hparts, mapM_eq_error hread (readPart_of_unreadable h)]

end Choice

/-- Precision and scale are the values of the first two parts of the length, where these consist of
decimal digits, as long as every part can be read.  The first part that cannot be read makes both
fail, wherever it stands. -/
theorem precision_scale_by_parts (type : ColumnType) :
    ((∀ text ∈ type.lengthTexts, ¬ Unreadable text) →
      type.precision = .ok (type.lengthTexts[0]?.bind decimalValue?) ∧
      type.scale = .ok (type.lengthTexts[1]?.bind decimalValue?)) ∧
    (∀ before text after, type.lengthTexts = before ++ text :: after →
      (∀ earlier ∈ before, ¬ Unreadable earlier) → Unreadable text →
      type.precision = .error (readingFault text) ∧
      type.scale = .error (readingFault text)) := by
  constructor
  · intro h
    exact ⟨getElem?_parts_of_readable h 0, getElem?_parts_of_readable h 1⟩
  · intro before text after htexts hbefore h
    have hfault := lengthParts_of_unreadable htexts hbefore h
    rw [precision, scale, hfault]
    exact ⟨rfl, rfl⟩

/-- A superscript in the second part takes the precision with it. -/
theorem precision_scale_by_parts_superscript :
    precision ⟨"DECIMAL", some "10, ٢,x", "DECIMAL(10, ٢,x)", .decimal⟩ = .ok (some 10) ∧
      scale ⟨"DECIMAL", some "10, ٢,x", "DECIMAL(10, ٢,x)", .decimal⟩ = .ok (some 2) ∧
      Unreadable ['²'] ∧
      precision ⟨"DECIMAL", some "10,²", "DECIMAL(10,²)", .decimal⟩ =
        .error (.notNumeral ['²']) := by
  have hgood := (precision_scale_by_parts
    ⟨"DECIMAL", some "10, ٢,x", "DECIMAL(10, ٢,x)", .decimal⟩).1 (by decide)
  have hbad := (precision_scale_by_parts ⟨"DECIMAL", some "10,²", "DECIMAL(10,²)", .decimal⟩).2
    [['1', '0']] ['²'] [] (by decide) (by decide) (by decide)
  exact ⟨hgood.1.trans (by decide), hgood.2.trans (by decide), by decide, hbad.1.trans (by decide)⟩

example : (ColumnType.ofToken "DECIMAL(10,²)".toList).scale = .error (.notNumeral ['²']) := by
  decide

end SchemaReader.Schema.ColumnType

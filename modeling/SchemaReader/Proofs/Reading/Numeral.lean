import SchemaReader.Proofs.Number.Numeral
import SchemaReader.Proofs.Text.Pieces
import SchemaReader.Reading.Column

/-!
# Decimal numerals in defaults

A numeral is written with a sign or without, and with digits behind a point or without.
A text is read as a decimal just when all of it is a numeral, but for one line break that
may follow.
-/

namespace SchemaReader.Reading

open SchemaReader.Number SchemaReader.Text

structure IsDigits (text : List Char) : Prop where
  ne_nil : text ≠ []
  digits : ∀ c ∈ text, isDigit c

structure Numeral where
  sign : Option Char
  isSign : ∀ c ∈ sign, c = '+' ∨ c = '-'
  whole : List Char
  isWhole : IsDigits whole
  fraction : Option (List Char)
  isFraction : ∀ digits ∈ fraction, IsDigits digits

def fractionText (fraction : Option (List Char)) : List Char := fraction.elim [] ('.' :: ·)

namespace Numeral

def write (numeral : Numeral) : List Char :=
  numeral.sign.toList ++ numeral.whole ++ fractionText numeral.fraction

def decimal (numeral : Numeral) : DecimalText :=
  ⟨numeral.sign = some '-', numeral.whole, numeral.fraction⟩

end Numeral

/-- The text is of this form, but for a line break that may stand behind it. -/
def IsUpToBreak (form text : List Char) : Prop := text = form ∨ text = form ++ ['\n']

theorem isUpToBreak_iff {form text : List Char} :
    IsUpToBreak form text ↔ ∃ ending, atEnd ending ∧ text = form ++ ending := by
  simp [IsUpToBreak, atEnd, or_and_right, exists_or]

theorem IsUpToBreak.append_left {form text : List Char} (h : IsUpToBreak form text)
    (lead : List Char) : IsUpToBreak (lead ++ form) (lead ++ text) := by
  rcases h with rfl | rfl
  · exact .inl rfl
  · exact .inr (List.append_assoc ..).symm

theorem not_isDigit_head?_of_atEnd {ending : List Char} (h : atEnd ending) :
    ∀ c ∈ ending.head?, isDigit c = false := by
  rcases (by simpa [atEnd] using h : ending = [] ∨ ending = ['\n']) with rfl | rfl
  · simp
  · rintro c ⟨⟩
    rfl

theorem not_isDigit_head?_fraction (fraction : Option (List Char)) {ending : List Char}
    (h : atEnd ending) : ∀ c ∈ (fractionText fraction ++ ending).head?, isDigit c = false := by
  cases fraction with
  | none => exact not_isDigit_head?_of_atEnd h
  | some digits =>
      rintro c ⟨⟩
      rfl

theorem of_unsignedDecimal? {negative : Bool} {text : List Char} {d : DecimalText}
    (h : unsignedDecimal? negative text = some d) :
    d.negative = negative ∧ IsDigits d.whole ∧ (∀ digits ∈ d.fraction, IsDigits digits) ∧
      IsUpToBreak (d.whole ++ fractionText d.fraction) text := by
  have hcut := List.takeWhile_append_dropWhile (p := isDigit) (l := text)
  have hwhole : ∀ c ∈ text.takeWhile isDigit, isDigit c := fun c hc => List.mem_takeWhile_imp hc
  simp only [isUpToBreak_iff]
  simp only [unsignedDecimal?] at h
  split at h
  · cases h
  · rename_i hne
    have hdigits : IsDigits (text.takeWhile isDigit) := ⟨by simpa using hne, hwhole⟩
    split at h
    · rename_i hend
      cases h
      exact ⟨rfl, hdigits, by simp, _, hend, by simp [fractionText]⟩
    · split at h
      · rename_i after hpoint
        split at h
        · rename_i hfraction
          cases h
          rw [Bool.and_eq_true] at hfraction
          refine ⟨rfl, hdigits, ?_, _, hfraction.2, ?_⟩
          · rintro digits ⟨⟩
            exact ⟨by simpa using hfraction.1, fun c hc => List.mem_takeWhile_imp hc⟩
          · calc text = text.takeWhile isDigit ++ '.' :: after := by rw [← hpoint, hcut]
              _ = _ := by simp [fractionText]
        · cases h
      · cases h

theorem unsignedDecimal?_append (negative : Bool) {whole ending : List Char}
    {fraction : Option (List Char)} (hwhole : IsDigits whole)
    (hfraction : ∀ digits ∈ fraction, IsDigits digits) (hend : atEnd ending) :
    unsignedDecimal? negative (whole ++ (fractionText fraction ++ ending)) =
      some ⟨negative, whole, fraction⟩ := by
  have hspan := span_append hwhole.digits (not_isDigit_head?_fraction fraction hend)
  have hne : whole.isEmpty = false := by simpa using hwhole.ne_nil
  simp only [unsignedDecimal?, hspan, hne]
  cases fraction with
  | none => simp [fractionText, hend]
  | some digits =>
      have hdigits := hfraction digits rfl
      have hlater := span_append hdigits.digits (not_isDigit_head?_of_atEnd hend)
      have hsome : digits.isEmpty = false := by simpa using hdigits.ne_nil
      have hpoint : atEnd ('.' :: (digits ++ ending)) = false := by simp [atEnd]
      simp [fractionText, hpoint, hlater, hsome, hend]

theorem decimalText?_signed {sign : Option Char} (hsign : ∀ c ∈ sign, c = '+' ∨ c = '-')
    {digits : List Char} (hne : ∃ c ∈ digits.head?, isDigit c) :
    decimalText? (sign.toList ++ digits) = unsignedDecimal? (sign = some '-') digits := by
  cases sign with
  | none =>
      obtain ⟨c, hc, hdigit⟩ := hne
      obtain ⟨rest, rfl⟩ : ∃ rest, digits = c :: rest := List.head?_eq_some_iff.1 hc
      have hminus : c ≠ '-' := ne_of_isDigit hdigit rfl
      have hplus : c ≠ '+' := ne_of_isDigit hdigit rfl
      simp [decimalText?, hminus, hplus]
  | some c => rcases hsign c rfl with rfl | rfl <;> rfl

theorem exists_sign (text : List Char) :
    ∃ (sign : Option Char) (digits : List Char), (∀ c ∈ sign, c = '+' ∨ c = '-') ∧
      text = sign.toList ++ digits ∧
      decimalText? text = unsignedDecimal? (sign = some '-') digits := by
  unfold decimalText?
  split
  · exact ⟨some '-', _, by simp, rfl, rfl⟩
  · exact ⟨some '+', _, by simp, rfl, rfl⟩
  · exact ⟨none, text, by simp, rfl, rfl⟩

/-- A text is read as a decimal just when it is a numeral. -/
theorem decimalText?_eq_some_iff {text : List Char} {d : DecimalText} :
    decimalText? text = some d ↔
      ∃ numeral : Numeral, numeral.decimal = d ∧ IsUpToBreak numeral.write text := by
  constructor
  · intro h
    obtain ⟨sign, digits, hsign, rfl, hread⟩ := exists_sign text
    rw [hread] at h
    obtain ⟨hnegative, hwhole, hfraction, hform⟩ := of_unsignedDecimal? h
    refine ⟨⟨sign, hsign, d.whole, hwhole, d.fraction, hfraction⟩, ?_, ?_⟩
    · rw [Numeral.decimal, ← hnegative]
    · simpa [Numeral.write] using hform.append_left sign.toList
  · rintro ⟨⟨sign, hsign, whole, hwhole, fraction, hfraction⟩, rfl, hform⟩
    obtain ⟨ending, hend, rfl⟩ := isUpToBreak_iff.1 hform
    have hne : ∃ c ∈ (whole ++ (fractionText fraction ++ ending)).head?, isDigit c := by
      obtain ⟨c, rest, rfl⟩ := List.exists_cons_of_ne_nil hwhole.ne_nil
      exact ⟨c, rfl, hwhole.digits c List.mem_cons_self⟩
    rw [Numeral.write, List.append_assoc, List.append_assoc, decimalText?_signed hsign hne]
    exact unsignedDecimal?_append _ hwhole hfraction hend

theorem isDigits_of_decimalText? {text : List Char} {d : DecimalText}
    (h : decimalText? text = some d) : IsDigits d.whole ∧ d.whole.length ≤ text.length := by
  obtain ⟨numeral, rfl, hform⟩ := decimalText?_eq_some_iff.1 h
  obtain ⟨ending, -, rfl⟩ := isUpToBreak_iff.1 hform
  refine ⟨numeral.isWhole, ?_⟩
  simp only [Numeral.write, Numeral.decimal, List.length_append]
  omega

end SchemaReader.Reading

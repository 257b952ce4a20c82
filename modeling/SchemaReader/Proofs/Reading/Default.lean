import Mathlib.Data.List.Forall2
import SchemaReader.Proofs.Canonical.Tails

/-!
# Defaults between quotes

A default between quotes is kept as the text it stands for, unless the whole text is
a decimal numeral or the keyword for the current time.  One line break behind either
of these is overlooked.
-/

namespace SchemaReader.Text

theorem afterKeyword?_eq_some_iff {letters : Letters} {keyword text rest : List Char} :
    afterKeyword? letters keyword text = some rest ↔
      ∃ word, text = word ++ rest ∧ List.Forall₂ (letters.meets · ·) keyword word := by
  induction keyword generalizing text with
  | nil => simp [afterKeyword?]
  | cons k keyword ih =>
      constructor
      · intro h
        cases text with
        | nil => cases h
        | cons c text =>
            rw [afterKeyword?] at h
            split at h
            · rename_i hc
              obtain ⟨word, rfl, hword⟩ := ih.1 h
              exact ⟨c :: word, rfl, .cons hc hword⟩
            · cases h
      · rintro ⟨_, rfl, _ | ⟨hc, hword⟩⟩
        rw [List.cons_append, afterKeyword?, shown_char, if_pos hc]
        exact ih.2 ⟨_, rfl, hword⟩

theorem afterKeyword?_append {letters : Letters} {keyword word : List Char}
    (h : List.Forall₂ (letters.meets · ·) keyword word) (rest : List Char) :
    afterKeyword? letters keyword (word ++ rest) = some rest :=
  afterKeyword?_eq_some_iff.2 ⟨word, rfl, h⟩

theorem not_isDigit_of_meets {c : Char} (h : Letters.anyCase.meets 'C' c) : isDigit c = false := by
  have hupper : 'C' = c.toUpper := by simpa [Letters.meets, isVariantOf] using h
  unfold Char.toUpper at hupper
  split at hupper
  · rename_i hlower
    have hfirst : 97 ≤ c.toNat := UInt32.le_iff_toNat_le.1 hlower.1
    have hlast : c.toNat ≤ 122 := UInt32.le_iff_toNat_le.1 hlower.2
    have hascii : c.toNat < 128 := by omega
    have hnone : ¬ (48 ≤ c.toNat ∧ c.toNat ≤ 57) := by omega
    simp [isDigit, digitValue?, hascii, hnone]
  · rw [← hupper]
    rfl

end SchemaReader.Text

namespace SchemaReader.Reading

open SchemaReader.Canonical SchemaReader.Number SchemaReader.Scan SchemaReader.Schema
open SchemaReader.Text

def Numeral.value (numeral : Numeral) : DefaultValue := decimalValue numeral.decimal

/-- The keyword for the current time, in any case, perhaps with parentheses behind it that hold at
most a number and blanks around it. -/
inductive IsCurrentTime : List Char → Prop
  | plain {word : List Char}
      (hword : List.Forall₂ (Letters.anyCase.meets · ·) "CURRENT_TIMESTAMP".toList word) :
      IsCurrentTime word
  | called {word before digits behind : List Char}
      (hword : List.Forall₂ (Letters.anyCase.meets · ·) "CURRENT_TIMESTAMP".toList word)
      (hbefore : ∀ c ∈ before, isBlank c) (hdigits : ∀ c ∈ digits, isDigit c)
      (hbehind : ∀ c ∈ behind, isBlank c) :
      IsCurrentTime (word ++ '(' :: (before ++ digits ++ behind ++ [')']))

theorem exists_trimLeft (text : List Char) :
    ∃ blanks, text = blanks ++ trimLeft text ∧ ∀ c ∈ blanks, isBlank c :=
  ⟨text.takeWhile isBlank, List.takeWhile_append_dropWhile.symm,
    fun _ hc => List.mem_takeWhile_imp hc⟩

theorem not_isDigit_of_isBlank {c : Char} (h : isBlank c) : isDigit c = false := by
  by_contra hc
  rw [not_isBlank_of_isDigit (by simpa using hc)] at h
  cases h

theorem trimLeft_dropWhile_trimLeft {digits behind : List Char} (hdigits : ∀ c ∈ digits, isDigit c)
    (hbehind : ∀ c ∈ behind, isBlank c) (after : List Char) :
    trimLeft ((trimLeft (digits ++ (behind ++ ')' :: after))).dropWhile isDigit) =
      ')' :: after := by
  have hclose : trimLeft (behind ++ ')' :: after) = ')' :: after :=
    List.dropWhile_append_of_pos hbehind
  cases digits with
  | nil =>
      rw [List.nil_append, hclose]
      rfl
  | cons d digits =>
      have hstart : trimLeft (d :: digits ++ (behind ++ ')' :: after)) =
          d :: digits ++ (behind ++ ')' :: after) := by
        apply trimLeft_eq_self
        rintro c ⟨⟩
        exact not_isBlank_of_isDigit (hdigits d List.mem_cons_self)
      have hstop : ∀ c ∈ (behind ++ ')' :: after).head?, isDigit c = false := by
        cases behind with
        | nil =>
            rintro c ⟨⟩
            rfl
        | cons b behind =>
            rintro c ⟨⟩
            exact not_isDigit_of_isBlank (hbehind b List.mem_cons_self)
      rw [hstart, (span_append hdigits hstop).2, hclose]

theorem afterArgument?_eq_some_iff {text after : List Char} :
    afterArgument? text = some after ↔
      ∃ before digits behind, (∀ c ∈ before, isBlank c) ∧ (∀ c ∈ digits, isDigit c) ∧
        (∀ c ∈ behind, isBlank c) ∧
        text = '(' :: (before ++ (digits ++ (behind ++ ')' :: after))) := by
  constructor
  · intro h
    unfold afterArgument? at h
    split at h
    · rename_i rest
      split at h
      · rename_i hclose
        cases h
        obtain ⟨before, hrest, hbefore⟩ := exists_trimLeft rest
        obtain ⟨behind, hlater, hbehind⟩ := exists_trimLeft ((trimLeft rest).dropWhile isDigit)
        have hdigits := List.takeWhile_append_dropWhile (p := isDigit) (l := trimLeft rest)
        refine ⟨before, (trimLeft rest).takeWhile isDigit, behind, hbefore,
          fun c hc => List.mem_takeWhile_imp hc, hbehind, ?_⟩
        rw [← hclose, ← hlater, hdigits, ← hrest]
      · cases h
    · cases h
  · rintro ⟨before, digits, behind, hbefore, hdigits, hbehind, rfl⟩
    have hskip : trimLeft (before ++ (digits ++ (behind ++ ')' :: after))) =
        trimLeft (digits ++ (behind ++ ')' :: after)) := List.dropWhile_append_of_pos hbefore
    simp only [afterArgument?, hskip, trimLeft_dropWhile_trimLeft hdigits hbehind]

theorem isCurrentTimestamp_iff {text : List Char} :
    isCurrentTimestamp text ↔ ∃ form, IsCurrentTime form ∧ IsUpToBreak form text := by
  constructor
  · intro h
    unfold isCurrentTimestamp at h
    split at h
    · cases h
    · rename_i rest hrest
      obtain ⟨word, rfl, hword⟩ := afterKeyword?_eq_some_iff.1 hrest
      rw [Bool.or_eq_true, Option.any_eq_true] at h
      rcases h with hend | ⟨after, hafter, hend⟩
      · exact ⟨word, .plain hword, isUpToBreak_iff.2 ⟨rest, hend, rfl⟩⟩
      · obtain ⟨before, digits, behind, hbefore, hdigits, hbehind, rfl⟩ :=
          afterArgument?_eq_some_iff.1 hafter
        exact ⟨_, .called hword hbefore hdigits hbehind,
          isUpToBreak_iff.2 ⟨after, hend, by simp⟩⟩
  · rintro ⟨form, hform, hbreak⟩
    obtain ⟨ending, hend, rfl⟩ := isUpToBreak_iff.1 hbreak
    cases hform with
    | plain hword =>
        simp only [isCurrentTimestamp, afterKeyword?_append hword, hend, Bool.true_or]
    | @called word before digits behind hword hbefore hdigits hbehind =>
        have hargument : afterArgument? ('(' :: (before ++ digits ++ behind ++ [')']) ++ ending) =
            some ending :=
          afterArgument?_eq_some_iff.2
            ⟨before, digits, behind, hbefore, hdigits, hbehind, by simp⟩
        rw [List.append_assoc]
        simp only [isCurrentTimestamp, afterKeyword?_append hword, hargument, Option.any_some, hend,
          Bool.or_true]

theorem Numeral.head (numeral : Numeral) :
    ∃ c rest, numeral.write = c :: rest ∧ (c = '+' ∨ c = '-' ∨ isDigit c) := by
  obtain ⟨sign, hsign, whole, hwhole, fraction, -⟩ := numeral
  cases sign with
  | none =>
      obtain ⟨c, rest, rfl⟩ := List.exists_cons_of_ne_nil hwhole.ne_nil
      exact ⟨c, rest ++ fractionText fraction, rfl, .inr (.inr (hwhole.digits c (by simp)))⟩
  | some c => exact ⟨c, _, rfl, (hsign c rfl).imp_right .inl⟩

theorem IsCurrentTime.head {form : List Char} (h : IsCurrentTime form) :
    ∃ c rest, form = c :: rest ∧ Letters.anyCase.meets 'C' c := by
  have hhead : ∀ {word}, List.Forall₂ (Letters.anyCase.meets · ·) "CURRENT_TIMESTAMP".toList word →
      ∃ c rest, word = c :: rest ∧ Letters.anyCase.meets 'C' c := by
    intro word hword
    obtain ⟨c, rest, hc, -, rfl⟩ := List.forall₂_cons_left_iff.1 hword
    exact ⟨c, rest, rfl, hc⟩
  cases h with
  | plain hword => exact hhead hword
  | called hword _ _ _ =>
      obtain ⟨c, rest, rfl, hc⟩ := hhead hword
      exact ⟨c, _, rfl, hc⟩

theorem not_isCurrentTime_of_numeral {numeral : Numeral} {form text : List Char}
    (hnumeral : IsUpToBreak numeral.write text) (hform : IsUpToBreak form text) :
    ¬ IsCurrentTime form := by
  intro htime
  obtain ⟨c, rest, hwrite, hc⟩ := numeral.head
  obtain ⟨d, later, rfl, hd⟩ := htime.head
  obtain ⟨ending, -, rfl⟩ := isUpToBreak_iff.1 hform
  obtain ⟨ending', -, htext⟩ := isUpToBreak_iff.1 hnumeral
  rw [hwrite] at htext
  obtain rfl : d = c := (List.cons.inj htext).1
  rcases hc with rfl | rfl | hdigit
  · cases hd
  · cases hd
  · rw [not_isDigit_of_meets hd] at hdigit
    cases hdigit

theorem storedDefault_of_numeral {numeral : Numeral} {text : List Char}
    (h : IsUpToBreak numeral.write text) : storedDefault text = numeral.value := by
  have htime : isCurrentTimestamp text = false := by
    rw [Bool.eq_false_iff, Ne, isCurrentTimestamp_iff]
    rintro ⟨form, hform, hbreak⟩
    exact not_isCurrentTime_of_numeral h hbreak hform
  have hread := decimalText?_eq_some_iff.2 ⟨numeral, rfl, h⟩
  simp only [storedDefault, htime, hread]
  rfl

theorem storedDefault_of_currentTime {form text : List Char} (h : IsCurrentTime form)
    (hbreak : IsUpToBreak form text) : storedDefault text = .text "CURRENT_TIMESTAMP" := by
  rw [storedDefault, if_pos (isCurrentTimestamp_iff.2 ⟨form, h, hbreak⟩)]

theorem storedDefault_of_other {text : List Char}
    (hnumeral : ¬ ∃ numeral : Numeral, IsUpToBreak numeral.write text)
    (htime : ¬ ∃ form, IsCurrentTime form ∧ IsUpToBreak form text) :
    storedDefault text = .text (String.ofList text) := by
  have hnone : decimalText? text = none := by
    refine Option.eq_none_iff_forall_ne_some.2 fun d hd => ?_
    obtain ⟨numeral, -, hform⟩ := decimalText?_eq_some_iff.1 hd
    exact hnumeral ⟨numeral, hform⟩
  rw [storedDefault, if_neg (mt isCurrentTimestamp_iff.1 htime), hnone]
  rfl

theorem Numeral.value_ne_text (numeral : Numeral) (kept : String) : numeral.value ≠ .text kept := by
  rw [value, decimalValue]
  split <;> simp

/-- A default between quotes is a number just when the whole text is a numeral, and then it is the
number of that numeral.  It is the current time if the whole text is the keyword for it, and
otherwise the text itself.  One line break at the end does not count. -/
theorem readDefault_quoted (literal : Literal) (h : literal.text.length ≤ maxDigits) :
    ∃ value, readDefault (" DEFAULT ".toList ++ literal.write) = .ok (some value) ∧
      ((∀ kept, value ≠ .text kept) ↔
        ∃ numeral : Numeral, IsUpToBreak numeral.write literal.text) ∧
      (∀ numeral : Numeral, IsUpToBreak numeral.write literal.text → value = numeral.value) ∧
      (∀ form, IsCurrentTime form → IsUpToBreak form literal.text →
        value = .text "CURRENT_TIMESTAMP") ∧
      ((¬ ∃ numeral : Numeral, IsUpToBreak numeral.write literal.text) →
        (¬ ∃ form, IsCurrentTime form ∧ IsUpToBreak form literal.text) →
        value = .text (String.ofList literal.text)) := by
  refine ⟨storedDefault literal.text, ?_, ⟨fun hnumber => ?_, ?_⟩,
    fun numeral => storedDefault_of_numeral, fun form => storedDefault_of_currentTime,
    storedDefault_of_other⟩
  · have htail : " DEFAULT ".toList ++ literal.write =
        Mask.reveal (spaced [.word .default, .literal literal]) := by
      simp [spaced, Item.cells, Mask.reveal, ← Literal.reveal_cells, visible, Word.text]
    rw [htail]
    exact readDefault_items rfl h
  · by_contra hnumeral
    by_cases htime : ∃ form, IsCurrentTime form ∧ IsUpToBreak form literal.text
    · obtain ⟨form, hform, hbreak⟩ := htime
      exact hnumber _ (storedDefault_of_currentTime hform hbreak)
    · exact hnumber _ (storedDefault_of_other hnumeral htime)
  · rintro ⟨numeral, hnumeral⟩ kept
    rw [storedDefault_of_numeral hnumeral]
    exact numeral.value_ne_text kept

/-- The line break behind the digits does not count, and the digits may be those of any script. -/
theorem readDefault_quoted_line_break :
    readDefault " DEFAULT '-٣4\n'".toList = .ok (some (.integer (-34))) := by
  have hdigits : IsDigits ['٣', '4'] := ⟨by simp, List.all_eq_true.1 (by decide)⟩
  obtain ⟨value, hread, -, hnumeral, -⟩ :=
    readDefault_quoted ⟨.single, rfl, "-٣4\n".toList⟩ (by decide)
  obtain rfl := hnumeral ⟨some '-', by simp, ['٣', '4'], hdigits, none, by simp⟩ (.inr rfl)
  exact hread

end SchemaReader.Reading

import Mathlib.Algebra.Group.Nat.Defs
import Mathlib.Data.List.Basic
import Mathlib.Data.List.Induction
import Mathlib.Data.List.TakeWhile
import SchemaReader.Number.Numeral
import SchemaReader.Proofs.Fallible
import SchemaReader.Text.Character

/-!
# Reading decimal numerals

A numeral of `n` digits, of whatever script, is worth less than `10 ^ n`.  The
numerals that `Nat.toDigits` writes are read back, as far as the limit on their
length lets them be read at all.
-/

namespace SchemaReader.Number

open SchemaReader.Text

theorem digitValue?_lt {c : Char} {value : Nat} (h : digitValue? c = some value) :
    value < 10 := by
  simp only [digitValue?] at h
  split at h
  · split at h
    · rename_i hrange
      simp only [Option.some.injEq] at h
      simp only [Bool.and_eq_true, decide_eq_true_eq] at hrange
      omega
    · contradiction
  · obtain ⟨start, hstart, hvalue⟩ := Option.map_eq_some_iff.1 h
    have hrange := List.find?_some hstart
    simp only [Bool.and_eq_true, decide_eq_true_eq] at hrange
    omega

theorem digitValue?_getD_lt (c : Char) : (digitValue? c).getD 0 < 10 := by
  cases h : digitValue? c with
  | none => exact Nat.zero_lt_succ 9
  | some value => exact digitValue?_lt h

theorem digitValue?_of_isDigit {c : Char} (h : c.isDigit = true) :
    digitValue? c = some (c.toNat - '0'.toNat) := by
  obtain ⟨hlow, hhigh⟩ := Char.isDigit_iff_toNat.1 h
  have hascii : c.toNat < 128 := by
    have : '9'.toNat = 57 := rfl
    omega
  simp only [digitValue?, hascii, if_true]
  rw [if_pos]
  · rfl
  · simpa using ⟨hlow, hhigh⟩

def blankCodes : List Nat :=
  [9, 10, 11, 12, 13, 28, 29, 30, 31, 32, 0x85, 0xA0, 0x1680, 0x2000, 0x2001, 0x2002, 0x2003,
    0x2004, 0x2005, 0x2006, 0x2007, 0x2008, 0x2009, 0x200A, 0x2028, 0x2029, 0x202F, 0x205F, 0x3000]

theorem toNat_mem_blankCodes {c : Char} (h : isBlank c = true) : c.toNat ∈ blankCodes := by
  simp only [isBlank, Bool.or_eq_true, Bool.and_eq_true, decide_eq_true_eq, beq_iff_eq] at h
  simp only [blankCodes, List.mem_cons, List.not_mem_nil, or_false]
  omega

theorem ne_of_isDigit {c d : Char} (hc : isDigit c = true) (hd : isDigit d = false) : c ≠ d := by
  rintro rfl
  rw [hd] at hc
  contradiction

theorem not_isBlank_of_isDigit {c : Char} (h : isDigit c = true) : isBlank c = false := by
  have hnone : ∀ n ∈ blankCodes,
      (if n < 128 then if 48 ≤ n && n ≤ 57 then some (n - 48) else none
        else (zeroDigits.find? fun z => z ≤ n && n < z + 10).map (n - ·)) = none := by decide
  by_contra hblank
  rw [Bool.not_eq_false] at hblank
  have hvalue : digitValue? c = none := hnone c.toNat (toNat_mem_blankCodes hblank)
  rw [isDigit, hvalue] at h
  contradiction

theorem isDigit_of_isDigit {c : Char} (h : c.isDigit = true) : isDigit c = true := by
  rw [isDigit, digitValue?_of_isDigit h]
  rfl

theorem digitsValue_append_singleton (digits : List Char) (c : Char) :
    digitsValue (digits ++ [c]) = 10 * digitsValue digits + (digitValue? c).getD 0 := by
  simp [digitsValue]

theorem digitsValue_lt (digits : List Char) : digitsValue digits < 10 ^ digits.length := by
  induction digits using List.reverseRecOn with
  | nil => exact Nat.one_pos
  | append_singleton digits c ih =>
      have hc := digitValue?_getD_lt c
      rw [digitsValue_append_singleton, List.length_append, List.length_singleton, Nat.pow_succ]
      omega

theorem digitsValue_eq_ofDigitChars {digits : List Char}
    (h : ∀ c ∈ digits, c.isDigit = true) : digitsValue digits = Nat.ofDigitChars 10 digits 0 := by
  apply List.foldl_ext
  intro value c hc
  rw [digitValue?_of_isDigit (h c hc)]
  rfl

theorem readNatural_of_digits {text : List Char} (hne : text ≠ [])
    (hdigits : ∀ c ∈ text, isDigit c = true) (hlength : text.length ≤ maxDigits) :
    readNatural text = .ok (digitsValue text) := by
  unfold readNatural
  rw [List.takeWhile_eq_self_iff.2 hdigits, if_neg (by omega), if_neg (by simpa using hne)]

section Written

variable {n : Nat} {c : Char}

theorem isDigit_of_mem_toDigits (h : c ∈ Nat.toDigits 10 n) : isDigit c = true :=
  isDigit_of_isDigit (Nat.isDigit_of_mem_toDigits (by decide) (by decide) h)

theorem digitsValue_toDigits (n : Nat) : digitsValue (Nat.toDigits 10 n) = n := by
  have hascii : ∀ c ∈ Nat.toDigits 10 n, c.isDigit = true := fun c hc =>
    Nat.isDigit_of_mem_toDigits (by decide) (by decide) hc
  rw [digitsValue_eq_ofDigitChars hascii, Nat.ofDigitChars_ten_toDigits]

theorem takeWhile_toDigits_append (n : Nat) {rest : List Char}
    (hrest : ∀ c ∈ rest.head?, isDigit c = false) :
    (Nat.toDigits 10 n ++ rest).takeWhile isDigit = Nat.toDigits 10 n := by
  rw [List.takeWhile_append_of_pos fun c hc => isDigit_of_mem_toDigits hc]
  cases rest with
  | nil => simp
  | cons c rest => simp [hrest c rfl]

theorem dropWhile_toDigits_append (n : Nat) {rest : List Char}
    (hrest : ∀ c ∈ rest.head?, isDigit c = false) :
    (Nat.toDigits 10 n ++ rest).dropWhile isDigit = rest := by
  rw [List.dropWhile_append_of_pos fun c hc => isDigit_of_mem_toDigits hc]
  cases rest with
  | nil => rfl
  | cons c rest => simp [hrest c rfl]

theorem readNatural_toDigits (h : n < 10 ^ maxDigits) :
    readNatural (Nat.toDigits 10 n) = .ok n := by
  have hlength : (Nat.toDigits 10 n).length ≤ maxDigits :=
    (Nat.length_toDigits_le_iff (by decide) (by decide)).2 h
  have hne : Nat.toDigits 10 n ≠ [] := by simp
  rw [readNatural_of_digits hne (fun c => isDigit_of_mem_toDigits) hlength, digitsValue_toDigits]

theorem lt_of_readNatural {text : List Char} (h : readNatural text = .ok n) :
    n < 10 ^ maxDigits := by
  simp only [readNatural] at h
  split at h
  · contradiction
  · rename_i hlength
    split at h
    · contradiction
    · cases h
      calc digitsValue (text.takeWhile isDigit)
          < 10 ^ (text.takeWhile isDigit).length := digitsValue_lt _
        _ ≤ 10 ^ maxDigits := Nat.pow_le_pow_right (by decide) (by omega)

end Written

def NumeralFault.IsLong (fault : NumeralFault) : Prop :=
  ∃ digits, maxDigits < digits ∧ fault = .tooLong digits

theorem failsOnly_readNatural {text : List Char} (hne : text ≠ [])
    (hdigits : ∀ c ∈ text, isDigit c = true) :
    FailsOnly NumeralFault.IsLong (readNatural text) := by
  intro fault h
  have hall : text.takeWhile isDigit = text := List.takeWhile_eq_self_iff.2 hdigits
  have hsome : text.isEmpty = false := by simpa using hne
  simp only [readNatural, hall, hsome] at h
  split at h
  · rename_i hlong
    cases h
    exact ⟨_, hlong, rfl⟩
  · simp at h

end SchemaReader.Number

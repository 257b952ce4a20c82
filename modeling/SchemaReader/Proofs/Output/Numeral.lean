import Mathlib.Algebra.Order.Ring.Rat
import Mathlib.Data.List.Basic
import Mathlib.Data.List.TakeDrop
import Mathlib.Tactic.NormNum
import Mathlib.Tactic.Ring
import SchemaReader.Number.Shortest
import SchemaReader.Proofs.Output.Reader
import SchemaReader.Proofs.Text.Pieces

/-!
# Numerals of a JSON text

Integers and floating-point numbers are written as numerals that the reader takes
as a whole, and with the value they were written for.  A floating-point number
stands for its shortest decimal, wherever the point was put and whether or not
there is an exponent.
-/

namespace SchemaReader.Output.Datum

open SchemaReader.Number (Binary64)

def EndsNumber (rest : List Char) : Prop :=
  ∀ c ∈ rest.head?, c.isDigit = false ∧ c ≠ '.' ∧ c ≠ 'e' ∧ c ≠ 'E'

theorem digits?_append {digits rest : List Char} (h : ∀ c ∈ digits, c.isDigit) (hne : digits ≠ [])
    (hrest : ∀ c ∈ rest.head?, c.isDigit = false) :
    digits? (digits ++ rest) = some (digits, rest) := by
  obtain ⟨htake, hdrop⟩ := Text.span_append h hrest
  rw [digits?, List.span_eq_takeWhile_dropWhile, htake, hdrop]
  cases digits with
  | nil => exact absurd rfl hne
  | cons c digits => rfl

structure IsWhole (digits : List Char) : Prop where
  isDigit : ∀ c ∈ digits, c.isDigit
  ne_nil : digits ≠ []
  leads : digits.head? = some '0' → digits = ['0']

theorem whole?_append {digits rest : List Char} (h : IsWhole digits)
    (hrest : ∀ c ∈ rest.head?, c.isDigit = false) :
    whole? (digits ++ rest) = some (digits, rest) := by
  rw [whole?, digits?_append h.isDigit h.ne_nil hrest]
  split
  · rename_i heq
    cases heq
    exact absurd (h.leads rfl) (by simp)
  · rfl

theorem fraction?_none {rest : List Char} (hrest : rest.head? ≠ some '.') :
    fraction? rest = some ([], rest) := by
  unfold fraction?
  split
  · exact absurd rfl hrest
  · rfl

theorem exponent?_none {rest : List Char} (hrest : ∀ c ∈ rest.head?, c ≠ 'e' ∧ c ≠ 'E') :
    exponent? rest = some (0, rest) := by
  cases rest with
  | nil => rfl
  | cons c rest => exact if_neg (not_or.2 (hrest c rfl))

theorem exponent?_sign {sign : Char} {negative : Bool} {digits rest : List Char}
    (hsign : ∀ text, Number.splitSign (sign :: text) = (negative, text))
    (h : ∀ c ∈ digits, c.isDigit) (hne : digits ≠ []) (hrest : EndsNumber rest) :
    exponent? ('e' :: sign :: digits ++ rest) =
      some (if negative then -(Nat.ofDigitChars 10 digits 0 : Int)
        else Nat.ofDigitChars 10 digits 0, rest) := by
  have hread := digits?_append h hne fun c hc => (hrest c hc).1
  simp [exponent?, hsign, hread]

theorem isDigit_of_mem_zeros {count : Nat} {c : Char} (h : c ∈ List.replicate count '0') :
    c.isDigit := by
  rw [List.eq_of_mem_replicate h]
  rfl

theorem ofDigitChars_replicate_zero (count n : Nat) :
    Nat.ofDigitChars 10 (List.replicate count '0') n = n * 10 ^ count := by
  induction count generalizing n with
  | zero => simp
  | succ count ih =>
      rw [List.replicate_succ, Nat.ofDigitChars_cons, ih, Nat.pow_succ]
      simp only [Nat.sub_self, Nat.add_zero]
      ring

theorem ofDigitChars_zeros_append (count : Nat) (digits : List Char) :
    Nat.ofDigitChars 10 (List.replicate count '0' ++ digits) 0 = Nat.ofDigitChars 10 digits 0 := by
  rw [Nat.ofDigitChars_append, ofDigitChars_replicate_zero, Nat.zero_mul]

theorem ofDigitChars_append_zeros (count : Nat) (digits : List Char) :
    Nat.ofDigitChars 10 (digits ++ List.replicate count '0') 0 =
      Nat.ofDigitChars 10 digits 0 * 10 ^ count := by
  rw [Nat.ofDigitChars_append, ofDigitChars_replicate_zero]

theorem exponent?_exponentText (exponent : Int) {rest : List Char} (hrest : EndsNumber rest) :
    exponent? (Binary64.exponentText exponent ++ rest) = some (exponent, rest) := by
  have htext : (toString exponent.natAbs).toList = Nat.toDigits 10 exponent.natAbs :=
    Nat.toList_repr
  rw [Binary64.exponentText, htext]
  generalize hzeros : List.replicate (2 - (Nat.toDigits 10 exponent.natAbs).length) '0' = zeros
  have hdigits : ∀ c ∈ zeros ++ Nat.toDigits 10 exponent.natAbs, c.isDigit := by
    intro c hc
    rcases List.mem_append.1 hc with hc | hc
    · exact isDigit_of_mem_zeros (hzeros ▸ hc)
    · exact Nat.isDigit_of_mem_toDigits (by decide) (by decide) hc
  have hne : zeros ++ Nat.toDigits 10 exponent.natAbs ≠ [] := by simp
  have hvalue : Nat.ofDigitChars 10 (zeros ++ Nat.toDigits 10 exponent.natAbs) 0 =
      exponent.natAbs := by
    rw [← hzeros, ofDigitChars_zeros_append, Nat.ofDigitChars_ten_toDigits]
  by_cases hneg : exponent < 0
  · have hread := @exponent?_sign '-' true _ _ (fun _ => rfl) hdigits hne hrest
    have habs : -(exponent.natAbs : Int) = exponent := by omega
    rw [hvalue, if_pos rfl, habs] at hread
    simp only [if_pos hneg]
    exact hread
  · have hread := @exponent?_sign '+' false _ _ (fun _ => rfl) hdigits hne hrest
    have habs : (exponent.natAbs : Int) = exponent := by omega
    rw [hvalue, if_neg Bool.false_ne_true, habs] at hread
    simp only [if_neg hneg]
    exact hread

structure Numeral where
  whole : List Char
  fraction : List Char
  exponent : Option Int

namespace Numeral

def chars (numeral : Numeral) : List Char :=
  numeral.whole ++ ((if numeral.fraction = [] then [] else '.' :: numeral.fraction) ++
    numeral.exponent.elim [] Binary64.exponentText)

def value (numeral : Numeral) : ℚ :=
  Nat.ofDigitChars 10 (numeral.whole ++ numeral.fraction) 0 *
    (10 : ℚ) ^ (numeral.exponent.getD 0 - numeral.fraction.length)

structure Valid (numeral : Numeral) : Prop where
  whole : IsWhole numeral.whole
  fraction : ∀ c ∈ numeral.fraction, c.isDigit

theorem Valid.exists_cons {numeral : Numeral} (h : numeral.Valid) :
    ∃ c text, numeral.chars = c :: text ∧ c.isDigit := by
  obtain ⟨c, text, hwhole⟩ := List.exists_cons_of_ne_nil h.whole.ne_nil
  refine ⟨c, _, by rw [chars, hwhole, List.cons_append], h.whole.isDigit c ?_⟩
  rw [hwhole]
  exact List.mem_cons_self

end Numeral

theorem number?_chars {numeral : Numeral} (h : numeral.Valid) (negative : Bool) {rest : List Char}
    (hrest : EndsNumber rest) :
    number? negative (numeral.chars ++ rest) =
      some (.number (signed negative numeral.value), rest) := by
  have hexponent : exponent? (numeral.exponent.elim [] Binary64.exponentText ++ rest) =
      some (numeral.exponent.getD 0, rest) := by
    cases numeral.exponent with
    | none => exact exponent?_none fun c hc => (hrest c hc).2.2
    | some exponent => exact exponent?_exponentText exponent hrest
  have hhead : ∀ c ∈ (numeral.exponent.elim [] Binary64.exponentText ++ rest).head?,
      c.isDigit = false ∧ c ≠ '.' := by
    cases numeral.exponent with
    | none => exact fun c hc => ⟨(hrest c hc).1, (hrest c hc).2.1⟩
    | some exponent =>
        rintro c ⟨⟩
        decide
  unfold number?
  by_cases hfraction : numeral.fraction = []
  · have hwhole := whole?_append h.whole fun c hc => (hhead c hc).1
    have hnone := fraction?_none fun hdot => (hhead _ hdot).2 rfl
    simp [Numeral.chars, Numeral.value, hfraction, hwhole, hnone, hexponent]
  · have hread := digits?_append h.fraction hfraction fun c hc => (hhead c hc).1
    have hwhole := @whole?_append _ ('.' :: (numeral.fraction ++
      (numeral.exponent.elim [] Binary64.exponentText ++ rest))) h.whole (by simp)
    simp [Numeral.chars, Numeral.value, hfraction, hwhole, fraction?, hread, hexponent]

theorem isWhole_toDigits (n : Nat) : IsWhole (Nat.toDigits 10 n) where
  isDigit _ hc := Nat.isDigit_of_mem_toDigits (by decide) (by decide) hc
  ne_nil := by simp
  leads := by
    induction n using Nat.strongRecOn with
    | ind n ih =>
        rw [Nat.toDigits_eq_if (by decide)]
        split
        · intro hzero
          simpa using hzero
        · rename_i h
          have hpos : 0 < n / 10 := Nat.div_pos (Nat.not_lt.1 h) (by decide)
          have hlt : n / 10 < n := Nat.div_lt_self (by omega) (by decide)
          intro hzero
          rw [List.head?_append_of_ne_nil _ (by simp)] at hzero
          have hvalue : Nat.ofDigitChars 10 (Nat.toDigits 10 (n / 10)) 0 = n / 10 :=
            Nat.ofDigitChars_ten_toDigits
          rw [ih _ hlt hzero] at hvalue
          exact absurd hvalue (by simp [Nat.ofDigitChars]; omega)

theorem toList_toString (n : Int) :
    (toString n).toList = (if n < 0 then ['-'] else []) ++ Nat.toDigits 10 n.natAbs := by
  cases n with
  | ofNat n =>
      rw [if_neg (by simp)]
      simp [toString, Int.repr]
  | negSucc n =>
      rw [if_pos (by simp)]
      simp [toString, Int.repr]

/-- The numeral `0.digits * 10 ^ point`, as it is laid out. -/
def numeralOf (digits : List Char) (point : Int) : Numeral :=
  if point ≤ -4 ∨ 16 < point then ⟨digits.take 1, digits.drop 1, some (point - 1)⟩
  else if point ≤ 0 then ⟨['0'], List.replicate (-point).toNat '0' ++ digits, none⟩
  else if digits.length ≤ point.toNat then
    ⟨digits ++ List.replicate (point.toNat - digits.length) '0', ['0'], none⟩
  else ⟨digits.take point.toNat, digits.drop point.toNat, none⟩

theorem chars_numeralOf {digits : List Char} (hne : digits ≠ []) (point : Int) :
    (numeralOf digits point).chars = Binary64.decimalText digits point := by
  unfold numeralOf Binary64.decimalText
  simp only [Bool.or_eq_true, decide_eq_true_eq]
  split
  · match digits, hne with
    | [d], _ => rfl
    | d :: e :: rest, _ => simp [Numeral.chars]
  split
  · simp [Numeral.chars, hne]
  split
  · simp [Numeral.chars]
  · rename_i hlong
    simp [Numeral.chars, hlong]

theorem isWhole_take {digits : List Char} (h : ∀ c ∈ digits, c.isDigit)
    (hzero : digits.head? ≠ some '0') {count : Nat} (hcount : 0 < count) (hne : digits ≠ []) :
    IsWhole (digits.take count) where
  isDigit c hc := h c (List.mem_of_mem_take hc)
  ne_nil := by
    simp only [ne_eq, List.take_eq_nil_iff, not_or]
    exact ⟨hcount.ne', hne⟩
  leads hhead := by
    obtain ⟨count, rfl⟩ := Nat.exists_eq_succ_of_ne_zero hcount.ne'
    obtain ⟨d, rest, rfl⟩ := List.exists_cons_of_ne_nil hne
    exact absurd hhead hzero

theorem valid_numeralOf {digits : List Char} (h : ∀ c ∈ digits, c.isDigit) (hne : digits ≠ [])
    (hzero : digits.head? ≠ some '0') (point : Int) : (numeralOf digits point).Valid := by
  unfold numeralOf
  split
  · exact ⟨isWhole_take h hzero Nat.one_pos hne, fun c hc => h c (List.mem_of_mem_drop hc)⟩
  split
  · exact ⟨⟨by simp, by simp, fun _ => rfl⟩, fun c hc =>
      (List.mem_append.1 hc).elim isDigit_of_mem_zeros (h c)⟩
  split
  · refine ⟨⟨fun c hc => (List.mem_append.1 hc).elim (h c) isDigit_of_mem_zeros, by simp [hne],
      fun hc => ?_⟩, by simp⟩
    rw [List.head?_append_of_ne_nil _ hne] at hc
    exact absurd hc hzero
  · exact ⟨isWhole_take h hzero (by omega) hne, fun c hc => h c (List.mem_of_mem_drop hc)⟩

theorem value_numeralOf {digits : List Char} (hne : digits ≠ []) (point : Int) :
    (numeralOf digits point).value =
      Nat.ofDigitChars 10 digits 0 * (10 : ℚ) ^ (point - digits.length) := by
  unfold numeralOf
  split
  · obtain ⟨d, rest, rfl⟩ := List.exists_cons_of_ne_nil hne
    simp [Numeral.value, sub_sub, add_comm]
  split
  · have hvalue : Nat.ofDigitChars 10 (['0'] ++ (List.replicate (-point).toNat '0' ++ digits)) 0 =
        Nat.ofDigitChars 10 digits 0 := by
      rw [← List.append_assoc, ← List.replicate_one, List.replicate_append_replicate,
        ofDigitChars_zeros_append]
    have hlength : (0 : Int) - ((-point).toNat + digits.length : Nat) = point - digits.length := by
      omega
    simp only [Numeral.value, hvalue, Option.getD_none, List.length_append, List.length_replicate,
      hlength]
  split
  · have hvalue : Nat.ofDigitChars 10
        (digits ++ List.replicate (point.toNat - digits.length) '0' ++ ['0']) 0 =
        Nat.ofDigitChars 10 digits 0 * 10 ^ (point.toNat - digits.length + 1) := by
      rw [← List.replicate_one, List.append_assoc, List.replicate_append_replicate,
        ofDigitChars_append_zeros]
    have hexponent : point - digits.length =
        ((point.toNat - digits.length + 1 : Nat) : Int) - 1 := by omega
    simp only [Numeral.value, hvalue, hexponent, Option.getD_none, List.length_singleton,
      Nat.cast_mul, Nat.cast_pow, zpow_sub₀ (by norm_num : (10 : ℚ) ≠ 0), zpow_natCast]
    simp
    ring
  · have hlength : (0 : Int) - (digits.length - point.toNat : Nat) = point - digits.length := by
      omega
    simp only [Numeral.value, List.take_append_drop, Option.getD_none, List.length_drop, hlength]

theorem trimZeros_eq (digits : List Char) :
    digits = (Binary64.trimZeros digits).1 ++ List.replicate (Binary64.trimZeros digits).2 '0' := by
  have hsplit := List.takeWhile_append_dropWhile (p := (· == '0')) (l := digits.reverse)
  have hlength : (digits.reverse.takeWhile (· == '0')).length =
      digits.length - (digits.reverse.dropWhile (· == '0')).length := by
    have := congrArg List.length hsplit
    simp only [List.length_append, List.length_reverse] at this
    omega
  have hzeros : digits.reverse.takeWhile (· == '0') =
      List.replicate (digits.reverse.takeWhile (· == '0')).length '0' :=
    List.eq_replicate_of_mem fun c hc => by
      simpa using List.all_eq_true.1 List.all_takeWhile c hc
  rw [hlength] at hzeros
  rw [hzeros] at hsplit
  simpa [Binary64.trimZeros] using (congrArg List.reverse hsplit).symm

theorem digits_onGrid? {m : Nat} {e grid : Int} {d : Binary64.Decimal} (hm : m ≠ 0)
    (h : Binary64.onGrid? m e grid = some d) : d.digits ≠ 0 := by
  have hback : d.readsBack m e := by
    unfold Binary64.onGrid? at h
    dsimp only at h
    split at h
    · cases h
      assumption
    split at h
    · cases h
      assumption
    split at h
    · cases h
      assumption
    · cases h
  intro hzero
  simp only [Binary64.Decimal.readsBack, Binary64.ofDecimal, hzero, decide_true, Bool.true_or,
    if_true, beq_iff_eq, Binary64.finite.injEq] at hback
  exact hm hback.2.1.symm

theorem digits_shortestFrom {m : Nat} (hm : m ≠ 0) (e lead : Int) (left tried : Nat) :
    (Binary64.shortestFrom m e lead left tried).digits ≠ 0 := by
  induction left generalizing tried with
  | zero => exact hm
  | succ left ih =>
      rw [Binary64.shortestFrom]
      split
      · rename_i hgrid
        exact digits_onGrid? hm hgrid
      · exact ih _

theorem exists_numeral_decimal {n : Nat} (hn : n ≠ 0) (exponent : Int) {kept : List Char}
    {zeros : Nat} (h : Binary64.trimZeros (Nat.toDigits 10 n) = (kept, zeros)) :
    ∃ numeral : Numeral, numeral.Valid ∧
      numeral.chars = Binary64.decimalText kept (kept.length + zeros + exponent) ∧
      numeral.value = n * (10 : ℚ) ^ exponent := by
  have hdigits : Nat.toDigits 10 n = kept ++ List.replicate zeros '0' := by
    simpa [h] using trimZeros_eq (Nat.toDigits 10 n)
  have hvalue : n = Nat.ofDigitChars 10 kept 0 * 10 ^ zeros := by
    rw [← ofDigitChars_append_zeros, ← hdigits, Nat.ofDigitChars_ten_toDigits]
  have hne : kept ≠ [] := by
    rintro rfl
    exact hn (by simpa using hvalue)
  have hwhole := isWhole_toDigits n
  rw [hdigits] at hwhole
  refine ⟨_, valid_numeralOf (fun c hc => hwhole.isDigit c (List.mem_append_left _ hc)) hne ?_ _,
    chars_numeralOf hne _, ?_⟩
  · intro hhead
    have hzero := hwhole.leads (by rw [List.head?_append_of_ne_nil _ hne, hhead])
    refine hn (hvalue.trans ?_)
    rw [← ofDigitChars_append_zeros, hzero]
    rfl
  · have hexponent : (kept.length : Int) + zeros + exponent - kept.length = zeros + exponent := by
      omega
    have hcast : (n : ℚ) = Nat.ofDigitChars 10 kept 0 * 10 ^ zeros := by exact_mod_cast hvalue
    rw [value_numeralOf hne, hexponent, zpow_add₀ (by norm_num), zpow_natCast, hcast, mul_assoc]

/-- The shortest decimal that reads back as `m * 2 ^ e`. -/
def magnitude (m : Nat) (e : Int) : ℚ :=
  if m = 0 then 0 else (Binary64.shortest m e).digits * (10 : ℚ) ^ (Binary64.shortest m e).exponent

theorem exists_numeral_magnitude (m : Nat) (e : Int) :
    ∃ numeral : Numeral, numeral.Valid ∧ numeral.chars = Binary64.magnitudeText m e ∧
      numeral.value = magnitude m e := by
  unfold Binary64.magnitudeText magnitude
  by_cases hm : m = 0
  · rw [if_pos hm, if_pos hm]
    exact ⟨⟨['0'], ['0'], none⟩, ⟨⟨by simp, by simp, fun _ => rfl⟩, by simp⟩, rfl,
      by simp [Numeral.value, Nat.ofDigitChars]⟩
  · rw [if_neg hm, if_neg hm]
    have hpos : (Binary64.shortest m e).digits ≠ 0 := digits_shortestFrom hm _ _ _ _
    have htext : (toString (Binary64.shortest m e).digits).toList =
        Nat.toDigits 10 (Binary64.shortest m e).digits := Nat.toList_repr
    dsimp only
    rw [htext]
    exact exists_numeral_decimal hpos _ rfl

end SchemaReader.Output.Datum

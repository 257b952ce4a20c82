import SchemaReader.Proofs.Number.Numeral
import SchemaReader.Text.Character

/-!
# Word characters

The boundaries of a set of characters are searched by halving.  When they ascend, the
search finds how many of them lie at or below a code point, so the set has all that lie
between a boundary that starts a run and the next one.  No blank is a word character.
-/

namespace SchemaReader.Text

namespace Ranges

/-- Before `lo` the boundaries lie at or below `n`, and from `hi` on they lie above it. -/
structure Brackets (r : Ranges) (n lo hi : Nat) : Prop where
  le : lo ≤ hi
  within : hi ≤ r.bounds.size
  below : ∀ i (h : i < r.bounds.size), i < lo → r.bounds[i] ≤ n
  above : ∀ i (h : i < r.bounds.size), hi ≤ i → n < r.bounds[i]

def Ascending (r : Ranges) : Prop := r.bounds.toList.IsChain (· < ·)

instance (r : Ranges) : Decidable r.Ascending := inferInstanceAs (Decidable (List.IsChain _ _))

variable {r : Ranges} {n : Nat}

theorem Ascending.lt (h : r.Ascending) {i j : Nat} (hij : i < j) (hj : j < r.bounds.size) :
    r.bounds[i] < r.bounds[j] :=
  List.pairwise_iff_getElem.1 (List.isChain_iff_pairwise.1 h) i j _ _ hij

theorem Ascending.le (h : r.Ascending) {i j : Nat} (hij : i ≤ j) (hj : j < r.bounds.size) :
    r.bounds[i] ≤ r.bounds[j] := by
  rcases Nat.lt_or_eq_of_le hij with hlt | rfl
  · exact Nat.le_of_lt (h.lt hlt hj)
  · exact Nat.le_refl _

theorem Brackets.rankBetween (hr : r.Ascending) {steps lo hi : Nat} (h : r.Brackets n lo hi)
    (hsteps : hi - lo < 2 ^ steps) :
    r.Brackets n (r.rankBetween n steps lo hi) (r.rankBetween n steps lo hi) := by
  induction steps generalizing lo hi with
  | zero =>
      obtain rfl : lo = hi := by
        have := h.le
        omega
      exact h
  | succ steps ih =>
      rw [Nat.pow_succ] at hsteps
      rw [Ranges.rankBetween]
      by_cases hdone : hi ≤ lo
      · obtain rfl : lo = hi := Nat.le_antisymm h.le hdone
        rw [if_pos hdone]
        exact h
      · rw [if_neg hdone]
        have hmid : (lo + hi) / 2 < r.bounds.size := by
          have := h.within
          omega
        have hget : r.bounds.getD ((lo + hi) / 2) 0 = r.bounds[(lo + hi) / 2] := by
          simp [Array.getD, hmid]
        dsimp only
        rw [hget]
        by_cases hle : r.bounds[(lo + hi) / 2] ≤ n
        · rw [if_pos hle]
          refine ih ⟨by omega, h.within, ?_, h.above⟩ (by omega)
          intro i hi' hlt
          exact Nat.le_trans (hr.le (by omega) hmid) hle
        · rw [if_neg hle]
          refine ih ⟨by omega, by omega, h.below, ?_⟩ (by omega)
          intro i hi' hge
          exact Nat.lt_of_lt_of_le (Nat.lt_of_not_le hle) (hr.le hge hi')

theorem brackets_rank (hr : r.Ascending) (n : Nat) : r.Brackets n (r.rank n) (r.rank n) := by
  have hstart : r.Brackets n 0 r.bounds.size :=
    ⟨Nat.zero_le _, Nat.le_refl _, fun _ _ h => absurd h (Nat.not_lt_zero _),
      fun _ hi hge => absurd hi (Nat.not_lt_of_le hge)⟩
  exact hstart.rankBetween hr (by simpa using Nat.lt_log2_self)

theorem rank_of_between (hr : r.Ascending) {i : Nat} (h : i + 1 < r.bounds.size)
    (hstart : r.bounds[i] ≤ n) (hstop : n < r.bounds[i + 1]) : r.rank n = i + 1 := by
  have hrank := brackets_rank hr n
  have hbehind : i < r.rank n := by
    by_contra hge
    have habove := hrank.above i (by omega) (by omega)
    omega
  have hbefore : r.rank n ≤ i + 1 := by
    by_contra hlt
    have hbelow := hrank.below (i + 1) h (by omega)
    omega
  omega

def spans (first last : Nat) : List Nat → Bool
  | start :: stop :: rest => (Nat.ble start first && Nat.blt last stop) || spans first last rest
  | _ => false

theorem exists_of_spans {first last : Nat} {bounds : List Nat} (h : spans first last bounds) :
    ∃ i, ∃ hi : 2 * i + 1 < bounds.length, bounds[2 * i] ≤ first ∧ last < bounds[2 * i + 1] := by
  fun_induction spans first last bounds with
  | case1 start stop rest ih =>
      simp only [Bool.or_eq_true, Bool.and_eq_true, Nat.ble_eq, Nat.blt_eq] at h
      rcases h with hhere | hlater
      · exact ⟨0, by simp, hhere⟩
      · obtain ⟨i, hi, hbounds⟩ := ih hlater
        exact ⟨i + 1, by simp; omega, hbounds⟩
  | case2 => cases h

theorem contains_of_spans (hr : r.Ascending) {first last : Nat}
    (h : spans first last r.bounds.toList) {c : Char} (hfirst : first ≤ c.toNat)
    (hlast : c.toNat ≤ last) : r.contains c := by
  obtain ⟨i, hi, hstart, hstop⟩ := exists_of_spans h
  have hrank := rank_of_between hr hi (Nat.le_trans hstart hfirst) (Nat.lt_of_le_of_lt hlast hstop)
  rw [contains, hrank]
  simp

/-- Without its first boundary a set is turned inside out. -/
theorem not_contains_of_spans_tail (hr : r.Ascending) {first last : Nat}
    (h : spans first last r.bounds.toList.tail) {c : Char} (hfirst : first ≤ c.toNat)
    (hlast : c.toNat ≤ last) : r.contains c = false := by
  obtain ⟨i, hi, hstart, hstop⟩ := exists_of_spans h
  rw [List.length_tail] at hi
  rw [List.getElem_tail] at hstart hstop
  have hrank := rank_of_between hr (show 2 * i + 1 + 1 < r.bounds.size by simp at hi; omega)
    (Nat.le_trans hstart hfirst) (Nat.lt_of_le_of_lt hlast hstop)
  rw [contains, hrank]
  simp [show (2 * i + 1 + 1) % 2 = 0 by omega]

end Ranges

theorem ascending_wordRanges : wordRanges.Ascending := by
  decide +kernel

theorem not_isBlank_of_isWord {c : Char} (h : isWord c) : isBlank c = false := by
  have hnone : ∀ n ∈ Number.blankCodes, isWord (Char.ofNat n) = false := by decide +kernel
  by_contra hblank
  rw [Bool.not_eq_false] at hblank
  have hc := hnone c.toNat (Number.toNat_mem_blankCodes hblank)
  rw [Char.ofNat_toNat, h] at hc
  cases hc

end SchemaReader.Text

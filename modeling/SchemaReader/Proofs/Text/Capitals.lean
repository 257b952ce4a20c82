import SchemaReader.Proofs.Text.Case
import SchemaReader.Proofs.Text.Word
import SchemaReader.Text.Search

/-!
# Texts in capitals

As long as no letter grows, a text in capitals is the text with each character replaced
by its capital.  Blanks stay blanks, word characters stay word characters, and a capital
of ASCII is met by every character that it is the capital of.  So what keywords in
capitals find in the text in capitals, they find in the text itself when case does not
matter.
-/

namespace SchemaReader.Text

def capital (c : Char) : Char := if c.toNat < 128 then c.toUpper else shiftCase upperRuns c

theorem upperChar_of_length {c : Char} (h : (upperChar c).length = 1) :
    upperChar c = [capital c] := by
  have hgrow : ∀ expansion ∈ upperExpansions, expansion.2.length ≠ 1 := by decide +kernel
  unfold upperChar at h ⊢
  unfold capital
  split at h
  · rw [if_pos ‹_›, if_pos ‹_›]
  · rw [if_neg ‹_›, if_neg ‹_›]
    split at h
    · rename_i expansion hlookup
      have hmem := List.lookup_eq_some_iff.1 hlookup
      obtain ⟨before, after, hsplit, -⟩ := hmem
      rw [List.length_map] at h
      exact absurd h (hgrow (c.toNat, expansion) (by simp [hsplit]))
    · rfl

theorem upper_eq_map {text : List Char} (h : ∀ c ∈ text, (upperChar c).length = 1) :
    upper text = text.map capital := by
  induction text with
  | nil => rfl
  | cons c text ih =>
      rw [upper, List.flatMap_cons, upperChar_of_length (h c (by simp)), ← upper,
        ih fun d hd => h d (by simp [hd])]
      rfl

theorem capital_cases (c : Char) :
    (c.toNat < 128 ∧ capital c = c.toUpper) ∨ (128 ≤ c.toNat ∧ capital c = c) ∨
      (128 ≤ c.toNat ∧ ∃ run ∈ upperRuns, run.covers c.toNat ∧
        capital c = Char.ofNat (c.toNat + run.shift).toNat) := by
  unfold capital
  by_cases hascii : c.toNat < 128
  · exact .inl ⟨hascii, if_pos hascii⟩
  · rw [if_neg hascii]
    refine .inr ?_
    unfold shiftCase
    split
    · rename_i run hrun
      have hcovers := List.find?_some hrun
      exact .inr ⟨by omega, run, List.mem_of_find?_eq_some hrun, hcovers, rfl⟩
    · exact .inl ⟨by omega, rfl⟩

theorem isBlank_toUpper : ∀ n < 128,
    isBlank (Char.ofNat n).toUpper = isBlank (Char.ofNat n) := by
  decide +kernel

def CaseRun.avoids (run : CaseRun) (n : Nat) : Bool :=
  (Nat.blt n run.first || Nat.blt run.last n) &&
    (Nat.blt n (run.first + run.shift).toNat || Nat.blt (run.last + run.shift).toNat n)

theorem avoids_blanks : upperRuns.all fun run => Number.blankCodes.all run.avoids := by
  decide +kernel

theorem not_isBlank_of_covers {run : CaseRun} (hrun : run ∈ upperRuns) {c : Char}
    (hcovers : run.covers c.toNat) :
    isBlank c = false ∧ isBlank (Char.ofNat (c.toNat + run.shift).toNat) = false := by
  have havoids : ∀ d, isBlank d → run.avoids d.toNat := by
    intro d hblank
    exact List.all_eq_true.1 (List.all_eq_true.1 avoids_blanks run hrun) _
      (Number.toNat_mem_blankCodes hblank)
  simp only [CaseRun.avoids, Bool.and_eq_true, Bool.or_eq_true, Nat.blt_eq] at havoids
  simp only [CaseRun.covers, Bool.and_eq_true, beq_iff_eq, decide_eq_true_eq] at hcovers
  obtain ⟨⟨hfirst, hlast⟩, -⟩ := hcovers
  constructor
  · by_contra hblank
    have hc := havoids c (by simpa using hblank)
    omega
  · by_contra hblank
    have hmoved := havoids _ (by simpa using hblank)
    rcases toNat_ofNat_cases (c.toNat + run.shift).toNat with hvalue | hzero
    · omega
    · rw [hzero] at hblank
      exact hblank rfl

@[simp]
theorem isBlank_capital (c : Char) : isBlank (capital c) = isBlank c := by
  rcases capital_cases c with ⟨hascii, hc⟩ | ⟨-, hc⟩ | ⟨-, run, hrun, hcovers, hc⟩
  · have hupper := isBlank_toUpper c.toNat hascii
    rw [Char.ofNat_toNat] at hupper
    rw [hc, hupper]
  · rw [hc]
  · obtain ⟨hsource, htarget⟩ := not_isBlank_of_covers hrun hcovers
    rw [hc, hsource, htarget]

theorem isWord_toUpper : ∀ n < 128,
    isWord (Char.ofNat n) → isWord (Char.ofNat n).toUpper := by
  decide +kernel

def areWords (first last : Nat) : Bool :=
  Nat.ble 128 first && (Nat.blt last 0xD800 || (Nat.blt 0xDFFF first && Nat.blt last 0x110000)) &&
    Ranges.spans first last wordRanges.bounds.toList

def areNoWords (first last : Nat) : Bool :=
  Ranges.spans first last wordRanges.bounds.toList.tail

/-- The run leads to word characters only, or has none, or leads from each one to another. -/
def CaseRun.keepsWords (run : CaseRun) : Bool :=
  areWords (run.first + run.shift).toNat (run.last + run.shift).toNat ||
    areNoWords run.first run.last ||
    (List.range (run.last - run.first + 1)).all fun i =>
      let n := run.first + i
      let moved := (n + run.shift).toNat
      !run.covers n || areWords moved moved || areNoWords n n || isWord (Char.ofNat moved)

theorem keepsWords_upperRuns : upperRuns.all CaseRun.keepsWords := by
  decide +kernel

theorem isWord_of_areWords {first last n : Nat} (h : areWords first last) (hfirst : first ≤ n)
    (hlast : n ≤ last) : isWord (Char.ofNat n) := by
  simp only [areWords, Bool.and_eq_true, Bool.or_eq_true, Nat.ble_eq, Nat.blt_eq] at h
  obtain ⟨⟨hbeyond, hvalid⟩, hspans⟩ := h
  have hn : (Char.ofNat n).toNat = n := by
    have hchar : n.isValidChar := by
      unfold Nat.isValidChar
      omega
    have hvalue : Char.ofNat n = Char.ofNatAux n hchar := dif_pos hchar
    exact hvalue ▸ rfl
  rw [isWord, if_neg (by omega)]
  exact Ranges.contains_of_spans ascending_wordRanges hspans (by omega) (by omega)

theorem not_isWord_of_areNoWords {first last : Nat} {c : Char} (h : areNoWords first last)
    (hbeyond : 128 ≤ c.toNat) (hfirst : first ≤ c.toNat) (hlast : c.toNat ≤ last) :
    isWord c = false := by
  rw [isWord, if_neg (by omega)]
  exact Ranges.not_contains_of_spans_tail ascending_wordRanges h hfirst hlast

theorem isWord_capital {c : Char} (h : isWord c) : isWord (capital c) := by
  rcases capital_cases c with ⟨hascii, hc⟩ | ⟨-, hc⟩ | ⟨hbeyond, run, hrun, hcovers, hc⟩
  · have hupper := isWord_toUpper c.toNat hascii
    rw [Char.ofNat_toNat] at hupper
    rw [hc]
    exact hupper h
  · exact hc.symm ▸ h
  · have hkeeps := List.all_eq_true.1 keepsWords_upperRuns run hrun
    have hsource := hcovers
    simp only [CaseRun.covers, Bool.and_eq_true, beq_iff_eq, decide_eq_true_eq] at hsource
    obtain ⟨⟨hfirst, hlast⟩, -⟩ := hsource
    rw [hc]
    simp only [CaseRun.keepsWords, Bool.or_eq_true] at hkeeps
    have hnever : ∀ {first last : Nat}, areNoWords first last → first ≤ c.toNat →
        c.toNat ≤ last → False := by
      intro first last hnone hstart hstop
      rw [not_isWord_of_areNoWords hnone hbeyond hstart hstop] at h
      cases h
    rcases hkeeps with (hwords | hnone) | heach
    · exact isWord_of_areWords hwords (by omega) (by omega)
    · exact (hnever hnone hfirst hlast).elim
    · have hmoved := List.all_eq_true.1 heach (c.toNat - run.first) (by simp; omega)
      simp only [Nat.add_sub_cancel' hfirst, hcovers, Bool.not_true, Bool.false_or,
        Bool.or_eq_true] at hmoved
      rcases hmoved with (hwords | hnone) | hword
      · exact isWord_of_areWords hwords (Nat.le_refl _) (Nat.le_refl _)
      · exact (hnever hnone (Nat.le_refl _) (Nat.le_refl _)).elim
      · exact hword

theorem capital_ascii_of_run : ∀ run ∈ upperRuns, 128 ≤ run.first + run.shift ∨
    (run.first = 0x131 ∧ run.last = 0x131 ∧ run.shift = -232) ∨
      (run.first = 0x17F ∧ run.last = 0x17F ∧ run.shift = -300) := by
  decide +kernel

theorem meets_capital {c : Char} (hpos : 0 < (capital c).toNat) (h : (capital c).toNat < 128) :
    Letters.anyCase.meets (capital c) c := by
  rcases capital_cases c with ⟨-, hc⟩ | ⟨hbeyond, hc⟩ | ⟨hbeyond, run, hrun, hcovers, hc⟩
  · simp [hc, Letters.meets]
  · rw [hc] at h
    omega
  · simp only [CaseRun.covers, Bool.and_eq_true, beq_iff_eq, decide_eq_true_eq] at hcovers
    obtain ⟨⟨hfirst, hlast⟩, -⟩ := hcovers
    rw [hc] at h hpos ⊢
    rcases capital_ascii_of_run run hrun with hfar | ⟨hstart, hend, hshift⟩ |
      ⟨hstart, hend, hshift⟩
    · rcases toNat_ofNat_cases (c.toNat + run.shift).toNat with hvalue | hzero
      · omega
      · rw [hzero] at hpos
        cases hpos
    · have hdotless : c.toNat = 0x131 := by omega
      rw [hshift, hdotless]
      simp [Letters.meets, isVariantOf, hdotless]
    · have hlong : c.toNat = 0x17F := by omega
      rw [hshift, hlong]
      simp [Letters.meets, isVariantOf, hlong]

def isCapital (c : Char) : Bool := 65 ≤ c.toNat && c.toNat ≤ 90

theorem meets_of_capital_eq {k c : Char} (hk : isCapital k) (h : k = capital c) :
    Letters.anyCase.meets k c := by
  simp only [isCapital, Bool.and_eq_true, decide_eq_true_eq] at hk
  rw [h] at hk ⊢
  exact meets_capital (by omega) (by omega)

theorem afterKeyword?_capitals {keyword text rest : List Char} (hkeyword : keyword.all isCapital)
    (h : afterKeyword? .exact keyword (text.map capital) = some rest) :
    ∃ later, afterKeyword? .anyCase keyword text = some later ∧ rest = later.map capital := by
  induction keyword generalizing text with
  | nil =>
      cases h
      exact ⟨text, rfl, rfl⟩
  | cons k keyword ih =>
      rw [List.all_cons, Bool.and_eq_true] at hkeyword
      cases text with
      | nil => cases h
      | cons c text =>
          rw [List.map_cons, afterKeyword?] at h
          split at h
          · rename_i hk
            obtain ⟨later, hlater, hrest⟩ := ih hkeyword.2 h
            have hmeets := meets_of_capital_eq hkeyword.1 (by simpa [Letters.meets] using hk)
            exact ⟨later, by rw [afterKeyword?, shown_char, if_pos hmeets, hlater], hrest⟩
          · cases h

theorem dropBlanks_capitals (text : List Char) :
    dropBlanks (text.map capital) = (dropBlanks text).map capital := by
  have hblank : isBlankAt ∘ capital = (isBlankAt : Char → Bool) :=
    funext fun c => isBlank_capital c
  rw [dropBlanks, dropBlanks, List.dropWhile_map, hblank]

theorem afterBlanks?_capitals (text : List Char) :
    afterBlanks? (text.map capital) = (afterBlanks? text).map (List.map capital) := by
  cases text with
  | nil => rfl
  | cons c text =>
      have hblank : isBlankAt (capital c) = isBlankAt c := isBlank_capital c
      rw [List.map_cons, afterBlanks?, afterBlanks?, hblank, dropBlanks_capitals]
      split <;> rfl

theorem afterKeywords?_capitals {keywords : List String} {text rest : List Char}
    (hkeywords : keywords.all (·.toList.all isCapital))
    (h : afterKeywords? .exact keywords (text.map capital) = some rest) :
    ∃ later, afterKeywords? .anyCase keywords text = some later ∧ rest = later.map capital := by
  induction keywords generalizing text with
  | nil =>
      cases h
      exact ⟨text, rfl, rfl⟩
  | cons keyword keywords ih =>
      rw [List.all_cons, Bool.and_eq_true] at hkeywords
      cases keywords with
      | nil => exact afterKeyword?_capitals hkeywords.1 h
      | cons next keywords =>
          simp only [afterKeywords?, Option.bind_eq_some_iff] at h ⊢
          obtain ⟨_, hword, gap, hgap, hnext⟩ := h
          obtain ⟨first, hfirst, rfl⟩ := afterKeyword?_capitals hkeywords.1 hword
          rw [afterBlanks?_capitals, Option.map_eq_some_iff] at hgap
          obtain ⟨second, hsecond, rfl⟩ := hgap
          obtain ⟨later, hlater, hrest⟩ := ih hkeywords.2 hnext
          exact ⟨later, ⟨first, hfirst, second, hsecond, hlater⟩, hrest⟩

/-- A phrase in capitals that stands at the head of the text in capitals stands at the head of the
text when case does not matter. -/
theorem afterPhrase?_capitals {keywords : List String} {text : List Char}
    (hkeywords : keywords.all (·.toList.all isCapital))
    (h : (afterPhrase? .exact keywords (text.map capital)).isSome) :
    (afterPhrase? .anyCase keywords text).isSome := by
  obtain ⟨rest, hrest⟩ := Option.isSome_iff_exists.1 h
  obtain ⟨hwords, hend⟩ := Option.filter_eq_some_iff.1 hrest
  obtain ⟨later, hlater, rfl⟩ := afterKeywords?_capitals hkeywords hwords
  refine Option.isSome_iff_exists.2 ⟨later, Option.filter_eq_some_iff.2 ⟨hlater, ?_⟩⟩
  cases later with
  | nil => rfl
  | cons c later =>
      have hcapital : isWord (capital c) = false := by simpa [isBoundary, headShown] using hend
      have hword : isWord c = false := by
        rw [Bool.eq_false_iff]
        intro hc
        rw [isWord_capital hc] at hcapital
        cases hcapital
      simp [isBoundary, headShown, hword]

end SchemaReader.Text

import Mathlib.Data.List.TakeWhile
import SchemaReader.Text.Search

/-!
# Pieces of a text

Trimming takes blanks off both ends and changes nothing in between.  Cutting at
separators is the library's `List.splitOnP`, so the pieces of a joined text are
the texts that were joined, and no piece holds a separator.
-/

namespace SchemaReader.Text

structure Trimmed (text : List Char) : Prop where
  head : ∀ c ∈ text.head?, isBlank c = false
  last : ∀ c ∈ text.getLast?, isBlank c = false

theorem trimLeft_eq_self {text : List Char} (h : ∀ c ∈ text.head?, isBlank c = false) :
    trimLeft text = text := by
  cases text with
  | nil => rfl
  | cons c text => exact List.dropWhile_cons_of_neg (by simp [h c rfl])

theorem Trimmed.trim_eq {text : List Char} (h : Trimmed text) : trim text = text := by
  have hright : trimLeft text.reverse = text.reverse :=
    trimLeft_eq_self (by simpa [List.head?_reverse] using h.last)
  rw [trim, trimLeft_eq_self h.head, trimRight]
  exact (congrArg List.reverse hright).trans text.reverse_reverse

theorem head?_trimLeft (text : List Char) : ∀ c ∈ (trimLeft text).head?, isBlank c = false := by
  intro c hc
  have hnot := List.head?_dropWhile_not isBlank text
  rw [← trimLeft, Option.mem_def.1 hc] at hnot
  simpa using hnot

theorem prefix_trimRight (text : List Char) : trimRight text <+: text := by
  rw [trimRight, ← List.reverse_suffix, List.reverse_reverse]
  exact List.dropWhile_suffix _

theorem infix_trim (text : List Char) : trim text <:+: text :=
  (prefix_trimRight _).isInfix.trans (List.dropWhile_suffix _).isInfix

theorem exists_trim (text : List Char) :
    ∃ lead trail, text = lead ++ trim text ++ trail ∧ (∀ c ∈ lead, isBlank c) ∧
      ∀ c ∈ trail, isBlank c := by
  have hleft := List.takeWhile_append_dropWhile (p := isBlank) (l := text)
  have hright := List.takeWhile_append_dropWhile (p := isBlank) (l := (trimLeft text).reverse)
  refine ⟨text.takeWhile isBlank, ((trimLeft text).reverse.takeWhile isBlank).reverse, ?_, ?_, ?_⟩
  · rw [List.append_assoc, trim, trimRight, ← List.reverse_append, hright, List.reverse_reverse]
    exact hleft.symm
  · exact List.all_eq_true.1 List.all_takeWhile
  · exact fun c hc => List.all_eq_true.1 List.all_takeWhile c (List.mem_reverse.1 hc)

theorem trimmed_trim (text : List Char) : Trimmed (trim text) where
  head c hc := by
    obtain ⟨rest, hrest⟩ := prefix_trimRight (trimLeft text)
    apply head?_trimLeft text
    rw [← hrest, List.head?_append, ← trim, Option.mem_def.1 hc]
    rfl
  last c hc := by
    rw [trim, trimRight, List.getLast?_reverse] at hc
    exact head?_trimLeft _ c hc

theorem trim_eq_self_iff {text : List Char} : trim text = text ↔ Trimmed text :=
  ⟨fun h => h ▸ trimmed_trim text, Trimmed.trim_eq⟩

theorem forall_getLast?_append {P : Char → Prop} {first second : List Char}
    (hfirst : ∀ c ∈ first.getLast?, P c) (hsecond : ∀ c ∈ second.getLast?, P c) :
    ∀ c ∈ (first ++ second).getLast?, P c := by
  intro c hc
  rw [List.getLast?_append] at hc
  rcases Option.or_eq_some_iff.1 hc with hc | ⟨-, hc⟩
  · exact hsecond c hc
  · exact hfirst c hc

theorem Trimmed.append {first second : List Char} (h : Trimmed first) (hne : first ≠ [])
    (hsecond : ∀ c ∈ second.getLast?, isBlank c = false) : Trimmed (first ++ second) where
  head := by
    cases first with
    | nil => exact absurd rfl hne
    | cons c first => exact h.head
  last := forall_getLast?_append h.last hsecond

theorem trimmed_of_forall {text : List Char} (h : ∀ c ∈ text, isBlank c = false) :
    Trimmed text where
  head c hc := h c (List.mem_of_mem_head? hc)
  last c hc := h c (List.mem_of_getLast? hc)

theorem trimmed_of_ends {first last : Char} (middle : List Char) (hfirst : isBlank first = false)
    (hlast : isBlank last = false) : Trimmed (first :: middle ++ [last]) where
  head c hc := by
    obtain rfl : first = c := by simpa using hc
    exact hfirst
  last c hc := by
    rw [List.getLast?_append] at hc
    obtain rfl : last = c := by simpa using hc
    exact hlast

theorem Trimmed.trim_append {text : List Char} (h : Trimmed text) {lead : List Char}
    (hlead : ∀ c ∈ lead, isBlank c) : trim (lead ++ text) = text := by
  have hleft : trimLeft (lead ++ text) = trimLeft text :=
    List.dropWhile_append_of_pos hlead
  rw [trim, hleft]
  exact h.trim_eq

theorem Trimmed.trim_append_right {text : List Char} (h : Trimmed text) (hne : text ≠ [])
    (rest : List Char) : trim (text ++ rest) = text ++ trimRight rest := by
  have hhead : ∀ c ∈ (text ++ rest).head?, isBlank c = false := by
    cases text with
    | nil => exact absurd rfl hne
    | cons c text => exact h.head
  have hback : text.reverse.dropWhile isBlank = text.reverse :=
    trimLeft_eq_self (by simpa [List.head?_reverse] using h.last)
  rw [trim, trimLeft_eq_self hhead, trimRight, trimRight, List.reverse_append,
    List.dropWhile_append]
  split
  · rename_i hempty
    rw [hback, List.isEmpty_iff.1 hempty, List.reverse_reverse, List.reverse_nil, List.append_nil]
  · rw [List.reverse_append, List.reverse_reverse]

theorem Trimmed.trim_append_blanks {text blanks : List Char} (h : Trimmed text)
    (hblanks : ∀ c ∈ blanks, isBlank c) : trim (text ++ blanks) = text := by
  have hright : trimRight blanks = [] := by
    rw [trimRight, List.dropWhile_eq_nil_iff.2 (by simpa using hblanks), List.reverse_nil]
  cases text with
  | nil =>
      have hleft : trimLeft blanks = [] := List.dropWhile_eq_nil_iff.2 hblanks
      rw [List.nil_append, trim, hleft]
      rfl
  | cons c text => rw [h.trim_append_right (List.cons_ne_nil c text), hright, List.append_nil]

theorem span_append {p : Char → Bool} {text rest : List Char} (h : ∀ c ∈ text, p c)
    (hrest : ∀ c ∈ rest.head?, p c = false) :
    (text ++ rest).takeWhile p = text ∧ (text ++ rest).dropWhile p = rest := by
  have hstop : rest.takeWhile p = [] ∧ rest.dropWhile p = rest := by
    cases rest with
    | nil => exact ⟨rfl, rfl⟩
    | cons c rest => simp [hrest c (by simp)]
  rw [List.takeWhile_append_of_pos h, List.dropWhile_append_of_pos h, hstop.1, hstop.2]
  simp

theorem afterBlanks?_eq {α : Type} [Shown α] (text : List α) :
    afterBlanks? text = if (headShown text).any isBlank then some (dropBlanks text) else none := by
  cases text with
  | nil => rfl
  | cons x text =>
      change (if isBlankAt x then some (dropBlanks text) else none) =
        if isBlankAt x then some (dropBlanks (x :: text)) else none
      by_cases hx : isBlankAt x
      · rw [if_pos hx, if_pos hx, dropBlanks, dropBlanks, List.dropWhile_cons_of_pos hx]
      · rw [if_neg hx, if_neg hx]

theorem afterBlanks?_append {blanks rest : List Char} (hne : blanks ≠ [])
    (hblanks : ∀ c ∈ blanks, isBlank c) (hrest : ∀ c ∈ rest.head?, isBlank c = false) :
    afterBlanks? (blanks ++ rest) = some rest := by
  cases blanks with
  | nil => exact absurd rfl hne
  | cons c blanks =>
      have hc : isBlankAt c = true := hblanks c (by simp)
      have hothers : ∀ d ∈ blanks, isBlankAt d = true := fun d hd => hblanks d (by simp [hd])
      have hdrop : dropBlanks (blanks ++ rest) = rest := by
        rw [dropBlanks, List.dropWhile_append_of_pos hothers]
        cases rest with
        | nil => rfl
        | cons d rest => exact List.dropWhile_cons_of_neg (by simp [isBlankAt, hrest d rfl])
      rw [List.cons_append, afterBlanks?, if_pos hc, hdrop]

theorem exists_of_afterBlanks? {text rest : List Char} (h : afterBlanks? text = some rest) :
    ∃ blanks, text = blanks ++ rest ∧ blanks ≠ [] ∧ (∀ c ∈ blanks, isBlank c) ∧
      ∀ c ∈ rest.head?, isBlank c = false := by
  cases text with
  | nil => cases h
  | cons c text =>
      rw [afterBlanks?] at h
      split at h
      · rename_i hc
        cases h
        have hsplit := List.takeWhile_append_dropWhile (p := isBlank) (l := text)
        refine ⟨c :: text.takeWhile isBlank, ?_, List.cons_ne_nil _ _, ?_, ?_⟩
        · exact congrArg _ hsplit.symm
        · intro d hd
          rcases List.mem_cons.1 hd with rfl | hd
          · exact hc
          · exact List.all_eq_true.1 List.all_takeWhile d hd
        · intro d hd
          have hstop := List.head?_dropWhile_not isBlank text
          rw [show text.dropWhile isBlank = dropBlanks text from rfl, Option.mem_def.1 hd] at hstop
          simpa using hstop
      · cases h

section Cutting

variable {α : Type} (isSeparator : α → Bool)

theorem splitFrom_eq_splitOnPPrepend (out : List (List α)) (piece text : List α) :
    splitFrom isSeparator out piece text =
      out.reverse ++ text.splitOnPPrepend isSeparator piece := by
  induction text generalizing out piece with
  | nil => simp [splitFrom]
  | cons c text ih =>
      rw [splitFrom, List.splitOnPPrepend_cons_eq_if]
      split
      · rw [ih, ← List.splitOnP_eq_splitOnPPrepend]
        simp
      · exact ih out _

theorem splitAtChars_eq_splitOnP (text : List α) :
    splitAtChars isSeparator text = text.splitOnP isSeparator := by
  rw [splitAtChars, splitFrom_eq_splitOnPPrepend, List.splitOnP_eq_splitOnPPrepend]
  rfl

theorem of_mem_splitOnP {text piece : List α} (h : piece ∈ text.splitOnP isSeparator) :
    ∀ c ∈ piece, c ∈ text ∧ isSeparator c = false := by
  induction text generalizing piece with
  | nil =>
      rw [List.splitOnP_nil, List.mem_singleton] at h
      simp [h]
  | cons x text ih =>
      have hlater : ∀ rest ∈ text.splitOnP isSeparator, ∀ c ∈ rest,
          c ∈ x :: text ∧ isSeparator c = false := by
        intro rest hrest c hc
        exact ⟨List.mem_cons_of_mem _ (ih hrest c hc).1, (ih hrest c hc).2⟩
      rw [List.splitOnP_cons_eq_if_modifyHead] at h
      split at h
      · rcases List.mem_cons.1 h with rfl | h
        · simp
        · exact hlater piece h
      · rename_i hx
        obtain ⟨first, rest, hsplit⟩ :=
          List.exists_cons_of_ne_nil (List.splitOnP_ne_nil isSeparator text)
        rw [hsplit] at h hlater
        rcases List.mem_cons.1 h with rfl | h
        · intro c hc
          rcases List.mem_cons.1 hc with rfl | hc
          · exact ⟨List.mem_cons_self, by simpa using hx⟩
          · exact hlater first List.mem_cons_self c hc
        · exact hlater piece (List.mem_cons_of_mem _ h)

theorem splitOnP_intercalate {separator : α} (hseparator : isSeparator separator)
    {pieces : List (List α)} (hne : pieces ≠ [])
    (h : ∀ piece ∈ pieces, ∀ c ∈ piece, isSeparator c = false) :
    ([separator].intercalate pieces).splitOnP isSeparator = pieces := by
  induction pieces with
  | nil => exact absurd rfl hne
  | cons piece pieces ih =>
      have hpiece := h piece List.mem_cons_self
      by_cases hlast : pieces = []
      · rw [hlast, List.intercalate_singleton, List.splitOnP_eq_singleton hpiece]
      · have hpieces := ih hlast fun later hlater => h later (List.mem_cons_of_mem _ hlater)
        rw [List.intercalate_cons_of_ne_nil hlast, List.append_assoc, List.singleton_append,
          List.splitOnP_append_cons_of_forall_mem hpiece _ hseparator, hpieces]

end Cutting

end SchemaReader.Text

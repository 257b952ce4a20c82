import SchemaReader.Proofs.Identifier.Written
import SchemaReader.Proofs.Scan.Paren
import SchemaReader.Reading.Column

/-!
# The heads of columns

The head of a column is its name, its type and its tail, and these are the whole clause.
A type ends with its word or with the parenthesis that closes its length, and when it is
looked at again, on its own, the same word and the same length are found in it.
-/

namespace SchemaReader.Reading

open SchemaReader.Schema SchemaReader.Scan SchemaReader.Text

/-- A type as it is written: a word, and perhaps a length. -/
inductive TypeText : List Char → Prop where
  | word {word : List Char} (chars : ∀ c ∈ word, isTypeChar c) : TypeText word
  | withLength {word blanks inner : List Char} (chars : ∀ c ∈ word, isTypeChar c)
      (blank : ∀ c ∈ blanks, isBlank c)
      (closed : closing? ('(' :: inner ++ [')']) = some (inner.length + 1)) :
      TypeText (word ++ blanks ++ ('(' :: inner ++ [')']))

theorem splitType_append (text : List Char) : (splitType text).1 ++ (splitType text).2 = text := by
  have hword := List.takeWhile_append_dropWhile (p := isTypeChar) (l := text)
  have hblanks := List.takeWhile_append_dropWhile (p := isBlank) (l := text.dropWhile isTypeChar)
  simp only [splitType]
  split
  · rename_i close _
    rw [List.append_assoc, List.append_assoc, List.take_append_drop, hblanks, hword]
  · exact hword

theorem typeText_splitType (text : List Char) : TypeText (splitType text).1 := by
  have hchars : ∀ c ∈ text.takeWhile isTypeChar, isTypeChar c :=
    fun c hc => List.mem_takeWhile_imp hc
  simp only [splitType]
  split
  · rename_i close hclose
    obtain ⟨x, inner, y, htake, hopen, hclosed, rfl, hclosing⟩ := exists_of_closing? hclose
    obtain rfl : x = '(' := hopen
    obtain rfl : y = ')' := hclosed
    rw [htake]
    exact .withLength hchars (fun c hc => List.mem_takeWhile_imp hc) hclosing
  · exact .word hchars

def wordOf (type : List Char) : List Char := trim (type.take (type.idxOf '('))

def lengthOf (type : List Char) : List Char := (type.drop (type.idxOf '(' + 1)).dropLast

theorem isTypeChar_iff {c : Char} : isTypeChar c ↔ isBlank c = false ∧ c ≠ '(' := by
  simp [isTypeChar]

theorem not_mem_of_isTypeChar {word : List Char} (h : ∀ c ∈ word, isTypeChar c) : '(' ∉ word :=
  fun hmem => absurd (h '(' hmem) (by decide)

theorem not_mem_front {word blanks : List Char} (hword : ∀ c ∈ word, isTypeChar c)
    (hblanks : ∀ c ∈ blanks, isBlank c) : '(' ∉ word ++ blanks := by
  intro hmem
  rcases List.mem_append.1 hmem with hmem | hmem
  · exact not_mem_of_isTypeChar hword hmem
  · exact absurd (hblanks '(' hmem) (by decide)

theorem idxOf_paren {front : List Char} (h : '(' ∉ front) (rest : List Char) :
    (front ++ '(' :: rest).idxOf '(' = front.length := by
  rw [List.idxOf_append_of_notMem h, List.idxOf_cons_self, Nat.add_zero]

theorem trimmed_of_isTypeChar {word : List Char} (h : ∀ c ∈ word, isTypeChar c) : Trimmed word :=
  trimmed_of_forall fun c hc => (isTypeChar_iff.1 (h c hc)).1

theorem wordOf_of_isTypeChar {word : List Char} (h : ∀ c ∈ word, isTypeChar c) :
    wordOf word = word := by
  rw [wordOf, List.idxOf_eq_length (not_mem_of_isTypeChar h), List.take_length,
    (trimmed_of_isTypeChar h).trim_eq]

theorem wordOf_append {word blanks : List Char} (hword : ∀ c ∈ word, isTypeChar c)
    (hblanks : ∀ c ∈ blanks, isBlank c) (rest : List Char) :
    wordOf (word ++ blanks ++ '(' :: rest) = word := by
  rw [wordOf, idxOf_paren (not_mem_front hword hblanks), List.take_left,
    (trimmed_of_isTypeChar hword).trim_append_blanks hblanks]

theorem lengthOf_append {front : List Char} (h : '(' ∉ front) (inner : List Char) :
    lengthOf (front ++ ('(' :: inner ++ [')'])) = inner := by
  rw [lengthOf, List.cons_append, idxOf_paren h, List.drop_length_add_append]
  simp

theorem TypeText.matchingParen? {type : List Char} (h : TypeText type) (hopen : '(' ∈ type) :
    matchingParen? type (type.idxOf '(') = some (type.length - 1) := by
  cases h with
  | word hchars => exact absurd hopen (not_mem_of_isTypeChar hchars)
  | @withLength word blanks inner hchars hblank hclosed =>
      have hindex := idxOf_paren (not_mem_front hchars hblank) (inner ++ [')'])
      rw [List.cons_append, hindex, matchingParen?_natCast, List.drop_left, ← List.cons_append,
        hclosed]
      simp
      omega

theorem not_isTypeNameChar_of_isBlank {c : Char} (h : isBlank c) : isTypeNameChar c = false := by
  have hblanks : ∀ n ∈ Number.blankCodes, isTypeNameChar (Char.ofNat n) = false := by decide
  have hc := hblanks _ (Number.toNat_mem_blankCodes h)
  rwa [Char.ofNat_toNat] at hc

theorem ofToken_word_append {word rest : List Char} (hletter : word.head?.any Char.isAlpha)
    (hword : ∀ c ∈ word, isTypeNameChar c) (hrest : ∀ c ∈ rest.head?, isTypeNameChar c = false)
    (htrimmed : Trimmed (word ++ rest)) :
    (ColumnType.ofToken (word ++ rest)).name = String.ofList (upper word) ∧
      (ColumnType.ofToken (word ++ rest)).written = String.ofList (word ++ rest) ∧
      (ColumnType.ofToken (word ++ rest)).length =
        (lengthText? (trimLeft rest)).map String.ofList := by
  obtain ⟨htake, hdrop⟩ := span_append hword hrest
  have hhead : (word ++ rest).head?.any Char.isAlpha := by
    cases word with
    | nil => cases hletter
    | cons c word => exact hletter
  simp only [ColumnType.ofToken, htrimmed.trim_eq, if_pos hhead, htake, hdrop, true_and]

theorem TypeText.ofToken {type : List Char} (h : TypeText type)
    (hletter : (wordOf type).head?.any Char.isAlpha)
    (hchars : ∀ c ∈ wordOf type, isTypeNameChar c) :
    (ColumnType.ofToken type).name = String.ofList (upper (wordOf type)) ∧
      (ColumnType.ofToken type).written = String.ofList type ∧
      (ColumnType.ofToken type).length =
        if '(' ∈ type then some (String.ofList (trim (lengthOf type))) else none := by
  cases h with
  | word hword =>
      rw [wordOf_of_isTypeChar hword] at hletter hchars ⊢
      have hread :=
        ofToken_word_append hletter hchars (show ∀ c ∈ ([] : List Char).head?, _ by simp)
        (by simpa using trimmed_of_isTypeChar hword)
      rw [List.append_nil] at hread
      rw [if_neg (not_mem_of_isTypeChar hword)]
      exact hread
  | @withLength word blanks inner hword hblank hclosed =>
      rw [List.cons_append, wordOf_append hword hblank] at hletter hchars ⊢
      rw [← List.cons_append, lengthOf_append (not_mem_front hword hblank), if_pos (by simp)]
      have htrimLeft : trimLeft (blanks ++ ('(' :: inner ++ [')'])) = '(' :: inner ++ [')'] :=
        List.dropWhile_append_of_pos hblank
      have hinner : lengthText? ('(' :: inner ++ [')']) = some (trim inner) := by
        rw [lengthText?, parenthesised?, hclosed]
        simp
      have hrest : ∀ c ∈ (blanks ++ ('(' :: inner ++ [')'])).head?, isTypeNameChar c = false := by
        cases blanks with
        | nil =>
            rintro c ⟨⟩
            rfl
        | cons d blanks =>
            rintro c ⟨⟩
            exact not_isTypeNameChar_of_isBlank (hblank _ (by simp))
      have htrimmed : Trimmed (word ++ (blanks ++ ('(' :: inner ++ [')']))) := by
        refine (trimmed_of_isTypeChar hword).append ?_ ?_
        · rintro rfl
          cases hletter
        · intro c hc
          rw [← List.append_assoc, List.getLast?_concat] at hc
          cases hc
          rfl
      have hread := ofToken_word_append hletter hchars hrest htrimmed
      rw [htrimLeft, hinner, ← List.append_assoc] at hread
      exact hread

theorem head?_splitType (text : List Char) :
    ∀ c ∈ (splitType text).1.head?, text.head? = some c := by
  intro c hc
  rw [← splitType_append text, List.head?_append, Option.mem_def.1 hc]
  rfl

theorem splitType_ne_nil {c : Char} (h : isTypeChar c) (text : List Char) :
    (splitType (c :: text)).1 ≠ [] := by
  simp only [splitType, List.takeWhile_cons_of_pos h]
  split <;> simp

theorem ne_nil_of_trim_eq {clause name blanks text : List Char}
    (h : name ++ (blanks ++ text) = trim clause) (hne : blanks ≠ [])
    (hblanks : ∀ c ∈ blanks, isBlank c) : text ≠ [] := by
  rintro rfl
  obtain ⟨others, c, rfl⟩ := (List.eq_nil_or_concat blanks).resolve_left hne
  have hlast := (trimmed_trim clause).last c (by rw [← h]; simp)
  rw [hblanks c (by simp)] at hlast
  cases hlast

theorem columnHead?_of_name? {clause name rest text : List Char}
    (hname : Identifier.name? (trim clause) = some (name, rest))
    (htext : afterBlanks? rest = some text) :
    columnHead? clause = if text.head? = some '(' then none
      else some ⟨Identifier.unquote name, (splitType text).1, (splitType text).2⟩ := by
  have hsplit := Identifier.append_of_name? hname
  have hunquote := (Identifier.written_of_name? hname).unquote_ne_nil
  obtain ⟨blanks, rfl, hne, hblanks, hhead⟩ := exists_of_afterBlanks? htext
  simp only [columnHead?, hname, Option.bind_some, htext, List.isEmpty_eq_false_iff.2 hunquote,
    Bool.or_false]
  cases text with
  | nil => exact absurd rfl (ne_nil_of_trim_eq hsplit hne hblanks)
  | cons c text =>
      have htype := head?_splitType (c :: text)
      by_cases hc : c = '('
      · have hall : (splitType (c :: text)).1.head?.all (!isTypeChar ·) := by
          cases hfirst : (splitType (c :: text)).1.head? with
          | none => rfl
          | some d =>
              cases htype d hfirst
              rw [hc]
              rfl
        rw [if_pos hall, if_pos (by simp [hc])]
      · have hchar : isTypeChar c := isTypeChar_iff.2 ⟨hhead c rfl, hc⟩
        obtain ⟨d, type, htypeSplit⟩ := List.exists_cons_of_ne_nil (splitType_ne_nil hchar text)
        have hall : (splitType (c :: text)).1.head?.all (!isTypeChar ·) = false := by
          rw [htypeSplit] at htype ⊢
          cases htype d rfl
          simp [hchar]
        rw [if_neg (by simp [hall]), if_neg (by simpa using hc)]

/-- Name, blanks, type and tail are the whole clause.  The type is a word that a length may follow,
up to the parenthesis that closes it, and as a type of its own it has the same word and length. -/
theorem columnHead?_split {clause : List Char} {head : ColumnHead}
    (h : columnHead? clause = some head) :
    (∃ name blanks, trim clause = name ++ blanks ++ head.type ++ head.tail ∧
      Identifier.Written name ∧ Identifier.unquote name = head.name ∧ blanks ≠ [] ∧
      ∀ c ∈ blanks, isBlank c) ∧
    head.name ≠ [] ∧ head.type ≠ [] ∧ (∀ c ∈ head.type.head?, isBlank c = false ∧ c ≠ '(') ∧
    ('(' ∈ head.type →
      matchingParen? head.type (head.type.idxOf '(') = some (head.type.length - 1)) ∧
    ((wordOf head.type).head?.any Char.isAlpha → (∀ c ∈ wordOf head.type, isTypeNameChar c) →
      (ColumnType.ofToken head.type).name = String.ofList (upper (wordOf head.type)) ∧
      (ColumnType.ofToken head.type).written = String.ofList head.type ∧
      (ColumnType.ofToken head.type).length =
        if '(' ∈ head.type then some (String.ofList (trim (lengthOf head.type))) else none) := by
  have hread := h
  simp only [columnHead?, Option.bind_eq_some_iff] at hread
  obtain ⟨⟨name, rest⟩, hname, text, htext, -⟩ := hread
  have hsplit := Identifier.append_of_name? hname
  have hwritten := Identifier.written_of_name? hname
  rw [columnHead?_of_name? hname htext] at h
  obtain ⟨blanks, rfl, hne, hblanks, hhead⟩ := exists_of_afterBlanks? htext
  cases text with
  | nil => exact absurd rfl (ne_nil_of_trim_eq hsplit hne hblanks)
  | cons c text =>
      split at h
      · cases h
      · rename_i hparen
        cases h
        have hc : isBlank c = false ∧ c ≠ '(' := ⟨hhead c rfl, by simpa using hparen⟩
        have htype := typeText_splitType (c :: text)
        have hfirst : ∀ d ∈ (splitType (c :: text)).1.head?, isBlank d = false ∧ d ≠ '(' := by
          intro d hd
          cases head?_splitType (c :: text) d hd
          exact hc
        refine ⟨⟨name, blanks, ?_, hwritten, rfl, hne, hblanks⟩, hwritten.unquote_ne_nil,
          splitType_ne_nil (isTypeChar_iff.2 hc) text, hfirst, htype.matchingParen?, htype.ofToken⟩
        rw [← hsplit, List.append_assoc, List.append_assoc, splitType_append]

/-- A parenthesis in quotes closes no length. -/
theorem columnHead?_split_quoted_paren :
    columnHead? "`a b` ENUM (')', 'x') NOT NULL".toList =
      some ⟨"a b".toList, "ENUM (')', 'x')".toList, " NOT NULL".toList⟩ ∧
    matchingParen? "ENUM (')', 'x')".toList 5 = some 14 ∧
    (ColumnType.ofToken "ENUM (')', 'x')".toList).name = "ENUM" ∧
    (ColumnType.ofToken "ENUM (')', 'x')".toList).length = some "')', 'x'" := by
  have hhead : columnHead? "`a b` ENUM (')', 'x') NOT NULL".toList =
      some ⟨"a b".toList, "ENUM (')', 'x')".toList, " NOT NULL".toList⟩ := by decide
  obtain ⟨-, -, -, -, hparen, htype⟩ := columnHead?_split hhead
  obtain ⟨hname, -, hlength⟩ := htype (by decide) (List.all_eq_true.1 (by decide))
  exact ⟨hhead, hparen (by decide), hname.trans (by decide), hlength.trans (by decide)⟩

end SchemaReader.Reading

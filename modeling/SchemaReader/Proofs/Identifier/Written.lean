import SchemaReader.Identifier
import SchemaReader.Proofs.Text.Pieces
import SchemaReader.Proofs.Text.Word

/-!
# Names as they are written

A name is a text between delimiters, or a run of word characters and dollar signs.  It
is read back from the head of a text that goes on with anything else, and without its
delimiters it is never empty.
-/

namespace SchemaReader.Identifier

open SchemaReader.Text

section Readers

variable {α : Type} [Shown α]

theorem delimited?_of_closer? {x y : α} {content after : List α} {closer : Char}
    (hx : closer? (shown x) = some closer) (hcontent : ∀ z ∈ content, shown z ≠ closer)
    (hy : shown y = closer) :
    delimited? (x :: (content ++ y :: after)) =
      if content.isEmpty then none else some (x :: content ++ [y], after) := by
  have htake : (content ++ y :: after).takeWhile (shown · != closer) = content := by
    rw [List.takeWhile_append_of_pos (by simpa using hcontent)]
    simp [hy]
  have hdrop : (content ++ y :: after).dropWhile (shown · != closer) = y :: after := by
    rw [List.dropWhile_append_of_pos (by simpa using hcontent)]
    simp [hy]
  simp [delimited?, hx, htake, hdrop]

theorem delimited?_of_closer?_none {text : List α}
    (h : ∀ x ∈ text.head?, closer? (shown x) = none) : delimited? text = none := by
  cases text with
  | nil => rfl
  | cons x text => simp [delimited?, h x rfl]

theorem dotNames_of_some {text part rest : List α} (h : dotName? text = some (part, rest))
    (parts : List (List α)) : dotNames parts text = dotNames (part :: parts) rest := by
  rw [dotNames]
  split <;> simp_all

theorem dotNames_of_none {text : List α} (h : dotName? text = none) (parts : List (List α)) :
    dotNames parts text = (parts.reverse, text) := by
  rw [dotNames]
  split <;> simp_all

end Readers

theorem of_closer? {opener closer : Char} (h : closer? opener = some closer) :
    (opener = '`' ∧ closer = '`') ∨ (opener = '"' ∧ closer = '"') ∨
      (opener = '[' ∧ closer = ']') := by
  unfold closer? at h
  split at h
  · cases h
    exact .inl ⟨‹_›, rfl⟩
  · split at h
    · cases h
      exact .inr (.inl ⟨‹_›, rfl⟩)
    · split at h
      · cases h
        exact .inr (.inr ⟨‹_›, rfl⟩)
      · cases h

theorem plain_of_closer? {opener closer : Char} (h : closer? opener = some closer) :
    isBlank opener = false ∧ isBlank closer = false ∧ opener ≠ '.' ∧ closer ≠ '.' ∧
      isNameChar opener = false := by
  rcases of_closer? h with ⟨rfl, rfl⟩ | ⟨rfl, rfl⟩ | ⟨rfl, rfl⟩ <;>
    exact ⟨rfl, rfl, by decide, by decide, rfl⟩

theorem closer?_of_isBlank {c : Char} (h : isBlank c) : closer? c = none := by
  cases hcloser : closer? c with
  | none => rfl
  | some closer =>
      rw [(plain_of_closer? hcloser).1] at h
      cases h

theorem not_isBlank_of_isNameChar {c : Char} (h : isNameChar c) : isBlank c = false := by
  simp only [isNameChar, Bool.or_eq_true, beq_iff_eq] at h
  rcases h with hword | rfl
  · exact not_isBlank_of_isWord hword
  · rfl

theorem not_isNameChar_of_isBlank {c : Char} (h : isBlank c) : isNameChar c = false := by
  cases hname : isNameChar c with
  | false => rfl
  | true =>
      rw [not_isBlank_of_isNameChar hname] at h
      cases h

theorem closer?_of_isNameChar {c : Char} (h : isNameChar c) : closer? c = none := by
  cases hcloser : closer? c with
  | none => rfl
  | some closer =>
      rw [(plain_of_closer? hcloser).2.2.2.2] at h
      cases h

/-- A name with its delimiters, or without any. -/
inductive Written : List Char → Prop where
  | delimited {opener closer : Char} {content : List Char} (pair : closer? opener = some closer)
      (nonempty : content ≠ []) (free : closer ∉ content) : Written (opener :: content ++ [closer])
  | bare {name : List Char} (nonempty : name ≠ []) (chars : ∀ c ∈ name, isNameChar c) :
      Written name

theorem exists_of_delimited? {text name rest : List Char}
    (h : delimited? text = some (name, rest)) :
    ∃ opener closer content, closer? opener = some closer ∧ content ≠ [] ∧ closer ∉ content ∧
      name = opener :: content ++ [closer] := by
  unfold delimited? at h
  split at h
  · cases h
  · rename_i opener tail
    split at h
    · cases h
    · rename_i closer hcloser
      split at h
      · rename_i y after hdrop
        dsimp only at h
        split at h
        · cases h
        · rename_i hcontent
          cases h
          have hy : y = closer := by
            have hstop := List.head?_dropWhile_not (shown · != closer) tail
            rw [hdrop] at hstop
            simpa using hstop
          subst hy
          refine ⟨opener, y, _, hcloser, by simpa using hcontent, ?_, rfl⟩
          intro hmem
          simpa using List.mem_takeWhile_imp hmem
      · cases h

theorem delimited?_append {opener closer : Char} {content : List Char}
    (hpair : closer? opener = some closer) (hne : content ≠ []) (hfree : closer ∉ content)
    (rest : List Char) :
    delimited? (opener :: content ++ [closer] ++ rest) =
      some (opener :: content ++ [closer], rest) := by
  have hcontent : ∀ c ∈ content, shown c ≠ closer := by
    rintro c hc rfl
    exact hfree hc
  have hread : delimited? (opener :: (content ++ closer :: rest)) =
      some (opener :: content ++ [closer], rest) := by
    rw [delimited?_of_closer? hpair hcontent rfl, if_neg (by simpa using hne)]
  simpa using hread

theorem written_of_name? {text name rest : List Char} (h : name? text = some (name, rest)) :
    Written name := by
  simp only [name?, Option.or_eq_some_iff] at h
  rcases h with hdelimited | ⟨-, hbare⟩
  · obtain ⟨opener, closer, content, hpair, hne, hfree, rfl⟩ := exists_of_delimited? hdelimited
    exact .delimited hpair hne hfree
  · simp only [bare?] at hbare
    split at hbare
    · cases hbare
    · rename_i hname
      cases hbare
      exact .bare (by simpa using hname) fun c hc => List.mem_takeWhile_imp hc

namespace Written

variable {name : List Char}

theorem ne_nil (h : Written name) : name ≠ [] := by
  cases h with
  | delimited => exact List.cons_ne_nil _ _
  | bare hne => exact hne

theorem trimmed (h : Written name) : Trimmed name := by
  cases h with
  | delimited hpair =>
      obtain ⟨hopener, hcloser, -⟩ := plain_of_closer? hpair
      exact trimmed_of_ends _ hopener hcloser
  | bare _ hchars => exact trimmed_of_forall fun c hc => not_isBlank_of_isNameChar (hchars c hc)

end Written

theorem name?_append {name : List Char} (h : Written name) {rest : List Char}
    (hrest : ∀ c ∈ rest.head?, isNameChar c = false) :
    name? (name ++ rest) = some (name, rest) := by
  cases h with
  | delimited hpair hne hfree =>
      rw [name?, delimited?_append hpair hne hfree]
      rfl
  | bare hne hchars =>
      obtain ⟨htake, hdrop⟩ := span_append hchars hrest
      have hhead : delimited? (name ++ rest) = none := by
        refine delimited?_of_closer?_none fun c hc => closer?_of_isNameChar ?_
        cases name with
        | nil => exact absurd rfl hne
        | cons d name =>
            cases hc
            exact hchars _ (by simp)
      have hbare : bare? (name ++ rest) = some (name, rest) := by
        simp only [bare?, shown_char, htake, hdrop]
        rw [if_neg (by simpa using hne)]
      rw [name?, hhead, hbare]
      rfl

theorem unquote_delimited {opener closer : Char} (h : closer? opener = some closer)
    (content : List Char) : unquote (opener :: content ++ [closer]) = content := by
  obtain ⟨hopener, hcloser, -⟩ := plain_of_closer? h
  have hbetween : between? (opener :: content ++ [closer]) = some content := by
    rw [List.cons_append, between?]
    · simp [h]
    · simp
  rw [unquote, (trimmed_of_ends content hopener hcloser).trim_eq, hbetween]
  rfl

theorem unquote_bare {name : List Char} (h : ∀ c ∈ name, isNameChar c) : unquote name = name := by
  have htrim : trim name = name :=
    (trimmed_of_forall fun c hc => not_isBlank_of_isNameChar (h c hc)).trim_eq
  have hbetween : between? name = none := by
    match name with
    | [] => rfl
    | [_] => rfl
    | c :: d :: name =>
        have hc : closer? c = none := closer?_of_isNameChar (h c (by simp))
        simp [between?, hc, List.getLast?_cons]
  rw [unquote, htrim, hbetween]
  rfl

theorem Written.unquote_ne_nil {name : List Char} (h : Written name) : unquote name ≠ [] := by
  cases h with
  | delimited hpair hne =>
      rw [unquote_delimited hpair]
      exact hne
  | bare hne hchars =>
      rw [unquote_bare hchars]
      exact hne

theorem unquote_blanks_append {blanks name : List Char} (hblanks : ∀ c ∈ blanks, isBlank c)
    (hname : Trimmed name) : unquote (blanks ++ name) = unquote name := by
  rw [unquote, unquote, hname.trim_append hblanks, hname.trim_eq]

theorem infix_of_between? {text content : List Char} (h : between? text = some content) :
    content <:+: text := by
  unfold between? at h
  split at h
  · cases h
  · cases h
  · split at h
    · cases h
      exact (List.dropLast_prefix _).isInfix.trans (List.suffix_cons _ _).isInfix
    · cases h

theorem infix_unquote (text : List Char) : unquote text <:+: text := by
  simp only [unquote]
  cases hcontent : between? (trim text) with
  | none => exact infix_trim text
  | some content => exact (infix_of_between? hcontent).trans (infix_trim text)

end SchemaReader.Identifier

import Mathlib.Data.List.TakeWhile
import SchemaReader.Proofs.Reading.Locality
import SchemaReader.Proofs.Scan.Annotation

/-!
# Reading past the descriptions of tables

Outside quotes a description of a table looks like blanks before a line break.
So every reader of keywords, names and heads finds the same in a stripped script
and in the blanked one, up to the descriptions in what it has read.
-/

namespace SchemaReader.Scan.Comment

open SchemaReader.Reading SchemaReader.Text

/-- What marks the borders of words outside quotes and what is seen of sections. -/
def marks : List Char := [' ', '\n', '\'', '"', '`']

theorem forall_marks {P : Char → Prop} (hspace : P ' ') (hbreak : P '\n') (hsingle : P '\'')
    (hdouble : P '"') (hbacktick : P '`') : ∀ c ∈ marks, P c := by
  intro c hc
  simp only [marks, List.mem_cons, List.not_mem_nil, or_false] at hc
  rcases hc with rfl | rfl | rfl | rfl | rfl <;> assumption

theorem char_mem_marks (d : Delimiter) : d.char ∈ marks := by
  cases d <;> decide

theorem feed_outside_of_not_mem_marks {c : Char} (h : c ∉ marks) :
    Quote.outside.feed c = .outside := by
  rw [Quote.feed_outside]
  cases hquote : Delimiter.ofChar? c with
  | none => rfl
  | some d => exact absurd (Delimiter.ofChar?_eq_some.1 hquote ▸ char_mem_marks d) h

theorem not_mem_marks {p : Char → Bool} (hmarks : ∀ c ∈ marks, p c = false) {c : Char}
    (h : p c) : c ∉ marks := by
  intro hc
  rw [hmarks c hc] at h
  cases h

theorem section?_code (quote : Quote) (depth : Nat) :
    (Mode.code quote depth).section? = quote.section? := by
  cases quote <;> rfl

theorem shown_cellAt_outside (c : Char) : shown (cellAt .outside c) = c := by
  simp [cellAt, shown, Cell.shown, Quote.isQuoted]

/-- Outside quotes, `plain` is what `text` becomes without the descriptions in it. -/
def Annotated (text plain : List Cell) : Prop :=
  ∃ depth after, Passage (.code .outside depth) text plain after

inductive Met (p : Char → Bool) : List Cell → List Cell → Prop
  | nil : Met p [] []
  | cons {x : Cell} {text plain : List Cell} (h : p (shown x) = false) :
      Met p (x :: text) (x :: plain)

theorem eq_none_of_rel {β : Type} {R : β → β → Prop} {found : Option β}
    (h : Option.Rel R none found) : found = none := by
  cases h
  rfl

theorem exists_of_rel {β : Type} {R : β → β → Prop} {x : β} {found : Option β}
    (h : Option.Rel R (some x) found) : ∃ y, found = some y ∧ R x y := by
  cases h with
  | some hxy => exact ⟨_, rfl, hxy⟩

theorem rel_bind {β γ : Type} {R : β → β → Prop} {S : γ → γ → Prop} {found found' : Option β}
    {next : β → Option γ} (h : Option.Rel R found found')
    (hnext : ∀ {x y}, R x y → Option.Rel S (next x) (next y)) :
    Option.Rel S (found.bind next) (found'.bind next) := by
  cases h with
  | none => exact .none
  | some hxy => exact hnext hxy

theorem rel_or {β : Type} {R : β → β → Prop} {first first' second second' : Option β}
    (hfirst : Option.Rel R first first') (hsecond : Option.Rel R second second') :
    Option.Rel R (first.or second) (first'.or second') := by
  cases hfirst with
  | none => exact hsecond
  | some hxy => exact .some hxy

/-! ## Runs of characters -/

namespace Passage

variable {mode after : Mode} {quote : Quote} {depth : Nat} {text plain : List Cell}

/-- The two texts go on with the same character of code, or one with a blank and the other with a
line break. -/
theorem head_cases (h : Passage (.code quote depth) text plain after) :
    (∃ c text' plain', text = cellAt quote c :: text' ∧ plain = cellAt quote c :: plain' ∧
      Passage (.code (quote.feed c) (depthBehind quote depth c)) text' plain' after) ∨
    ((∀ x ∈ text.head?, shown x = ' ') ∧ ∀ x ∈ plain.head?, shown x = '\n') := by
  cases h with
  | nil => exact .inr ⟨by simp, by simp⟩
  | cell h => exact .inl ⟨_, _, _, rfl, rfl, h⟩
  | line hline h =>
      obtain ⟨tail, rfl⟩ := hline.dashes
      refine .inr ⟨?_, ?_⟩
      · rintro x ⟨⟩
        rfl
      · rintro x ⟨⟩
        rfl
  | last hline =>
      obtain ⟨tail, rfl⟩ := hline.dashes
      refine .inr ⟨?_, by simp⟩
      rintro x ⟨⟩
      rfl

theorem eq_nil (h : Passage mode text plain after) (htext : text = []) : plain = [] := by
  cases h with
  | nil => rfl
  | cell => cases htext
  | line => simp at htext
  | last => rfl

theorem eq_code {x : Cell} (h : Passage mode (x :: text) plain after) :
    ∃ quote depth, mode = .code quote depth := by
  generalize hrest : x :: text = rest at h
  cases h with
  | nil => cases hrest
  | _ => exact ⟨_, _, rfl⟩

theorem span {p : Char → Bool} (hspace : p ' ') (hbreak : p '\n')
    (h : Passage mode text plain after) :
    ∃ between,
      Passage mode (text.takeWhile (p <| shown ·)) (plain.takeWhile (p <| shown ·)) between ∧
      Passage between (text.dropWhile (p <| shown ·)) (plain.dropWhile (p <| shown ·)) after ∧
      Met p (text.dropWhile (p <| shown ·)) (plain.dropWhile (p <| shown ·)) ∧
      ((∀ d : Delimiter, p d.char = false) → mode.quote = .outside → between.quote = .outside) := by
  -- A description looks like blanks, so the run takes all of it and the line break behind it.
  have hhide : ∀ comment, ∀ x ∈ hide comment, p (shown x) := by
    intro comment x hx
    rwa [shown_hide hx]
  induction h with
  | @nil mode => exact ⟨mode, .nil, .nil, .nil, fun _ hquote => hquote⟩
  | @cell quote depth c text plain after h ih =>
      simp only [List.takeWhile_cons, List.dropWhile_cons]
      by_cases hc : p (shown (cellAt quote c))
      · obtain ⟨between, htake, hdrop, hmet, houtside⟩ := ih
        simp only [if_pos hc]
        refine ⟨between, .cell htake, hdrop, hmet, ?_⟩
        rintro hquotes ⟨⟩
        refine houtside hquotes ?_
        cases hquote : Delimiter.ofChar? c with
        | none => simp [Mode.quote, Quote.feed_outside, hquote]
        | some d =>
            rw [shown_cellAt_outside, Delimiter.ofChar?_eq_some.1 hquote, hquotes d] at hc
            cases hc
      · simp only [if_neg hc]
        exact ⟨.code quote depth, .nil, .cell h, .cons (by simpa using hc), fun _ hquote => hquote⟩
  | @line comment text plain after hline h ih =>
      obtain ⟨between, htake, hdrop, hmet, houtside⟩ := ih
      have hfeed : p (shown (⟨'\n', false⟩ : Cell)) := hbreak
      rw [List.takeWhile_append_of_pos (hhide comment),
        List.dropWhile_append_of_pos (hhide comment)]
      simp only [List.takeWhile_cons, List.dropWhile_cons, if_pos hfeed]
      exact ⟨between, .line hline htake, hdrop, hmet, houtside⟩
  | @last comment hline =>
      rw [List.takeWhile_eq_self_iff.2 (hhide comment), List.dropWhile_eq_nil_iff.2 (hhide comment)]
      exact ⟨_, .last hline, .nil, .nil, fun _ _ => rfl⟩

theorem of_cons {x : Cell} (h : Passage (.code quote depth) (x :: text) (x :: plain) after)
    (hx : shown x ≠ ' ') :
    ∃ c, x = cellAt quote c ∧
      Passage (.code (quote.feed c) (depthBehind quote depth c)) text plain after := by
  rcases h.head_cases with ⟨c, text', plain', htext, hplain, h⟩ | ⟨htext, -⟩
  · cases htext
    cases hplain
    exact ⟨c, rfl, h⟩
  · exact absurd (htext x rfl) hx

theorem dropBlanks (h : Passage (.code .outside depth) text plain after) :
    (Text.dropBlanks text = [] ∧ Text.dropBlanks plain = []) ∨
    ∃ depth' c text' plain', Text.dropBlanks text = ⟨c, false⟩ :: text' ∧
      Text.dropBlanks plain = ⟨c, false⟩ :: plain' ∧ isBlank c = false ∧
      Passage (.code .outside depth) (text.takeWhile isBlankAt) (plain.takeWhile isBlankAt)
        (.code .outside depth') ∧
      Passage (.code .outside depth') (⟨c, false⟩ :: text') (⟨c, false⟩ :: plain') after := by
  obtain ⟨between, htake, hdrop, hmet, houtside⟩ := h.span (p := isBlank) rfl rfl
  have hquote : between.quote = .outside := houtside (fun d => by cases d <;> rfl) rfl
  change Passage between (Text.dropBlanks text) (Text.dropBlanks plain) after at hdrop
  change Met isBlank (Text.dropBlanks text) (Text.dropBlanks plain) at hmet
  generalize Text.dropBlanks text = rest, Text.dropBlanks plain = rest' at hdrop hmet
  cases hmet with
  | nil => exact .inl ⟨rfl, rfl⟩
  | @cons x text' plain' hx =>
      obtain ⟨quote, depth', rfl⟩ := hdrop.eq_code
      obtain rfl : quote = .outside := hquote
      have hspace : shown x ≠ ' ' := by
        intro hx'
        rw [hx'] at hx
        cases hx
      obtain ⟨c, rfl, -⟩ := hdrop.of_cons hspace
      exact .inr ⟨depth', c, text', plain', rfl, rfl, hx, htake, hdrop⟩

theorem cons_of_not_mem {c : Char} (hc : c ∉ marks)
    (h : Passage (.code .outside (depthBehind .outside depth c)) text plain after) :
    Passage (.code .outside depth) (⟨c, false⟩ :: text) (⟨c, false⟩ :: plain) after := by
  change Passage _ (cellAt .outside c :: text) (cellAt .outside c :: plain) _
  refine .cell ?_
  rwa [feed_outside_of_not_mem_marks hc]

theorem of_cons_of_not_mem {c : Char} (hc : c ∉ marks)
    (h : Passage (.code .outside depth) (⟨c, false⟩ :: text) (⟨c, false⟩ :: plain) after) :
    Passage (.code .outside (depthBehind .outside depth c)) text plain after := by
  have hspace : c ≠ ' ' := by
    rintro rfl
    exact hc (by decide)
  obtain ⟨d, hd, hrest⟩ := h.of_cons hspace
  obtain rfl : c = d := congrArg Cell.char hd
  rwa [feed_outside_of_not_mem_marks hc] at hrest

theorem word {p : Char → Bool} (hmarks : ∀ c ∈ marks, p c = false)
    (h : Passage (.code .outside depth) text plain after) :
    ∃ taken depth', text.takeWhile (p <| shown ·) = taken ∧
      plain.takeWhile (p <| shown ·) = taken ∧
      Passage (.code .outside depth) taken taken (.code .outside depth') ∧
      Passage (.code .outside depth') (text.dropWhile (p <| shown ·))
        (plain.dropWhile (p <| shown ·)) after := by
  have hstop : ∀ rest : List Cell, (∀ x ∈ rest.head?, p (shown x) = false) →
      rest.takeWhile (p <| shown ·) = [] ∧ rest.dropWhile (p <| shown ·) = rest := by
    intro rest hrest
    cases rest with
    | nil => exact ⟨rfl, rfl⟩
    | cons x rest => simp [hrest x rfl]
  induction text generalizing plain depth with
  | nil =>
      obtain rfl := h.eq_nil rfl
      exact ⟨[], depth, rfl, rfl, .nil, h⟩
  | cons x text ih =>
      by_cases hx : p (shown x)
      · rcases h.head_cases with ⟨c, text', plain', htext, rfl, hrest⟩ | ⟨htext, -⟩
        · cases htext
          have hc := not_mem_marks hmarks hx
          rw [shown_cellAt_outside] at hc
          rw [feed_outside_of_not_mem_marks hc] at hrest
          obtain ⟨taken, depth', htake, htake', hpassage, hdrop⟩ := ih hrest
          simp only [List.takeWhile_cons, List.dropWhile_cons, if_pos hx, htake, htake']
          exact ⟨_, depth', rfl, rfl, hpassage.cons_of_not_mem hc, hdrop⟩
        · rw [htext x rfl, hmarks ' ' (by decide)] at hx
          cases hx
      · obtain ⟨htake, hdrop⟩ := hstop (x :: text) (by simpa using hx)
        obtain ⟨htake', hdrop'⟩ := hstop plain (by
          rcases h.head_cases with ⟨c, text', plain', htext, rfl, -⟩ | ⟨-, hplain⟩
          · cases htext
            simpa using hx
          · intro y hy
            rw [hplain y hy]
            exact hmarks '\n' (by decide))
        refine ⟨[], depth, htake, htake', .nil, ?_⟩
        rwa [hdrop, hdrop']

theorem quoted {d : Delimiter} (h : Passage mode text plain after)
    (hmode : mode.section? = some d) :
    (text = plain ∧ ∀ x ∈ text, shown x = ' ') ∨
    ∃ content depth' text' plain', text = content ++ ⟨d.char, false⟩ :: text' ∧
      plain = content ++ ⟨d.char, false⟩ :: plain' ∧ (∀ x ∈ content, shown x = ' ') ∧
      Passage mode (content ++ [⟨d.char, false⟩]) (content ++ [⟨d.char, false⟩])
        (.code .outside depth') ∧
      Passage (.code .outside depth') text' plain' after := by
  induction h with
  | nil => exact .inl ⟨rfl, by simp⟩
  | @cell quote depth c text plain after h ih =>
      rw [section?_code] at hmode ih
      rcases cellAt_cases quote c with
        ⟨rfl, -⟩ | ⟨d', rfl, -⟩ | ⟨d', hquote, hfeed, hcell⟩ | ⟨d', hquote, hfeed, rfl, hcell⟩
      · cases hmode
      · cases hmode
      · obtain rfl : d' = d := Option.some.inj (hquote.symm.trans hmode)
        have hhidden : shown (cellAt quote c) = ' ' := by
          rw [hcell]
          rfl
        rcases ih hfeed with ⟨rfl, htext⟩ | ⟨content, depth', text', plain', rfl, rfl, hcontent,
          hsection, hrest⟩
        · refine .inl ⟨rfl, ?_⟩
          simpa [hhidden] using htext
        · refine .inr ⟨cellAt quote c :: content, depth', text', plain', rfl, rfl, ?_,
            .cell hsection, hrest⟩
          simpa [hhidden] using hcontent
      · obtain rfl : d' = d := Option.some.inj (hquote.symm.trans hmode)
        refine .inr ⟨[], depthBehind quote depth d'.char, text, plain, ?_, ?_, by simp, ?_, ?_⟩
        · rw [hcell]
          rfl
        · rw [hcell]
          rfl
        · rw [List.nil_append, ← hcell]
          refine .cell ?_
          rw [hfeed]
          exact .nil
        · rwa [hfeed] at h
  | line => cases hmode
  | last => cases hmode

end Passage

/-! ## Blanks and keywords -/

theorem Passage.annotated {depth : Nat} {text plain : List Cell} {after : Mode}
    (h : Passage (.code .outside depth) text plain after) : Annotated text plain :=
  ⟨depth, after, h⟩

theorem Annotated.dropBlanks {text plain : List Cell} (h : Annotated text plain) :
    Annotated (Text.dropBlanks text) (Text.dropBlanks plain) ∧
      headShown (Text.dropBlanks text) = headShown (Text.dropBlanks plain) := by
  obtain ⟨depth, after, h⟩ := h
  rcases h.dropBlanks with ⟨htext, hplain⟩ | ⟨depth', c, text', plain', htext, hplain, -, -, h⟩
  · rw [htext, hplain]
    exact ⟨⟨depth, _, .nil⟩, rfl⟩
  · rw [htext, hplain]
    exact ⟨h.annotated, rfl⟩

theorem Annotated.any_isBlank {text plain : List Cell} (h : Annotated text plain)
    (hplain : plain ≠ []) : (headShown text).any isBlank = (headShown plain).any isBlank := by
  obtain ⟨depth, after, h⟩ := h
  rcases h.head_cases with ⟨c, text', plain', rfl, rfl, -⟩ | ⟨htext, hbreak⟩
  · rfl
  · cases text with
    | nil => exact absurd (h.eq_nil rfl) hplain
    | cons x text =>
        cases plain with
        | nil => exact absurd rfl hplain
        | cons y plain =>
            simp only [headShown, List.head?_cons, Option.map_some, htext x rfl, hbreak y rfl]
            rfl

theorem Annotated.bind_afterBlanks? {β : Type} {R : β → β → Prop} {reader : List Cell → Option β}
    (hnil : reader [] = none)
    (hreader : ∀ {text plain : List Cell}, Annotated text plain →
      Option.Rel R (reader text) (reader plain)) {text plain : List Cell}
    (h : Annotated text plain) :
    Option.Rel R ((Text.afterBlanks? text).bind reader)
      ((Text.afterBlanks? plain).bind reader) := by
  obtain ⟨hrest, hhead⟩ := h.dropBlanks
  rw [Text.afterBlanks?_eq, Text.afterBlanks?_eq]
  by_cases hplain : Text.dropBlanks plain = []
  · have htext : Text.dropBlanks text = [] := by
      rw [hplain] at hhead
      simpa [headShown] using hhead
    rw [htext, hplain]
    split <;> split <;> simp [hnil]
  · have hne : plain ≠ [] := by
      rintro rfl
      exact hplain rfl
    rw [h.any_isBlank hne]
    split
    · exact hreader hrest
    · exact .none

def isSpelled (keyword : String) : Bool :=
  !keyword.toList.isEmpty &&
    keyword.toList.all fun k => marks.all fun c => !Letters.anyCase.meets k c

theorem Annotated.afterKeyword? {keyword : List Char}
    (hkeyword : keyword.all fun k => marks.all fun c => !Letters.anyCase.meets k c)
    {text plain : List Cell} (h : Annotated text plain) :
    Option.Rel Annotated (Text.afterKeyword? .anyCase keyword text)
      (Text.afterKeyword? .anyCase keyword plain) := by
  induction keyword generalizing text plain with
  | nil => exact .some h
  | cons k keyword ih =>
      rw [List.all_cons, Bool.and_eq_true] at hkeyword
      have hmarks : ∀ c ∈ marks, Letters.anyCase.meets k c = false := by
        intro c hc
        simpa using List.all_eq_true.1 hkeyword.1 c hc
      obtain ⟨depth, after, h⟩ := h
      rcases h.head_cases with ⟨c, text', plain', rfl, rfl, hrest⟩ | ⟨htext, hplain⟩
      · simp only [Text.afterKeyword?, shown_cellAt_outside]
        split
        · rename_i hc
          rw [feed_outside_of_not_mem_marks (not_mem_marks hmarks hc)] at hrest
          exact ih hkeyword.2 hrest.annotated
        · exact .none
      · have hstop : ∀ rest : List Cell,
            (∀ x ∈ rest.head?, Letters.anyCase.meets k (shown x) = false) →
            Text.afterKeyword? .anyCase (k :: keyword) rest = none := by
          intro rest hrest
          cases rest with
          | nil => rfl
          | cons x rest => simp [Text.afterKeyword?, hrest x rfl]
        rw [hstop text, hstop plain]
        · exact .none
        · intro x hx
          rw [hplain x hx]
          exact hmarks '\n' (by decide)
        · intro x hx
          rw [htext x hx]
          exact hmarks ' ' (by decide)

theorem afterKeywords?_nil {keyword : String} (h : isSpelled keyword) (keywords : List String) :
    Text.afterKeywords? (α := Cell) .anyCase (keyword :: keywords) [] = none := by
  obtain ⟨k, rest, hkeyword⟩ : ∃ k rest, keyword.toList = k :: rest := by
    cases hlist : keyword.toList with
    | nil => simp [isSpelled, hlist] at h
    | cons k rest => exact ⟨k, rest, rfl⟩
  cases keywords <;> simp [Text.afterKeywords?, hkeyword, Text.afterKeyword?]

theorem Annotated.afterKeywords? {keywords : List String} (hkeywords : keywords.all isSpelled)
    {text plain : List Cell} (h : Annotated text plain) :
    Option.Rel Annotated (Text.afterKeywords? .anyCase keywords text)
      (Text.afterKeywords? .anyCase keywords plain) := by
  induction keywords generalizing text plain with
  | nil => exact .some h
  | cons keyword keywords ih =>
      rw [List.all_cons, Bool.and_eq_true] at hkeywords
      have hkeyword := h.afterKeyword? (Bool.and_eq_true_iff.1 hkeywords.1).2
      cases keywords with
      | nil => exact hkeyword
      | cons next keywords =>
          have hnext : isSpelled next := List.all_eq_true.1 hkeywords.2 next List.mem_cons_self
          refine rel_bind hkeyword fun hrest => ?_
          exact hrest.bind_afterBlanks? (afterKeywords?_nil hnext keywords) (ih hkeywords.2)

/-! ## Names -/

def Parted (depth : Nat) (read plain : List Cell × List Cell) : Prop :=
  ∃ between after, Passage (.code .outside depth) read.1 plain.1 (.code .outside between) ∧
    Passage (.code .outside between) read.2 plain.2 after

theorem closer?_eq_some {c closer : Char} (h : Identifier.closer? c = some closer) :
    (∃ d : Delimiter, c = d.char ∧ closer = d.char) ∨ (c = '[' ∧ closer = ']') := by
  unfold Identifier.closer? at h
  split at h
  · rename_i hc
    cases h
    exact .inl ⟨.backtick, hc, rfl⟩
  · split at h
    · rename_i hc
      cases h
      exact .inl ⟨.double, hc, rfl⟩
    · split at h
      · rename_i hc
        cases h
        exact .inr ⟨hc, rfl⟩
      · cases h

theorem delimited?_of_unclosed {x : Cell} {text : List Cell} {closer : Char}
    (hx : Identifier.closer? (shown x) = some closer)
    (h : text.dropWhile (shown · != closer) = []) : Identifier.delimited? (x :: text) = none := by
  simp [Identifier.delimited?, hx, h]

theorem delimited?_of_dropWhile {x y : Cell} {text rest : List Cell} {closer : Char}
    (hx : Identifier.closer? (shown x) = some closer)
    (h : text.dropWhile (shown · != closer) = y :: rest) :
    Identifier.delimited? (x :: text) =
      if text.takeWhile (shown · != closer) = [] then none
      else some (x :: text.takeWhile (shown · != closer) ++ [y], rest) := by
  simp [Identifier.delimited?, hx, h]

namespace Passage

variable {after : Mode} {depth : Nat} {text plain : List Cell}

private theorem delimited?_quoted {d : Delimiter}
    (hd : Identifier.closer? d.char = some d.char)
    (h : Passage (.code (.inside d) (depthBehind .outside depth d.char)) text plain after) :
    Option.Rel (Parted depth) (Identifier.delimited? (⟨d.char, false⟩ :: text))
      (Identifier.delimited? (⟨d.char, false⟩ :: plain)) := by
  have hne : ∀ {rest : List Cell}, (∀ x ∈ rest, shown x = ' ') → ∀ x ∈ rest, shown x ≠ d.char := by
    intro rest hrest x hx
    rw [hrest x hx]
    cases d <;> decide
  have hshown : Identifier.closer? (shown (⟨d.char, false⟩ : Cell)) = some d.char := hd
  rcases h.quoted rfl with ⟨rfl, htext⟩ |
    ⟨content, depth', text', plain', rfl, rfl, hcontent, hsection, hrest⟩
  · rw [delimited?_of_unclosed hshown (List.dropWhile_eq_nil_iff.2 (by simpa using hne htext))]
    exact .none
  · rw [Identifier.delimited?_of_closer? hshown (hne hcontent) rfl,
      Identifier.delimited?_of_closer? hshown (hne hcontent) rfl]
    split
    · exact .none
    · refine .some ⟨depth', after, ?_, hrest⟩
      have hopen : Quote.outside.feed d.char = .inside d := Quote.feed_delimiter d
      change Passage _ (cellAt .outside d.char :: (content ++ _))
        (cellAt .outside d.char :: (content ++ _)) _
      refine .cell ?_
      rwa [hopen]

private theorem delimited?_bracketed
    (h : Passage (.code .outside (depthBehind .outside depth '[')) text plain after) :
    Option.Rel (Parted depth) (Identifier.delimited? (⟨'[', false⟩ :: text))
      (Identifier.delimited? (⟨'[', false⟩ :: plain)) := by
  have hshown : Identifier.closer? (shown (⟨'[', false⟩ : Cell)) = some ']' := rfl
  obtain ⟨between, htake, hdrop, hmet, -⟩ := h.span (p := (· != ']')) rfl rfl
  generalize hrest : text.dropWhile (shown · != ']') = rest,
    hrest' : plain.dropWhile (shown · != ']') = rest' at hdrop hmet
  cases hmet with
  | nil =>
      rw [delimited?_of_unclosed hshown hrest, delimited?_of_unclosed hshown hrest']
      exact .none
  | @cons x text' plain' hx =>
      have hclose : shown x = ']' := by simpa using hx
      obtain ⟨quote, depth', rfl⟩ := hdrop.eq_code
      obtain ⟨c, rfl, hnext⟩ := hdrop.of_cons (by rw [hclose]; decide)
      obtain ⟨rfl, rfl⟩ := outside_of_shown hclose rfl (by decide)
      have hbracket : ∀ {content plain : List Cell} {mode : Mode},
          Passage (.code .outside (depthBehind .outside depth '[')) content plain mode →
          Passage (.code .outside depth) (⟨'[', false⟩ :: content) (⟨'[', false⟩ :: plain) mode :=
        fun hpassage => hpassage.cons_of_not_mem (by decide)
      rw [delimited?_of_dropWhile hshown hrest, delimited?_of_dropWhile hshown hrest']
      simp only [htake.eq_nil_iff]
      split
      · exact .none
      · exact .some ⟨_, after, hbracket (htake.append (.cell .nil)), hnext⟩

theorem delimited? (h : Passage (.code .outside depth) text plain after) :
    Option.Rel (Parted depth) (Identifier.delimited? text) (Identifier.delimited? plain) := by
  rcases h.head_cases with ⟨c, text', plain', rfl, rfl, hrest⟩ | ⟨htext, hplain⟩
  · cases hcloser : Identifier.closer? c with
    | none =>
        have hnone : ∀ rest, Identifier.delimited? (cellAt .outside c :: rest) = none := by
          intro rest
          apply Identifier.delimited?_of_closer?_none
          rintro x ⟨⟩
          rwa [shown_cellAt_outside]
        rw [hnone, hnone]
        exact .none
    | some closer =>
        rcases closer?_eq_some hcloser with ⟨d, rfl, rfl⟩ | ⟨rfl, rfl⟩
        · rw [Quote.feed_delimiter] at hrest
          exact delimited?_quoted hcloser hrest
        · exact delimited?_bracketed hrest
  · rw [Identifier.delimited?_of_closer?_none, Identifier.delimited?_of_closer?_none]
    · exact .none
    · intro x hx
      rw [hplain x hx]
      rfl
    · intro x hx
      rw [htext x hx]
      rfl

theorem bare? (h : Passage (.code .outside depth) text plain after) :
    Option.Rel (Parted depth) (Identifier.bare? text) (Identifier.bare? plain) := by
  have hmarks : ∀ c ∈ marks, Identifier.isNameChar c = false :=
    forall_marks rfl rfl rfl rfl rfl
  obtain ⟨taken, depth', htake, htake', hpassage, hrest⟩ := h.word hmarks
  simp only [Identifier.bare?, htake, htake']
  split
  · exact .none
  · exact .some ⟨depth', after, hpassage, hrest⟩

theorem name? (h : Passage (.code .outside depth) text plain after) :
    Option.Rel (Parted depth) (Identifier.name? text) (Identifier.name? plain) :=
  rel_or h.delimited? h.bare?

theorem dotName? (h : Passage (.code .outside depth) text plain after) :
    Option.Rel (Parted depth) (Identifier.dotName? text) (Identifier.dotName? plain) := by
  have hmark : '.' ∉ marks := by decide
  unfold Identifier.dotName?
  rcases h.dropBlanks with ⟨htext, hplain⟩ |
    ⟨depth', c, text', plain', htext, hplain, -, hblanks, hrest⟩
  · rw [htext, hplain]
    exact .none
  · rw [htext, hplain]
    by_cases hdot : c = '.'
    · subst hdot
      have hshown : shown (⟨'.', false⟩ : Cell) = '.' := rfl
      simp only [hshown, if_true]
      rcases (hrest.of_cons_of_not_mem hmark).dropBlanks with ⟨htext', hplain'⟩ |
        ⟨depth'', c, text'', plain'', htext', hplain', -, hblanks', hrest'⟩
      · rw [htext', hplain']
        exact .none
      · have hname := hrest'.name?
        rw [← htext', ← hplain'] at hname
        generalize Identifier.name? (Text.dropBlanks text') = found,
          Identifier.name? (Text.dropBlanks plain') = found' at hname
        cases hname with
        | none => exact .none
        | some hparted =>
            obtain ⟨between, after, hname, hafter⟩ := hparted
            have hdotted := (hblanks'.cons_of_not_mem hmark).append hname
            refine .some ⟨between, after, ?_, hafter⟩
            simpa using hblanks.append hdotted
    · have hshown : shown (⟨c, false⟩ : Cell) ≠ '.' := hdot
      simp only [if_neg hshown]
      exact .none

theorem dotNames (h : Passage (.code .outside depth) text plain after) {start : Mode}
    {parts parts' : List (List Cell)}
    (hparts : Passage start parts.reverse.flatten parts'.reverse.flatten (.code .outside depth)) :
    ∃ between after,
      Passage start (Identifier.dotNames parts text).1.flatten
        (Identifier.dotNames parts' plain).1.flatten (.code .outside between) ∧
      Passage (.code .outside between) (Identifier.dotNames parts text).2
        (Identifier.dotNames parts' plain).2 after := by
  -- Each dotted name takes something off both texts.
  induction hlength : text.length using Nat.strongRecOn
    generalizing depth text plain parts parts' after with
  | ind length ih =>
      have hdot := h.dotName?
      cases hfound : Identifier.dotName? text with
      | none =>
          rw [hfound] at hdot
          rw [Identifier.dotNames_of_none hfound, Identifier.dotNames_of_none (eq_none_of_rel hdot)]
          exact ⟨depth, after, hparts, h⟩
      | some found =>
          rw [hfound] at hdot
          obtain ⟨⟨part', rest'⟩, hfound', between, after, hpart, hrest⟩ := exists_of_rel hdot
          rw [Identifier.dotNames_of_some hfound, Identifier.dotNames_of_some hfound']
          have hshorter := hlength ▸ Identifier.length_lt_of_dotName? hfound
          refine ih _ hshorter hrest ?_ rfl
          simpa using hparts.append hpart

theorem qualified? (h : Passage (.code .outside depth) text plain after) :
    Option.Rel (Parted depth) (Identifier.qualified? text) (Identifier.qualified? plain) := by
  have hname := h.name?
  unfold Identifier.qualified?
  generalize Identifier.name? text = found, Identifier.name? plain = found' at hname
  cases hname with
  | none => exact .none
  | some hparted =>
      obtain ⟨between, after, hname, hrest⟩ := hparted
      have hstart : Passage (.code .outside between) [].reverse.flatten [].reverse.flatten
          (.code .outside between) := .nil
      obtain ⟨stop, after, hparts, hrest⟩ := hrest.dotNames hstart
      exact .some ⟨stop, after, hname.append hparts, hrest⟩

end Passage

def Headed (head plain : TableHead) : Prop :=
  ∃ start between depth after,
    Passage (.code .outside start) head.name plain.name (.code .outside between) ∧
    Passage (.code .outside depth) head.body plain.body after

namespace Annotated

variable {text plain : List Cell}

theorem namedTable? (h : Annotated text plain) :
    Option.Rel Headed (Reading.namedTable? text) (Reading.namedTable? plain) := by
  obtain ⟨start, after, h⟩ := h
  refine rel_bind h.qualified? ?_
  rintro ⟨name, rest⟩ ⟨name', rest'⟩ ⟨between, after, hname, hrest⟩
  obtain ⟨⟨depth, after, hbody⟩, hhead⟩ := hrest.annotated.dropBlanks
  dsimp only
  rw [hhead]
  split
  · exact .some ⟨start, between, depth, after, hname, hbody⟩
  · exact .none

theorem namedBehindIfNotExists? (h : Annotated text plain) :
    Option.Rel Headed ((afterIfNotExists? text).bind Reading.namedTable?)
      ((afterIfNotExists? plain).bind Reading.namedTable?) := by
  unfold afterIfNotExists?
  rw [Option.bind_assoc, Option.bind_assoc]
  refine rel_bind (h.afterKeywords? (by decide)) fun h => ?_
  exact h.bind_afterBlanks? rfl namedTable?

theorem tableHead? (h : Annotated text plain) :
    Option.Rel Headed (Reading.tableHead? text) (Reading.tableHead? plain) := by
  refine rel_bind (h.afterKeywords? (by decide)) fun h => ?_
  exact h.bind_afterBlanks? rfl fun h => rel_or h.namedBehindIfNotExists? h.namedTable?

end Annotated

end SchemaReader.Scan.Comment

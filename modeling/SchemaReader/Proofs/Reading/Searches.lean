import SchemaReader.Proofs.Reading.Annotation

/-!
# Searches past the descriptions of tables

Inside parentheses there are no descriptions, so a body is the same with and
without them.  A search for a word, a head or the end of the table options meets
them as blanks: it comes to the same place, and what it has passed differs only
by descriptions.
-/

namespace SchemaReader.Scan.Comment

open SchemaReader.Reading SchemaReader.Text

namespace Passage

variable {mode after : Mode} {quote : Quote} {depth : Nat} {text plain : List Cell}

/-- One character further: the parenthesis that closes the last one open, or the search goes on with
no more parentheses open than the scan has. -/
theorem closingFrom_cellAt (quote : Quote) (c : Char) {opened : Nat} (hopened : 1 ≤ opened)
    (hdepth : opened ≤ depth) (index : Nat) :
    (quote = .outside ∧ c = ')' ∧ opened = 1) ∨
    ∃ opened', 1 ≤ opened' ∧ opened' ≤ depthBehind quote depth c ∧
      ∀ rest, closingFrom (quoteOf quote.section?) opened index (cellAt quote c :: rest) =
        closingFrom (quoteOf (quote.feed c).section?) opened' (index + 1) rest := by
  rcases cellAt_cases quote c with
    ⟨rfl, hfeed, hplain, hcell⟩ | ⟨d, rfl, hfeed, rfl, hcell⟩ |
    ⟨d, hquote, hfeed, hcell⟩ | ⟨d, hquote, hfeed, rfl, hcell⟩
  · rw [depthBehind_outside, hfeed, hcell]
    by_cases hopen : c = '('
    · subst hopen
      exact .inr ⟨opened + 1, by omega, by simpa [depthAfter] using hdepth, fun rest =>
        closingFrom_open rfl opened index rest⟩
    · by_cases hclose : c = ')'
      · subst hclose
        by_cases hone : opened = 1
        · exact .inl ⟨rfl, rfl, hone⟩
        · have hshallower : opened - 1 ≤ depthAfter depth ')' := by
            simpa [depthAfter] using Nat.sub_le_sub_right hdepth 1
          exact .inr ⟨opened - 1, by omega, hshallower, fun rest =>
            (closingFrom_close rfl opened index rest).trans (if_neg hone)⟩
      · have hlevel : Level [(⟨c, false⟩ : Cell)] := by
          refine level_of_isLevel fun x hx => ?_
          obtain rfl := List.mem_singleton.1 hx
          simp [isLevel, shown, Cell.shown, hplain, hopen, hclose]
        exact .inr ⟨opened, hopened, by simpa [depthAfter, hopen, hclose] using hdepth, fun rest =>
          hlevel opened index rest hopened⟩
  · rw [depthBehind_outside, depthAfter_delimiter, hfeed, hcell]
    exact .inr ⟨opened, hopened, hdepth, fun rest => closingFrom_delimiter rfl opened index rest⟩
  · rw [depthBehind_of_section? hquote, hquote, hfeed, hcell]
    exact .inr ⟨opened, hopened, hdepth, fun rest => closingFrom_blank rfl d opened index rest⟩
  · rw [depthBehind_of_section? hquote, hquote, hfeed, hcell]
    exact .inr ⟨opened, hopened, hdepth, fun rest =>
      closingFrom_inside_delimiter rfl opened index rest⟩

/-- The search finds the parenthesis that closes `opened` at the same place in both texts, the same
text leads up to it, and both go on behind it. -/
def ClosedAlike (quote : Quote) (opened index : Nat) (text plain : List Cell) (after : Mode) :
    Prop :=
  closingFrom (quoteOf quote.section?) opened index text =
      closingFrom (quoteOf quote.section?) opened index plain ∧
    ∀ close, closingFrom (quoteOf quote.section?) opened index text = some close →
      ∃ length depth, close = index + length ∧ text.take length = plain.take length ∧
        Passage (.code .outside depth) (text.drop (length + 1)) (plain.drop (length + 1)) after

theorem ClosedAlike.cons {opened opened' index : Nat} {x : Cell} {next : Quote}
    (h : ClosedAlike next opened' (index + 1) text plain after)
    (hstep : ∀ rest, closingFrom (quoteOf quote.section?) opened index (x :: rest) =
      closingFrom (quoteOf next.section?) opened' (index + 1) rest) :
    ClosedAlike quote opened index (x :: text) (x :: plain) after := by
  obtain ⟨heq, hclose⟩ := h
  refine ⟨by rw [hstep, hstep, heq], fun close hfound => ?_⟩
  rw [hstep] at hfound
  obtain ⟨length, depth, rfl, htake, hrest⟩ := hclose close hfound
  exact ⟨length + 1, depth, by omega, congrArg (x :: ·) htake, hrest⟩

theorem closedAlike (h : Passage (.code quote depth) text plain after) {opened : Nat}
    (hopened : 1 ≤ opened) (hdepth : opened ≤ depth) (index : Nat) :
    ClosedAlike quote opened index text plain after := by
  -- While parentheses are open the scan is not at depth zero, where descriptions stand.
  generalize hmode : Mode.code quote depth = mode at h
  induction h generalizing quote depth opened index with
  | nil => exact ⟨rfl, by simp [closingFrom]⟩
  | @cell quote depth c text plain after h ih =>
      cases hmode
      rcases closingFrom_cellAt quote c hopened hdepth index with
        ⟨rfl, rfl, rfl⟩ | ⟨opened', hopened', hdepth', hstep⟩
      · have hfound : ∀ rest : List Cell, closingFrom (quoteOf (Quote.section? .outside)) 1 index
            (cellAt .outside ')' :: rest) = some index :=
          fun rest => (closingFrom_close rfl 1 index rest).trans (if_pos rfl)
        refine ⟨by rw [hfound, hfound], fun close hclose => ?_⟩
        rw [hfound] at hclose
        cases hclose
        exact ⟨0, _, rfl, rfl, h⟩
      · exact (ih hopened' hdepth' (index + 1) rfl).cons hstep
  | line =>
      cases hmode
      omega
  | last =>
      cases hmode
      omega

theorem of_open (h : Passage (.code .outside depth) text plain after)
    (hopen : headShown text = some '(') :
    ∃ text' plain', text = ⟨'(', false⟩ :: text' ∧ plain = ⟨'(', false⟩ :: plain' ∧
      Passage (.code .outside (depth + 1)) text' plain' after := by
  rcases h.head_cases with ⟨c, text, plain, rfl, rfl, hinner⟩ | ⟨hblank, -⟩
  · have hc : c = '(' := by simpa [headShown, shown_cellAt_outside] using hopen
    subst hc
    exact ⟨text, plain, rfl, rfl, hinner⟩
  · cases text with
    | nil => cases hopen
    | cons x text =>
        have hx : shown x = '(' := by simpa [headShown] using hopen
        rw [hblank x rfl] at hx
        cases hx

theorem closing? (h : Passage (.code .outside depth) text plain after)
    (hopen : headShown text = some '(') :
    Scan.closing? text = Scan.closing? plain ∧
      ∀ close, Scan.closing? text = some close →
        text.take close = plain.take close ∧
          ∃ depth, Passage (.code .outside depth) (text.drop (close + 1)) (plain.drop (close + 1))
            after := by
  obtain ⟨text, plain, rfl, rfl, hinner⟩ := h.of_open hopen
  have hstart : ∀ rest : List Cell, Scan.closing? (⟨'(', false⟩ :: rest) =
      closingFrom (quoteOf (Quote.section? .outside)) 1 1 rest := by
    intro rest
    have hshown : ((⟨'(', false⟩ : Cell) :: rest).head?.map shown = some '(' := rfl
    rw [Scan.closing?, if_pos hshown]
    exact closingFrom_open rfl 0 0 rest
  obtain ⟨heq, hclose⟩ := hinner.closedAlike (Nat.le_refl 1) (Nat.le_add_left 1 depth) 1
  refine ⟨by rw [hstart, hstart]; exact heq, fun close hfound => ?_⟩
  rw [hstart] at hfound
  obtain ⟨length, depth, rfl, htake, hrest⟩ := hclose close hfound
  rw [Nat.add_comm 1 length]
  exact ⟨congrArg (_ :: ·) htake, depth, hrest⟩

theorem outside_of_not_mem_marks {x : Cell} (h : Passage mode (x :: text) (x :: plain) after)
    (hx : shown x ∉ marks) : ∃ depth, mode = .code .outside depth := by
  obtain ⟨quote, depth, rfl⟩ := h.eq_code
  have hspace : shown x ≠ ' ' := fun hspace => hx (hspace ▸ by decide)
  obtain ⟨c, rfl, -⟩ := h.of_cons hspace
  have hquote : Delimiter.ofChar? (shown (cellAt quote c)) = none := by
    cases hd : Delimiter.ofChar? (shown (cellAt quote c)) with
    | none => rfl
    | some d => exact absurd (Delimiter.ofChar?_eq_some.1 hd ▸ char_mem_marks d) hx
  obtain ⟨rfl, -⟩ := outside_of_shown rfl hquote hspace
  exact ⟨depth, rfl⟩

end Passage

section Searches

variable {β : Type} {R : β → β → Prop} {reader : List Cell → Option β} {x : Cell}

theorem reader_eq_none (hstart : ∀ {x rest}, (reader (x :: rest)).isSome → shown x ∉ marks)
    (hx : shown x ∈ marks) (rest : List Cell) : reader (x :: rest) = none := by
  cases hfound : reader (x :: rest) with
  | none => rfl
  | some found =>
      have hsome : (reader (x :: rest)).isSome := by rw [hfound]; rfl
      exact absurd hx (hstart hsome)

theorem findWord_of_mem_marks (hstart : ∀ {x rest}, (reader (x :: rest)).isSome → shown x ∉ marks)
    (hx : shown x ∈ marks) (before : Option Char) (rest : List Cell) :
    findWord reader before (x :: rest) = findWord reader (some (shown x)) rest := by
  rw [findWord, reader_eq_none hstart hx, ite_self]

theorem exists_findWord_hide
    (hstart : ∀ {x rest}, (reader (x :: rest)).isSome → shown x ∉ marks) (before : Option Char)
    (comment : List Char) (rest : List Cell) :
    ∃ before', findWord reader before (hide comment ++ rest) = findWord reader before' rest := by
  induction comment generalizing before with
  | nil => exact ⟨before, rfl⟩
  | cons c comment ih =>
      have hc : shown (⟨c, true⟩ : Cell) ∈ marks := List.mem_cons_self
      obtain ⟨before', hskip⟩ := ih (some ' ')
      exact ⟨before', (findWord_of_mem_marks hstart hc before _).trans hskip⟩

namespace Passage

variable {mode after : Mode} {text plain : List Cell}

theorem rel_reader (hstart : ∀ {x rest}, (reader (x :: rest)).isSome → shown x ∉ marks)
    (hreader : ∀ {text plain}, Annotated text plain → Unmarked text →
      Option.Rel R (reader text) (reader plain))
    (h : Passage mode (x :: text) (x :: plain) after) (htext : Unmarked (x :: text)) :
    Option.Rel R (reader (x :: text)) (reader (x :: plain)) := by
  by_cases hx : shown x ∈ marks
  · rw [reader_eq_none hstart hx, reader_eq_none hstart hx]
    exact .none
  · obtain ⟨depth, rfl⟩ := h.outside_of_not_mem_marks hx
    exact hreader h.annotated htext

theorem findWord (hstart : ∀ {x rest}, (reader (x :: rest)).isSome → shown x ∉ marks)
    (hreader : ∀ {text plain}, Annotated text plain → Unmarked text →
      Option.Rel R (reader text) (reader plain))
    (h : Passage mode text plain after) (htext : Unmarked text) (before : Option Char) :
    Option.Rel R (Text.findWord reader before text) (Text.findWord reader before plain) := by
  induction h generalizing before with
  | nil => exact .none
  | @cell quote depth c text plain after h ih =>
      have hword : Option.Rel R
          (if isBoundary before then reader (cellAt quote c :: text) else none)
          (if isBoundary before then reader (cellAt quote c :: plain) else none) := by
        split
        · exact (Passage.cell h).rel_reader hstart hreader htext
        · exact .none
      rw [Text.findWord, Text.findWord]
      generalize (if isBoundary before then reader (cellAt quote c :: text) else none) = found,
        (if isBoundary before then reader (cellAt quote c :: plain) else none) = found' at hword
      cases hword with
      | none => exact ih htext.tail _
      | some hxy => exact .some hxy
  | @line comment text plain after hline h ih =>
      obtain ⟨before', hskip⟩ :=
        exists_findWord_hide hstart before comment (⟨'\n', false⟩ :: text)
      have hbreak : shown (⟨'\n', false⟩ : Cell) ∈ marks := by decide
      have hrest : Unmarked (⟨'\n', false⟩ :: text) :=
        htext.of_isInfix (List.suffix_append _ _).isInfix
      rw [hskip, findWord_of_mem_marks hstart hbreak, findWord_of_mem_marks hstart hbreak]
      exact ih hrest.tail _
  | @last comment hline =>
      obtain ⟨before', hskip⟩ := exists_findWord_hide hstart before comment []
      rw [List.append_nil] at hskip
      rw [hskip]
      exact .none

end Passage

end Searches

theorem not_mem_marks_of_meets {c : Char} (h : Letters.anyCase.meets 'C' c) : c ∉ marks :=
  not_mem_marks (forall_marks rfl rfl rfl rfl rfl) h

theorem not_mem_marks_of_tableHead? {x : Cell} {rest : List Cell}
    (h : (tableHead? (x :: rest)).isSome) : shown x ∉ marks := by
  obtain ⟨head, hhead⟩ := Option.isSome_iff_exists.1 h
  obtain ⟨c, hc, hmeets⟩ := meets_of_tableHead? hhead
  obtain rfl : shown x = c := by simpa [headShown] using hc
  exact not_mem_marks_of_meets hmeets

theorem isSome_headAt? {before : Option Char} {x : Cell} {rest : List Cell}
    (h : (headAt? before (x :: rest)).isSome) : (tableHead? (x :: rest)).isSome := by
  obtain ⟨head, hhead⟩ := Option.isSome_iff_exists.1 h
  exact Option.isSome_iff_exists.2 ⟨head, tableHead?_of_headAt? hhead⟩

theorem Annotated.isSome_headAt? {text plain : List Cell} (h : Annotated text plain)
    (before : Option Char) : (headAt? before text).isSome = (headAt? before plain).isSome := by
  have hhead := h.tableHead?
  unfold headAt?
  split
  · generalize Reading.tableHead? text = found, Reading.tableHead? plain = found' at hhead
    cases hhead <;> rfl
  · rfl

structure Alike (place plain : Place) : Prop where
  annotated : Annotated place.rest plain.rest
  before : place.rest = [] ∨ place.before = plain.before

theorem optionsFrom_of_mem_marks {x : Cell} (hx : shown x ∈ marks) (before : Option Char)
    (out rest : List Cell) :
    optionsFrom before out (x :: rest) = optionsFrom (some (shown x)) (x :: out) rest := by
  have hsemicolon : shown x ≠ ';' := by
    rintro hsemicolon
    rw [hsemicolon] at hx
    exact absurd hx (by decide)
  have hhead : (headAt? before (x :: rest)).isSome = false := by
    cases hfound : headAt? before (x :: rest) with
    | none => rfl
    | some head =>
        have hsome : (headAt? before (x :: rest)).isSome := by rw [hfound]; rfl
        exact absurd hx (not_mem_marks_of_tableHead? (isSome_headAt? hsome))
  rw [optionsFrom, hhead, if_neg (by simpa using hsemicolon)]

theorem exists_optionsFrom_hide (before : Option Char) (out : List Cell) (comment : List Char)
    (rest : List Cell) :
    ∃ before', optionsFrom before out (hide comment ++ rest) =
      optionsFrom before' ((hide comment).reverse ++ out) rest := by
  induction comment generalizing before out with
  | nil => exact ⟨before, rfl⟩
  | cons c comment ih =>
      have hc : shown (⟨c, true⟩ : Cell) ∈ marks := List.mem_cons_self
      obtain ⟨before', hskip⟩ := ih (some ' ') (⟨c, true⟩ :: out)
      refine ⟨before', ((optionsFrom_of_mem_marks hc before out _).trans hskip).trans ?_⟩
      simp [hide]

namespace Passage

variable {mode after : Mode} {text plain : List Cell}

theorem optionsFrom (h : Passage mode text plain after) {start : Mode} {out out' : List Cell}
    (hout : Passage start out.reverse out'.reverse mode) (before : Option Char) :
    ∃ between,
      Passage start (Reading.optionsFrom before out text).1
        (Reading.optionsFrom before out' plain).1 between ∧
      Alike (Reading.optionsFrom before out text).2 (Reading.optionsFrom before out' plain).2 := by
  induction h generalizing out out' before with
  | @nil mode => exact ⟨mode, hout, ⟨0, .code .outside 0, .nil⟩, .inl rfl⟩
  | @cell quote depth c text plain after h ih =>
      have hcell : Passage (.code quote depth) (cellAt quote c :: text) (cellAt quote c :: plain)
          after := .cell h
      by_cases hx : shown (cellAt quote c) ∈ marks
      · rw [optionsFrom_of_mem_marks hx, optionsFrom_of_mem_marks hx]
        refine ih ?_ _
        rw [List.reverse_cons, List.reverse_cons]
        exact hout.append (.cell .nil)
      · obtain ⟨depth', hmode⟩ := hcell.outside_of_not_mem_marks hx
        have hannotated : Annotated (cellAt quote c :: text) (cellAt quote c :: plain) := by
          rw [hmode] at hcell
          exact hcell.annotated
        rw [Reading.optionsFrom, Reading.optionsFrom, hannotated.isSome_headAt? before]
        split
        · exact ⟨_, hout, hannotated, .inr rfl⟩
        · refine ih ?_ _
          rw [List.reverse_cons, List.reverse_cons]
          exact hout.append (.cell .nil)
  | @line comment text plain after hline h ih =>
      obtain ⟨before', hskip⟩ := exists_optionsFrom_hide before out comment (⟨'\n', false⟩ :: text)
      have hbreak : shown (⟨'\n', false⟩ : Cell) ∈ marks := by decide
      rw [hskip, optionsFrom_of_mem_marks hbreak, optionsFrom_of_mem_marks hbreak]
      refine ih ?_ _
      simpa using hout.append (.line hline .nil)
  | @last comment hline =>
      obtain ⟨before', hskip⟩ := exists_optionsFrom_hide before out comment []
      rw [List.append_nil] at hskip
      rw [hskip]
      refine ⟨.line 0 comment.reverse, ?_, ⟨0, .code .outside 0, .nil⟩, .inl rfl⟩
      simpa [Reading.optionsFrom] using hout.append (.last hline)

theorem reveal_plain {depth : Nat} (h : Passage (.code .outside depth) text plain after)
    (htext : Unmarked text) : Mask.reveal plain = blank (Mask.reveal text) :=
  (h.run_never htext 0).symm

end Passage

end Comment

end SchemaReader.Scan

import Mathlib.Data.Nat.Find
import SchemaReader.Proofs.Scan.Code

/-!
# What masking keeps

A masked text has a blank for every character strictly inside quotes or in a line
comment, and is the text elsewhere.  Escapes and delimiters of other kinds are gone
from its sections, so a scan of it takes other steps than a scan of the text.  It
still is in the same section at every place, which is why masking a masked text
changes nothing, and why the ends of statements and the parentheses that match stay
where they are.
-/

namespace SchemaReader.Scan

open SchemaReader.Text (Cell shown)

namespace Comment

variable {quote : Quote} {c : Char}

theorem isQuoted_quoteOf_section? (quote : Quote) :
    (quoteOf quote.section?).isQuoted = quote.isQuoted := by
  cases quote <;> rfl

theorem feed_shown_cellAt (quote : Quote) (c : Char) :
    (quoteOf quote.section?).feed (shown (cellAt quote c)) = quoteOf (quote.feed c).section? := by
  rcases cellAt_cases quote c with
    ⟨rfl, hfeed, -, hcell⟩ | ⟨d, rfl, hfeed, rfl, hcell⟩ |
    ⟨d, hquote, hfeed, hcell⟩ | ⟨d, hquote, hfeed, rfl, hcell⟩
  · rw [hcell, hfeed]
    exact hfeed
  · rw [hcell, hfeed]
    exact hfeed
  · rw [hcell, hquote, hfeed]
    cases d <;> rfl
  · rw [hcell, hquote, hfeed]
    exact Quote.feed_inside_delimiter d

theorem covers_shown_cellAt (quote : Quote) (c : Char) :
    (quoteOf quote.section?).covers (shown (cellAt quote c)) = quote.covers c := by
  rw [Quote.covers, Quote.covers, feed_shown_cellAt, isQuoted_quoteOf_section?,
    isQuoted_quoteOf_section?]

theorem shown_cellAt_of_not_covers (h : quote.covers c = false) : shown (cellAt quote c) = c := by
  obtain rfl := Quote.eq_outside_of_covers h
  rfl

theorem shown_cellAt_shown_cellAt (quote : Quote) (c : Char) :
    shown (cellAt (quoteOf quote.section?) (shown (cellAt quote c))) = shown (cellAt quote c) := by
  have hcell : cellAt (quoteOf quote.section?) (shown (cellAt quote c)) =
      ⟨shown (cellAt quote c), (cellAt quote c).hidden⟩ := by
    rw [cellAt, feed_shown_cellAt, isQuoted_quoteOf_section?, isQuoted_quoteOf_section?]
    rfl
  rw [hcell]
  obtain ⟨char, hidden⟩ := cellAt quote c
  cases hidden <;> rfl

/-- Where two dashes come together, they stand in quotes. -/
def QuotedDashes (quote : Quote) (text : List Char) : Prop :=
  ∀ place, text[place]? = some '-' → text[place + 1]? = some '-' →
    (quote.after (text.take place)).isQuoted

instance (quote : Quote) (text : List Char) : Decidable (QuotedDashes quote text) :=
  decidable_of_iff (∀ place < text.length, text[place]? = some '-' → text[place + 1]? = some '-' →
      (quote.after (text.take place)).isQuoted)
    ⟨fun h place hdash => h place (List.getElem?_eq_some_iff.1 hdash).1 hdash,
      fun h place _ => h place⟩

theorem QuotedDashes.run_eq {quote : Quote} {text : List Char} (h : QuotedDashes quote text) :
    Mask.masker.run (.code quote) text = codeCells quote text := by
  induction text generalizing quote with
  | nil => rfl
  | cons c text ih =>
      have hplain : quote = .outside → c = '-' → text.head? ≠ some '-' := by
        rintro rfl rfl hnext
        rw [List.head?_eq_getElem?] at hnext
        cases h 0 rfl hnext
      rw [Mask.run_code _ _ _ hplain, ih fun place => h (place + 1)]
      rfl

theorem statementEndsFrom_codeCells (quote : Quote) (index : Nat) (out : List Nat)
    (text : List Char) :
    statementEndsFrom (quoteOf quote.section?) index out ((codeCells quote text).map shown) =
      statementEndsFrom quote index out text := by
  induction text generalizing quote index out with
  | nil => rfl
  | cons c text ih =>
      have hend : (!quote.covers c && shown (cellAt quote c) == ';') =
          (!quote.covers c && c == ';') := by
        cases hcovers : quote.covers c with
        | true => rfl
        | false => rw [shown_cellAt_of_not_covers hcovers]
      rw [codeCells, List.map_cons, statementEndsFrom, statementEndsFrom, feed_shown_cellAt,
        covers_shown_cellAt, hend, ih]

end Comment

namespace Mask

open Comment

def Mode.quoteBehind : Mode → Quote
  | .code quote => quoteOf quote.section?
  | .line => .outside

theorem char_of_shown {x : Cell} {c : Char} (h : shown x = c) (hc : c ≠ ' ') : x.char = c := by
  obtain ⟨char, hidden⟩ := x
  cases hidden with
  | false => exact h
  | true => exact absurd h.symm hc

theorem head?_shown_run {mode : Mode} {text : List Char} {c : Char}
    (h : ((masker.run mode text).map shown).head? = some c) (hc : c ≠ ' ') :
    text.head? = some c := by
  rw [← reveal_run mode text, reveal, List.head?_map]
  rw [List.head?_map] at h
  obtain ⟨x, hx, hshown⟩ := Option.map_eq_some_iff.1 h
  rw [hx, Option.map_some, char_of_shown hshown hc]

theorem run_eq_cons {quote : Quote} {c : Char} {rest : List Char}
    (h : ¬ (quote = .outside ∧ c = '-' ∧ rest.head? = some '-')) :
    masker.run (.code quote) (c :: rest) =
      cellAt quote c :: masker.run (.code (quote.feed c)) rest :=
  run_code quote c rest fun hquote hc hnext => h ⟨hquote, hc, hnext⟩

theorem run_line_cons {c : Char} (hc : c ≠ '\n') (rest : List Char) :
    masker.run .line (c :: rest) = ⟨c, true⟩ :: masker.run .line rest := by
  rw [Transducer.run_cons]
  simp only [masker, step, if_neg hc]
  rfl

theorem run_dashes {rest : List Char} (h : rest.head? = some '-') :
    masker.run (.code .outside) ('-' :: rest) = ⟨'-', true⟩ :: masker.run .line rest := by
  rw [Transducer.run_cons, h]
  rfl

theorem shown_run_shown_run (mode : Mode) (text : List Char) :
    (masker.run (.code mode.quoteBehind) ((masker.run mode text).map shown)).map shown =
      (masker.run mode text).map shown := by
  induction text generalizing mode with
  | nil => rfl
  | cons c text ih =>
      have hplain : ∀ (d : Char) (rest : List Char), d ≠ '-' → Quote.outside.feed d = .outside →
          masker.run (.code .outside) (d :: rest) =
            ⟨d, false⟩ :: masker.run (.code .outside) rest := by
        intro d rest hd hfeed
        rw [run_eq_cons fun h => hd h.2.1, hfeed]
        rfl
      cases mode with
      | code quote =>
          by_cases hline : quote = .outside ∧ c = '-' ∧ text.head? = some '-'
          · obtain ⟨rfl, rfl, hnext⟩ := hline
            rw [run_dashes hnext, List.map_cons]
            exact (congrArg _ (hplain ' ' _ (by decide) rfl)).trans (congrArg _ (ih .line))
          · -- A dash that is left outside quotes is followed by none that is left.
            have hagain : ¬ (quoteOf quote.section? = .outside ∧ shown (cellAt quote c) = '-' ∧
                ((masker.run (.code (quote.feed c)) text).map shown).head? = some '-') := by
              rintro ⟨-, hshown, hnext⟩
              obtain ⟨hquote, hc⟩ := outside_of_shown hshown rfl (by decide)
              exact hline ⟨hquote, hc, head?_shown_run hnext (by decide)⟩
            have hrest := ih (.code (quote.feed c))
            rw [run_eq_cons hline, List.map_cons, Mode.quoteBehind, run_eq_cons hagain,
              feed_shown_cellAt, List.map_cons, shown_cellAt_shown_cellAt]
            exact congrArg _ hrest
      | line =>
          by_cases hc : c = '\n'
          · subst hc
            have hbreak := run_line_eq ('\n' :: text) (by simp)
            rw [hbreak, hplain '\n' _ (by decide) rfl, List.map_cons]
            exact (congrArg _ (hplain '\n' _ (by decide) rfl)).trans
              (congrArg _ (ih (.code .outside)))
          · rw [run_line_cons hc, List.map_cons]
            exact (congrArg _ (hplain ' ' _ (by decide) rfl)).trans (congrArg _ (ih .line))

theorem mask_mask (text : List Char) : mask (mask text) = mask text :=
  shown_run_shown_run (.code .outside) text

theorem length_mask (text : List Char) : (mask text).length = text.length := by
  have hlength := congrArg List.length (reveal_cells text)
  rw [reveal, List.length_map] at hlength
  rw [mask, List.length_map, hlength]

theorem maskWith_blank (text : List Char) : maskWith [' '] text = mask text := by
  rw [maskWith, mask, ← List.flatMap_pure_eq_map]
  refine List.flatMap_congr fun x _ => ?_
  obtain ⟨char, hidden⟩ := x
  cases hidden <;> rfl

/-! ## Places in quotes and in line comments -/

structure CommentAt (text : List Char) (start stop : Nat) : Prop where
  dash : text[start]? = some '-'
  next : text[start + 1]? = some '-'
  start_le : start ≤ stop
  le_length : stop ≤ text.length
  noBreak : ∀ place, start ≤ place → place < stop → text[place]? ≠ some '\n'
  ends : ∀ c ∈ text[stop]?, c = '\n'

/-- A scan that leaves out the line comments it meets outside quotes comes to `place`, and is in the
state `quote` there. -/
inductive Stands (text : List Char) : Nat → Quote → Prop
  | start : Stands text 0 .outside
  | code {place : Nat} {quote : Quote} {c : Char} (h : Stands text place quote)
      (hc : text[place]? = some c)
      (hplain : quote = .outside → ∀ stop, ¬ CommentAt text place stop) :
      Stands text (place + 1) (quote.feed c)
  | comment {place stop : Nat} (h : Stands text place .outside)
      (hline : CommentAt text place stop) :
      Stands text stop .outside

def InQuotes (text : List Char) (place : Nat) : Prop :=
  ∃ quote c, Stands text place quote ∧ text[place]? = some c ∧ quote.isQuoted ∧
    (quote.feed c).isQuoted

def InComment (text : List Char) (place : Nat) : Prop :=
  ∃ start stop, Stands text start .outside ∧ CommentAt text start stop ∧ start ≤ place ∧
    place < stop

section Places

variable {text : List Char} {place start stop : Nat} {quote : Quote} {c : Char}

theorem exists_commentAt (hdash : text[start]? = some '-') (hnext : text[start + 1]? = some '-') :
    ∃ stop, CommentAt text start stop := by
  have hend : ∃ stop, start ≤ stop ∧ ∀ c ∈ text[stop]?, c = '\n' := by
    have hlt := (List.getElem?_eq_some_iff.1 hdash).1
    exact ⟨text.length, hlt.le, by simp⟩
  classical
  refine ⟨Nat.find hend, hdash, hnext, (Nat.find_spec hend).1, ?_, ?_, (Nat.find_spec hend).2⟩
  · have hlt := (List.getElem?_eq_some_iff.1 hdash).1
    exact Nat.find_min' hend ⟨hlt.le, by simp⟩
  · intro place hle hlt hbreak
    refine Nat.find_min hend hlt ⟨hle, fun c hc => ?_⟩
    rw [hbreak] at hc
    exact (Option.some.inj hc).symm

theorem drop_eq_cons (h : text[place]? = some c) :
    text.drop place = c :: text.drop (place + 1) := by
  obtain ⟨hlt, rfl⟩ := List.getElem?_eq_some_iff.1 h
  exact List.drop_eq_getElem_cons hlt

theorem CommentAt.lt (h : CommentAt text start stop) : start + 1 < stop := by
  have hstart : stop ≠ start := by
    rintro rfl
    exact absurd (h.ends '-' h.dash) (by decide)
  have hnext : stop ≠ start + 1 := by
    rintro rfl
    exact absurd (h.ends '-' h.next) (by decide)
  have := h.start_le
  omega

theorem CommentAt.slice_eq (h : CommentAt text start stop) :
    ∃ comment, (text.take stop).drop start = '-' :: '-' :: comment ∧ '\n' ∉ comment := by
  have hlt := h.lt
  have htake : ∀ place < stop, (text.take stop)[place]? = text[place]? :=
    fun place hplace => List.getElem?_take_of_lt hplace
  refine ⟨(text.take stop).drop (start + 1 + 1), ?_, fun hmem => ?_⟩
  · rw [drop_eq_cons ((htake start (by omega)).trans h.dash),
      drop_eq_cons ((htake (start + 1) hlt).trans h.next)]
  · obtain ⟨more, hmore⟩ := List.mem_iff_getElem?.1 hmem
    rw [List.getElem?_drop, List.getElem?_take] at hmore
    split at hmore
    · exact h.noBreak _ (by omega) (by assumption) hmore
    · cases hmore

theorem CommentAt.run_drop (h : CommentAt text start stop) :
    masker.run (.code .outside) (text.drop start) =
      hide ((text.take stop).drop start) ++ masker.run (.code .outside) (text.drop stop) := by
  obtain ⟨comment, hslice, hbreak⟩ := h.slice_eq
  have hshort : start ≤ (text.take stop).length := by
    rw [List.length_take_of_le h.le_length]
    exact h.start_le
  have hsplit : text.drop start = '-' :: '-' :: comment ++ text.drop stop := by
    rw [← hslice, ← List.drop_append_of_le_length hshort, List.take_append_drop]
  rw [hslice, hsplit]
  exact run_comment comment _ hbreak fun c hc => h.ends c (List.head?_drop ▸ hc)

theorem run_drop_eq_cons (hc : text[place]? = some c)
    (hplain : quote = .outside → ∀ stop, ¬ CommentAt text place stop) :
    masker.run (.code quote) (text.drop place) =
      cellAt quote c :: masker.run (.code (quote.feed c)) (text.drop (place + 1)) := by
  rw [drop_eq_cons hc, run_eq_cons]
  rintro ⟨hquote, rfl, hnext⟩
  rw [List.head?_drop] at hnext
  obtain ⟨stop, hstop⟩ := exists_commentAt hc hnext
  exact hplain hquote stop hstop

theorem Stands.drop_cells (h : Stands text place quote) :
    (cells text).drop place = masker.run (.code quote) (text.drop place) := by
  induction h with
  | start => rfl
  | @code place quote c h hc hplain ih =>
      rw [← List.drop_drop, ih, run_drop_eq_cons hc hplain]
      rfl
  | @comment place stop h hline ih =>
      have hlength : (hide ((text.take stop).drop place)).length = stop - place := by
        rw [hide, List.length_map, List.length_drop, List.length_take_of_le hline.le_length]
      rw [← Nat.add_sub_of_le hline.start_le, ← List.drop_drop, ih, hline.run_drop,
        Nat.add_sub_of_le hline.start_le, ← hlength, List.drop_left]

theorem stands_or_inComment (h : text[place]? = some c) :
    (∃ quote, Stands text place quote ∧
      (quote = .outside → ∀ stop, ¬ CommentAt text place stop)) ∨ InComment text place := by
  have hmet : ∀ {place quote}, Stands text place quote →
      (∃ quote, Stands text place quote ∧
        (quote = .outside → ∀ stop, ¬ CommentAt text place stop)) ∨ InComment text place := by
    intro place quote hstands
    by_cases hline : quote = .outside ∧ ∃ stop, CommentAt text place stop
    · obtain ⟨rfl, stop, hstop⟩ := hline
      have hlt := hstop.lt
      exact .inr ⟨place, stop, hstands, hstop, Nat.le_refl _, by omega⟩
    · refine .inl ⟨quote, hstands, fun hquote stop hstop => ?_⟩
      exact hline ⟨hquote, stop, hstop⟩
  induction place generalizing c with
  | zero => exact hmet .start
  | succ place ih =>
      have hlt := (List.getElem?_eq_some_iff.1 h).1
      have hbefore : text[place]? = some text[place] := List.getElem?_eq_getElem (by omega)
      rcases ih hbefore with ⟨quote, hstands, hplain⟩ | ⟨start, stop, hstands, hline, hle, hstop⟩
      · exact hmet (hstands.code hbefore hplain)
      · by_cases hend : place + 1 < stop
        · exact .inr ⟨start, stop, hstands, hline, by omega, hend⟩
        · obtain rfl : stop = place + 1 := by omega
          exact hmet (hstands.comment hline)

theorem getElem?_mask (text : List Char) (place : Nat) :
    (mask text)[place]? = ((cells text).drop place).head?.map shown := by
  rw [mask, List.getElem?_map, List.head?_drop]
  rfl

theorem Stands.getElem?_mask (h : Stands text place quote) (hc : text[place]? = some c)
    (hplain : quote = .outside → ∀ stop, ¬ CommentAt text place stop) :
    (mask text)[place]? = some (shown (cellAt quote c)) := by
  rw [Mask.getElem?_mask, h.drop_cells, run_drop_eq_cons hc hplain]
  rfl

theorem InQuotes.getElem?_mask (h : InQuotes text place) : (mask text)[place]? = some ' ' := by
  obtain ⟨quote, c, hstands, hc, hbefore, hbehind⟩ := h
  have hcell : cellAt quote c = ⟨c, true⟩ := by rw [cellAt, hbefore, hbehind, Bool.and_true]
  rw [hstands.getElem?_mask hc, hcell]
  · rfl
  · rintro rfl
    cases hbefore

theorem InComment.getElem?_mask (h : InComment text place) : (mask text)[place]? = some ' ' := by
  obtain ⟨start, stop, hstands, hline, hle, hlt⟩ := h
  obtain ⟨more, rfl⟩ := Nat.exists_eq_add_of_le hle
  have hlength : ((text.take stop).drop start).length = stop - start := by
    rw [List.length_drop, List.length_take_of_le hline.le_length]
  have hmore : more < (hide ((text.take stop).drop start)).length := by
    rw [hide, List.length_map, hlength]
    omega
  rw [Mask.getElem?_mask, ← List.drop_drop, hstands.drop_cells, hline.run_drop, List.head?_drop,
    List.getElem?_append_left hmore, List.getElem?_eq_getElem hmore, Option.map_some,
    shown_hide (List.getElem_mem hmore)]

theorem getElem?_mask_of_visible (hquotes : ¬ InQuotes text place)
    (hcomment : ¬ InComment text place) : (mask text)[place]? = text[place]? := by
  cases hc : text[place]? with
  | none =>
      rw [List.getElem?_eq_none_iff, length_mask]
      exact List.getElem?_eq_none_iff.1 hc
  | some c =>
      rcases stands_or_inComment hc with ⟨quote, hstands, hplain⟩ | h
      · have hvisible : (quote.isQuoted && (quote.feed c).isQuoted) = false := by
          by_contra hhidden
          rw [Bool.not_eq_false, Bool.and_eq_true] at hhidden
          exact hquotes ⟨quote, c, hstands, hc, hhidden⟩
        rw [hstands.getElem?_mask hc hplain, cellAt, hvisible]
        rfl
      · exact absurd h hcomment

end Places

/-! ## Statement ends and parentheses -/

section Code

variable {text : List Char}

theorem statementEnds_mask (h : QuotedDashes .outside text) :
    statementEnds (mask text) = statementEnds text := by
  rw [mask, cells, h.run_eq]
  exact statementEndsFrom_codeCells .outside 0 [] text

theorem matchingParen?_mask (h : QuotedDashes .outside text) {place : Nat} {c : Char}
    (hc : (Quote.outside.after (text.take place)).covers c = false) :
    matchingParen? (mask text) place = matchingParen? text place := by
  have hdrop : (mask text).drop place =
      (codeCells .outside (text.drop place)).map shown := by
    rw [mask, cells, h.run_eq, ← List.map_drop, drop_codeCells, Quote.eq_outside_of_covers hc]
    rfl
  rw [matchingParen?_natCast, matchingParen?_natCast, hdrop, closing?_map_shown, closing?_codeCells]

end Code

/-- A masked text is as long as the text, has blanks strictly inside quotes and in line comments, is
the text elsewhere, and has nothing more to mask.  Where all pairs of dashes are in quotes, the ends
of statements are the same in both, and so is the parenthesis that matches one outside quotes. -/
theorem mask_keeps_places (text : List Char) :
    maskWith [' '] text = mask text ∧
    (mask text).length = text.length ∧
    (∀ place, InQuotes text place ∨ InComment text place → (mask text)[place]? = some ' ') ∧
    (∀ place, ¬ InQuotes text place → ¬ InComment text place →
      (mask text)[place]? = text[place]?) ∧
    mask (mask text) = mask text ∧
    (QuotedDashes .outside text →
      statementEnds (mask text) = statementEnds text ∧
      ∀ (place : Nat) (c : Char), text[place]? = some c →
        (Quote.outside.after (text.take place)).covers c = false →
        matchingParen? (mask text) place = matchingParen? text place) := by
  refine ⟨maskWith_blank text, length_mask text, ?_, fun place => getElem?_mask_of_visible,
    mask_mask text, fun h => ⟨statementEnds_mask h, fun place c _ => matchingParen?_mask h⟩⟩
  rintro place (h | h)
  · exact h.getElem?_mask
  · exact h.getElem?_mask

/-- Dashes in quotes begin no comment, and dashes of code hide even a semicolon. -/
theorem mask_keeps_places_quoted_dashes :
    QuotedDashes .outside "'--;\\''(`)`;)".toList ∧
      InQuotes "'--;\\''(`)`;)".toList 1 ∧
      (mask "'--;\\''(`)`;)".toList)[1]? = some ' ' ∧
      statementEnds (mask "'--;\\''(`)`;)".toList) = statementEnds "'--;\\''(`)`;)".toList ∧
      matchingParen? (mask "'--;\\''(`)`;)".toList) 7 = some 12 ∧
      InComment "--;\n;".toList 2 ∧ (mask "--;\n;".toList)[2]? = some ' ' := by
  have hdashes : QuotedDashes .outside "'--;\\''(`)`;)".toList := by decide
  have hquotes : InQuotes "'--;\\''(`)`;)".toList 1 := by
    refine ⟨.inside .single, '-', .code .start (c := '\'') rfl ?_, rfl, rfl, rfl⟩
    intro _ stop hline
    exact absurd hline.dash (by decide)
  have hcomment : InComment "--;\n;".toList 2 := by
    have hbreak : ∀ place < 3, "--;\n;".toList[place]? ≠ some '\n' := by decide
    have hends : ∀ c ∈ "--;\n;".toList[3]?, c = '\n' := fun c hc => (Option.some.inj hc).symm
    exact ⟨0, 3, .start, ⟨rfl, rfl, by decide, by decide, fun place _ => hbreak place, hends⟩,
      by decide, by decide⟩
  obtain ⟨-, -, hhidden, -, -, hcode⟩ := mask_keeps_places "'--;\\''(`)`;)".toList
  obtain ⟨hends, hparens⟩ := hcode hdashes
  refine ⟨hdashes, hquotes, hhidden 1 (.inl hquotes), hends, ?_, hcomment, ?_⟩
  · exact (hparens 7 '(' rfl (by decide)).trans (by decide)
  · exact (mask_keeps_places "--;\n;".toList).2.2.1 2 (.inr hcomment)

end Mask

end SchemaReader.Scan

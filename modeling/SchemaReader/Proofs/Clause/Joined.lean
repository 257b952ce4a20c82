import SchemaReader.Proofs.Clause.Cut
import SchemaReader.Proofs.Text.Pieces

/-!
# Bodies joined at a comma

Behind a text that leaves nothing open, a comma ends a clause and the cutting starts
afresh, so the clauses of a joined body are those of its parts.  A clause is cut no
further, also when its quote is never closed: trimming takes blanks away, and these
open and close nothing.  Only the last clause of a body may leave something open, so
joining the clauses of a body gives a text with the same clauses.
-/

namespace SchemaReader.Clause

open SchemaReader.Scan SchemaReader.Text

namespace Position

def after (p : Position) (text : List Char) : Position := text.foldl step p

theorem after_append (p : Position) (first second : List Char) :
    p.after (first ++ second) = (p.after first).after second :=
  List.foldl_append

theorem step_blank_eq_start_iff {p : Position} {c : Char} (h : isBlank c) :
    p.step c = start ↔ p = start := by
  have hplain : ∀ d : Char, isBlank d = false → c ≠ d := by
    rintro d hd rfl
    rw [h] at hd
    cases hd
  have hliteral : Delimiter.ofLiteral? c = none := by
    simp [Delimiter.ofLiteral?, hplain '\'' rfl, hplain '"' rfl]
  obtain ⟨quote, depth⟩ := p
  cases quote with
  | outside =>
      have hstep : step ⟨.outside, depth⟩ c = ⟨.outside, depth⟩ := by
        simp [step, Quote.step, Quote.isQuoted, hliteral, hplain '(' rfl, hplain ')' rfl]
      rw [hstep]
  | inside d =>
      have hdelimiter : c ≠ d.char := by cases d <;> exact hplain _ rfl
      have hquote : (Quote.inside d).step Delimiter.ofLiteral? c ≠ .outside := by
        simp only [Quote.step, if_neg hdelimiter]
        split <;> simp
      constructor <;> intro heq
      · exact absurd (congrArg quote heq) hquote
      · cases heq
  | escaped d =>
      constructor <;> intro heq <;> cases heq

theorem after_blanks_eq_start_iff {p : Position} {blanks : List Char}
    (h : ∀ c ∈ blanks, isBlank c) : p.after blanks = start ↔ p = start := by
  induction blanks generalizing p with
  | nil => rfl
  | cons c blanks ih =>
      have hrest := ih (p := p.step c) fun d hd => h d (by simp [hd])
      exact hrest.trans (step_blank_eq_start_iff (h c (by simp)))

theorem step_of_separates {p : Position} {c : Char} (h : p.separates c) : p.step c = p := by
  obtain ⟨rfl, rfl⟩ := of_separates h
  rfl

end Position

/-- No comma of the text ends a clause when the scan enters it at the position. -/
def Uncut : Position → List Char → Prop
  | _, [] => True
  | p, c :: rest => p.separates c = false ∧ Uncut (p.step c) rest

theorem uncut_append {p : Position} {first second : List Char} :
    Uncut p (first ++ second) ↔ Uncut p first ∧ Uncut (p.after first) second := by
  induction first generalizing p with
  | nil => simp [Uncut, Position.after]
  | cons c first ih =>
      rw [List.cons_append, Uncut, Uncut, ih, and_assoc]
      rfl

theorem splitFrom_of_uncut {p : Position} {text : List Char} (h : Uncut p text)
    (out : List (List Char)) (piece : List Char) :
    splitFrom p out piece text = (flush out (text.reverse ++ piece)).reverse := by
  induction text generalizing p piece with
  | nil => rfl
  | cons c text ih =>
      rw [splitFrom, h.1, if_neg (by simp), ih h.2, List.reverse_cons, List.append_assoc,
        List.singleton_append]

theorem Uncut.trim {text : List Char} (h : Uncut .start text) :
    Uncut .start (trim text) ∧
      (Position.start.after text = .start → Position.start.after (Text.trim text) = .start) := by
  obtain ⟨lead, trail, htext, hlead, htrail⟩ := exists_trim text
  have hstart : Position.start.after lead = .start :=
    (Position.after_blanks_eq_start_iff hlead).2 rfl
  rw [htext, uncut_append, uncut_append, hstart] at h
  refine ⟨h.1.2, fun hend => ?_⟩
  rw [htext, Position.after_append, Position.after_blanks_eq_start_iff htrail,
    Position.after_append, hstart] at hend
  exact hend

structure Whole (text : List Char) : Prop where
  ne_nil : text ≠ []
  trimmed : Trimmed text
  uncut : Uncut .start text

theorem Whole.split_eq {text : List Char} (h : Whole text) : split text = [text] := by
  have hflush : flush [] text.reverse = [text] := by
    rw [flush, List.reverse_reverse, h.trimmed.trim_eq, if_neg (by simpa using h.ne_nil)]
  rw [split, splitFrom_of_uncut h.uncut, List.append_nil, hflush]
  rfl

theorem flush_eq_append (out : List (List Char)) (piece : List Char) :
    flush out piece = flush [] piece ++ out := by
  unfold flush
  dsimp only
  split <;> rfl

theorem splitFrom_eq_out_append (p : Position) (out : List (List Char))
    (piece text : List Char) :
    splitFrom p out piece text = out.reverse ++ splitFrom p [] piece text := by
  induction text generalizing p out piece with
  | nil => rw [splitFrom, splitFrom, flush_eq_append, List.reverse_append]
  | cons c text ih =>
      simp only [splitFrom]
      split
      · rw [ih, ih p (flush [] piece), flush_eq_append, List.reverse_append, List.append_assoc]
      · exact ih _ _ _

theorem splitFrom_append_comma {p : Position} {first : List Char} (h : p.after first = .start)
    (out : List (List Char)) (piece second : List Char) :
    splitFrom p out piece (first ++ ',' :: second) =
      splitFrom p out piece first ++ split second := by
  induction first generalizing p out piece with
  | nil =>
      obtain rfl : p = .start := h
      have hcomma : splitFrom .start out piece (',' :: second) =
          splitFrom .start (flush out piece) [] second := rfl
      rw [List.nil_append, hcomma, splitFrom_eq_out_append]
      rfl
  | cons c first ih =>
      have hrest : (p.step c).after first = .start := h
      simp only [List.cons_append, splitFrom]
      split
      · rename_i hcut
        rw [Position.step_of_separates hcut] at hrest
        exact ih hrest _ _
      · exact ih hrest _ _

theorem split_append_comma {first : List Char} (h : Position.start.after first = .start)
    (second : List Char) : split (first ++ ',' :: second) = split first ++ split second :=
  splitFrom_append_comma h [] [] second

/-- A list of clauses of which only the last may leave something open. -/
inductive Clauses : List (List Char) → Prop where
  | nil : Clauses []
  | last {clause : List Char} (whole : Whole clause) : Clauses [clause]
  | cons {clause : List Char} {rest : List (List Char)} (whole : Whole clause)
      (closed : Position.start.after clause = .start) (others : Clauses rest) :
      Clauses (clause :: rest)

theorem Clauses.whole {clauses : List (List Char)} (h : Clauses clauses) :
    ∀ clause ∈ clauses, Whole clause := by
  induction h with
  | nil => simp
  | last hwhole => simpa using hwhole
  | cons hwhole _ _ ih => exact List.forall_mem_cons.2 ⟨hwhole, ih⟩

theorem Clauses.split_intercalate {clauses : List (List Char)} (h : Clauses clauses) :
    split ([','].intercalate clauses) = clauses := by
  induction h with
  | nil => rfl
  | last hwhole =>
      rw [List.intercalate_singleton]
      exact hwhole.split_eq
  | @cons clause rest hwhole hclosed _ ih =>
      cases rest with
      | nil =>
          rw [List.intercalate_singleton]
          exact hwhole.split_eq
      | cons next rest =>
          rw [List.intercalate_cons_cons, List.append_assoc, List.singleton_append,
            split_append_comma hclosed, hwhole.split_eq, ih]
          rfl

theorem flush_cases {piece : List Char} (h : Uncut .start piece.reverse) :
    flush [] piece = [] ∨
      (flush [] piece = [trim piece.reverse] ∧ Whole (trim piece.reverse)) := by
  cases hempty : (trim piece.reverse).isEmpty with
  | true => exact .inl (by simp [flush, hempty])
  | false =>
      refine .inr ⟨by simp [flush, hempty], ?_, trimmed_trim _, h.trim.1⟩
      rintro hnil
      rw [hnil] at hempty
      cases hempty

theorem clauses_splitFrom {piece : List Char} (h : Uncut .start piece.reverse)
    (rest : List Char) :
    Clauses (splitFrom (Position.start.after piece.reverse) [] piece rest) := by
  induction rest generalizing piece with
  | nil =>
      rw [splitFrom]
      rcases flush_cases h with hflush | ⟨hflush, hwhole⟩
      · rw [hflush]
        exact .nil
      · rw [hflush]
        exact .last hwhole
  | cons c rest ih =>
      rw [splitFrom]
      split
      · rename_i hcut
        have hclosed := (of_separates hcut).2
        have hempty : Uncut .start ([] : List Char).reverse := trivial
        have hlater : Clauses (split rest) := ih hempty
        rw [splitFrom_eq_out_append, hclosed]
        rcases flush_cases h with hflush | ⟨hflush, hwhole⟩
        · rw [hflush]
          exact hlater
        · rw [hflush]
          exact .cons hwhole (h.trim.2 hclosed) hlater
      · rename_i hkeep
        have hlonger : Uncut .start (c :: piece).reverse := by
          rw [List.reverse_cons, uncut_append]
          exact ⟨h, by simpa using hkeep, trivial⟩
        have hstep : Position.start.after (c :: piece).reverse =
            (Position.start.after piece.reverse).step c := by
          rw [List.reverse_cons, Position.after_append]
          rfl
        rw [← hstep]
        exact ih hlonger

theorem clauses_split (body : List Char) : Clauses (split body) :=
  clauses_splitFrom (show Uncut .start ([] : List Char).reverse from trivial) body

/-- Cutting turns a comma behind a text that leaves nothing open into the joining of two lists of
clauses.  Each clause is trimmed and cut no further, and the clauses joined again are cut as
before. -/
theorem split_joined :
    (∀ first second : List Char, Position.start.after first = .start →
      split (first ++ ',' :: second) = split first ++ split second) ∧
    ∀ body : List Char,
      (∀ clause ∈ split body, clause ≠ [] ∧ trim clause = clause ∧ split clause = [clause]) ∧
        split ([','].intercalate (split body)) = split body := by
  refine ⟨fun first second h => split_append_comma h second, fun body => ⟨?_, ?_⟩⟩
  · intro clause hclause
    have hwhole := (clauses_split body).whole clause hclause
    exact ⟨hwhole.ne_nil, hwhole.trimmed.trim_eq, hwhole.split_eq⟩
  · exact (clauses_split body).split_intercalate

/-- A quoted comma cuts nothing, and a quote that is never closed, before a blank that trimming
takes away, stays in one clause. -/
theorem split_joined_open_quote :
    Position.start.after "a SET(',')".toList = .start ∧
      split ("a SET(',')".toList ++ ',' :: " , b 'x\\ ".toList) =
        ["a SET(',')".toList, "b 'x\\".toList] ∧
      split "b 'x\\".toList = ["b 'x\\".toList] := by
  have hclosed : Position.start.after "a SET(',')".toList = .start := by decide
  have hfirst : split "a SET(',')".toList = ["a SET(',')".toList] := by decide
  have hsecond : split " , b 'x\\ ".toList = ["b 'x\\".toList] := by decide
  obtain ⟨-, -, hclause⟩ := (split_joined.2 " , b 'x\\ ".toList).1 "b 'x\\".toList (by decide)
  refine ⟨hclosed, ?_, hclause⟩
  rw [split_joined.1 _ _ hclosed, hfirst, hsecond]
  rfl

end SchemaReader.Clause

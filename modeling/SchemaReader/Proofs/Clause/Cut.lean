import Mathlib.Data.List.Induction
import SchemaReader.Clause
import SchemaReader.Proofs.Scan.Nesting
import SchemaReader.Text.Search

/-!
# Where a body is cut

A clause ends at a comma that stands outside quoted sections and outside
parentheses.  The cut is stated over the text before the comma, for any choice
of the characters that open a section.  Clauses are cut outside string literals
only, so a delimited name that holds a comma, a quote or a parenthesis moves the
cuts; as long as no name holds one, all three kinds of sections count.
-/

namespace SchemaReader.Clause

open SchemaReader.Scan SchemaReader.Text

section Cuts

variable (opens : Char → Option Delimiter)

def quoteAfter (text : List Char) : Quote := text.foldl (Quote.step opens) .outside

def bareFrom (quote : Quote) : List Char → List Char
  | [] => []
  | c :: rest =>
      let next := quote.step opens c
      if quote.isQuoted || next.isQuoted then bareFrom next rest else c :: bareFrom next rest

def bare (text : List Char) : List Char := bareFrom opens .outside text

def cutsAfter (before : List Char) (c : Char) : Bool :=
  c == ',' && !(quoteAfter opens before).isQuoted && nesting (bare opens before) == 0

def marksBehind (before : List Char) : List Char → List (Char × Bool)
  | [] => []
  | c :: rest => (c, cutsAfter opens before c) :: marksBehind (before ++ [c]) rest

def clauseOf (piece : List (Char × Bool)) : List Char := trim (piece.map (·.1))

/-- The pieces between the cuts of a body, without those that are blank. -/
def clausesAt (body : List Char) : List (List Char) :=
  ((splitAtChars (·.2) (marksBehind opens [] body)).map clauseOf).filter (!·.isEmpty)

theorem quoteAfter_concat (before : List Char) (c : Char) :
    quoteAfter opens (before ++ [c]) = (quoteAfter opens before).step opens c := by
  simp [quoteAfter]

theorem bareFrom_append (quote : Quote) (first second : List Char) :
    bareFrom opens quote (first ++ second) =
      bareFrom opens quote first ++
        bareFrom opens (first.foldl (Quote.step opens) quote) second := by
  induction first generalizing quote with
  | nil => rfl
  | cons c first ih =>
      simp only [List.cons_append, bareFrom, ih, List.foldl_cons]
      split <;> rfl

theorem bare_concat (before : List Char) (c : Char) :
    bare opens (before ++ [c]) =
      bare opens before ++ bareFrom opens (quoteAfter opens before) [c] :=
  bareFrom_append opens .outside before [c]

theorem nesting_bare_concat (before : List Char) (c : Char) :
    nesting (bare opens (before ++ [c])) =
      nesting (bare opens before) + nesting (bareFrom opens (quoteAfter opens before) [c]) := by
  rw [bare_concat, nesting_append]

end Cuts

def positionAfter (before : List Char) : Position :=
  ⟨quoteAfter Delimiter.ofLiteral? before, nesting (bare Delimiter.ofLiteral? before)⟩

theorem step_eq (quote : Quote) (depth : Int) (c : Char) :
    Position.step ⟨quote, depth⟩ c =
      ⟨quote.step Delimiter.ofLiteral? c,
        depth + nesting (bareFrom Delimiter.ofLiteral? quote [c])⟩ := by
  cases quote with
  | outside =>
      by_cases hopen : c = '('
      · subst hopen
        rfl
      · by_cases hclose : c = ')'
        · subst hclose
          rfl
        · have hplain : nesting (bareFrom Delimiter.ofLiteral? .outside [c]) = 0 := by
            simp only [bareFrom]
            split <;> simp [nesting, hopen, hclose]
          simp [Position.step, Quote.isQuoted, hopen, hclose, hplain]
  | inside d => simp [Position.step, bareFrom, Quote.isQuoted]
  | escaped d => simp [Position.step, bareFrom, Quote.isQuoted]

theorem of_separates {p : Position} {c : Char} (h : p.separates c) : c = ',' ∧ p = .start := by
  obtain ⟨quote, depth⟩ := p
  simp only [Position.separates, Bool.and_eq_true, beq_iff_eq] at h
  obtain ⟨⟨hquote, rfl⟩, rfl⟩ := h
  cases quote with
  | outside => exact ⟨rfl, rfl⟩
  | _ => cases hquote

theorem positionAfter_concat (before : List Char) (c : Char) :
    positionAfter (before ++ [c]) = (positionAfter before).step c := by
  rw [positionAfter, positionAfter, step_eq, quoteAfter_concat, nesting_bare_concat]

theorem separates_positionAfter (before : List Char) (c : Char) :
    (positionAfter before).separates c = cutsAfter Delimiter.ofLiteral? before c := by
  simp only [Position.separates, positionAfter, cutsAfter]
  cases (quoteAfter Delimiter.ofLiteral? before).isQuoted <;> simp

theorem splitFrom_eq_append {α : Type} (isSeparator : α → Bool) (out : List (List α))
    (piece text : List α) :
    Text.splitFrom isSeparator out piece text =
      out.reverse ++ Text.splitFrom isSeparator [] piece text := by
  induction text generalizing out piece with
  | nil => simp [Text.splitFrom]
  | cons c text ih =>
      simp only [Text.splitFrom]
      split
      · rw [ih, ih [piece.reverse]]
        simp
      · exact ih out _

theorem reverse_flush (out : List (List Char)) (piece : List (Char × Bool)) :
    (flush out (piece.map (·.1))).reverse =
      out.reverse ++ [clauseOf piece.reverse].filter (!·.isEmpty) := by
  simp only [flush, clauseOf, List.map_reverse]
  cases htrim : (trim (piece.map (·.1)).reverse).isEmpty <;> simp [htrim]

theorem splitFrom_positionAfter (before rest : List Char) (out : List (List Char))
    (piece : List (Char × Bool)) :
    splitFrom (positionAfter before) out (piece.map (·.1)) rest =
      out.reverse ++
        ((Text.splitFrom (·.2) [] piece (marksBehind Delimiter.ofLiteral? before rest)).map
          clauseOf).filter (!·.isEmpty) := by
  induction rest generalizing before out piece with
  | nil => simp [splitFrom, marksBehind, Text.splitFrom, reverse_flush]
  | cons c rest ih =>
      simp only [splitFrom, marksBehind, Text.splitFrom, separates_positionAfter]
      cases hcut : cutsAfter Delimiter.ofLiteral? before c with
      | true =>
          have hstay : positionAfter (before ++ [c]) = positionAfter before := by
            rw [← separates_positionAfter] at hcut
            obtain ⟨rfl, hstart⟩ := of_separates hcut
            rw [positionAfter_concat, hstart]
            rfl
          have hrest := ih (before ++ [c]) (flush out (piece.map (·.1))) []
          rw [hstay, List.map_nil, reverse_flush] at hrest
          simp only [if_true, hrest]
          rw [splitFrom_eq_append _ [piece.reverse], List.map_append, List.filter_append]
          simp only [List.reverse_singleton, List.map_singleton, List.append_assoc]
      | false =>
          simp only [Bool.false_eq_true, if_false, ← positionAfter_concat]
          exact ih (before ++ [c]) out ((c, false) :: piece)

theorem split_eq_clausesAt (body : List Char) :
    split body = clausesAt Delimiter.ofLiteral? body :=
  splitFrom_positionAfter [] body [] []

def breakers : List Char := [',', '\'', '"', '(', ')']

/-- No section between backticks holds a character that could move a cut. -/
def PlainNames (body : List Char) : Prop :=
  ∀ before c after, body = before ++ c :: after →
    quoteAfter Delimiter.ofChar? before = .inside .backtick → c ∉ breakers

def literalState : Quote → Quote
  | .inside .backtick | .escaped .backtick => .outside
  | quote => quote

theorem literalState_step_literal {d : Delimiter} (hd : d.escapes) (c : Char) :
    (Quote.inside d).step Delimiter.ofLiteral? c =
        literalState ((Quote.inside d).step Delimiter.ofChar? c) ∧
      (Quote.inside d).step Delimiter.ofChar? c ≠ .escaped .backtick := by
  simp only [Quote.step]
  cases d with
  | backtick => cases hd
  | single => split <;> [skip; split] <;> simp [literalState]
  | double => split <;> [skip; split] <;> simp [literalState]

theorem literalState_step {quote : Quote} {c : Char} (hescape : quote ≠ .escaped .backtick)
    (h : quote = .inside .backtick → c ∉ breakers) :
    (literalState quote).step Delimiter.ofLiteral? c =
        literalState (quote.step Delimiter.ofChar? c) ∧
      nesting (bareFrom Delimiter.ofLiteral? (literalState quote) [c]) =
        nesting (bareFrom Delimiter.ofChar? quote [c]) ∧
      quote.step Delimiter.ofChar? c ≠ .escaped .backtick := by
  cases quote with
  | outside =>
      by_cases hsingle : c = '\''
      · subst hsingle
        exact ⟨rfl, rfl, by decide⟩
      · by_cases hdouble : c = '"'
        · subst hdouble
          exact ⟨rfl, rfl, by decide⟩
        · by_cases hbacktick : c = '`'
          · subst hbacktick
            exact ⟨rfl, rfl, by decide⟩
          · simp [Quote.step, Delimiter.ofLiteral?, Delimiter.ofChar?, literalState, bareFrom,
              hsingle, hdouble, hbacktick]
  | inside d =>
      cases d with
      | backtick =>
          -- A scan that knows only literals sees the name as plain text.
          have hplain := h rfl
          simp only [breakers, List.mem_cons, List.not_mem_nil, or_false, not_or] at hplain
          obtain ⟨-, hsingle, hdouble, hopen, hclose⟩ := hplain
          have hliteral : Delimiter.ofLiteral? c = none := by
            simp [Delimiter.ofLiteral?, hsingle, hdouble]
          have hstep : (Quote.inside .backtick).step Delimiter.ofChar? c =
              if c = '`' then .outside else .inside .backtick := rfl
          refine ⟨?_, ?_, ?_⟩
          · rw [hstep]
            split <;> simp [literalState, Quote.step, hliteral]
          · simp [bareFrom, literalState, Quote.step, Quote.isQuoted, hliteral, nesting, hopen,
              hclose]
          · rw [hstep]
            split <;> simp
      | single =>
          obtain ⟨hstep, hnext⟩ := literalState_step_literal (d := .single) rfl c
          exact ⟨hstep, rfl, hnext⟩
      | double =>
          obtain ⟨hstep, hnext⟩ := literalState_step_literal (d := .double) rfl c
          exact ⟨hstep, rfl, hnext⟩
  | escaped d =>
      cases d with
      | backtick => exact absurd rfl hescape
      | single => exact ⟨rfl, rfl, by simp [Quote.step]⟩
      | double => exact ⟨rfl, rfl, by simp [Quote.step]⟩

/-- As long as names are plain, the two scans are at the same depth, and one is inside a literal
when the other is. -/
theorem PlainNames.scans_agree {body : List Char} (h : PlainNames body) (before after : List Char)
    (hbody : body = before ++ after) :
    quoteAfter Delimiter.ofLiteral? before = literalState (quoteAfter Delimiter.ofChar? before) ∧
      nesting (bare Delimiter.ofLiteral? before) = nesting (bare Delimiter.ofChar? before) ∧
      quoteAfter Delimiter.ofChar? before ≠ .escaped .backtick := by
  induction before using List.reverseRecOn generalizing after with
  | nil => exact ⟨rfl, rfl, by simp [quoteAfter]⟩
  | append_singleton before c ih =>
      have hsplit : body = before ++ c :: after := by simp [hbody]
      obtain ⟨hquote, hdepth, hescape⟩ := ih (c :: after) hsplit
      obtain ⟨hstep, hnesting, hnext⟩ := literalState_step hescape (h before c after hsplit)
      simp only [quoteAfter_concat, nesting_bare_concat, hquote, hdepth]
      exact ⟨hstep, by rw [hnesting], hnext⟩

theorem PlainNames.cutsAfter_eq {body : List Char} (h : PlainNames body) {before after : List Char}
    {c : Char} (hbody : body = before ++ c :: after) :
    cutsAfter Delimiter.ofLiteral? before c = cutsAfter Delimiter.ofChar? before c := by
  obtain ⟨hquote, hdepth, hescape⟩ := h.scans_agree before (c :: after) hbody
  by_cases hcomma : c = ','
  · have hplain : quoteAfter Delimiter.ofChar? before ≠ .inside .backtick := by
      intro hname
      exact h before c after hbody hname (by simp [hcomma, breakers])
    have hstate : literalState (quoteAfter Delimiter.ofChar? before) =
        quoteAfter Delimiter.ofChar? before := by
      unfold literalState
      split <;> simp_all
    simp only [cutsAfter, hquote, hdepth, hstate]
  · have hne : (c == ',') = false := by simpa using hcomma
    simp only [cutsAfter, hne, Bool.false_and]

theorem PlainNames.marksBehind_eq {body : List Char} (h : PlainNames body)
    (before rest : List Char) (hbody : body = before ++ rest) :
    marksBehind Delimiter.ofLiteral? before rest = marksBehind Delimiter.ofChar? before rest := by
  induction rest generalizing before with
  | nil => rfl
  | cons c rest ih =>
      rw [marksBehind, marksBehind, h.cutsAfter_eq hbody, ih (before ++ [c]) (by simp [hbody])]

/-- A body is cut exactly at the commas outside string literals and parentheses.  These are the
commas outside all three kinds of sections when no name between backticks holds a comma, a quote
or a parenthesis. -/
theorem split_cuts_outside_literals (body : List Char) :
    split body = clausesAt Delimiter.ofLiteral? body ∧
      (PlainNames body → split body = clausesAt Delimiter.ofChar? body) := by
  refine ⟨split_eq_clausesAt body, fun h => ?_⟩
  rw [split_eq_clausesAt, clausesAt, clausesAt, h.marksBehind_eq [] body rfl]

/-- A comma between backticks does end a clause. -/
theorem split_ne_clausesAt_of_name_with_comma :
    split "`a,b` INT".toList = ["`a".toList, "b` INT".toList] ∧
      clausesAt Delimiter.ofChar? "`a,b` INT".toList = ["`a,b` INT".toList] := by
  decide

end SchemaReader.Clause

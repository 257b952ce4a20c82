import SchemaReader.Clause
import SchemaReader.Proofs.Canonical.Statements

/-!
# The clauses of a canonical table

The body of a canonical table is cut just between its columns, and each clause
gives back the name, the type and the tail it was written from.
-/

namespace SchemaReader.Canonical

open SchemaReader.Reading SchemaReader.Scan SchemaReader.Text
open SchemaReader.Clause (Position)

/-- No comma of the text ends a clause at this depth. -/
def Unsplit (depth : Int) (text : List Char) : Prop :=
  ∀ out piece rest,
    Clause.splitFrom ⟨.outside, depth⟩ out piece (text ++ rest) =
      Clause.splitFrom ⟨.outside, depth⟩ out (text.reverse ++ piece) rest

theorem Unsplit.nil {depth : Int} : Unsplit depth [] := fun _ _ _ => rfl

theorem Unsplit.append {depth : Int} {first second : List Char} (hfirst : Unsplit depth first)
    (hsecond : Unsplit depth second) : Unsplit depth (first ++ second) := by
  intro out piece rest
  rw [List.append_assoc, hfirst, hsecond, List.reverse_append, List.append_assoc]

def isInert (c : Char) : Bool := (Delimiter.ofLiteral? c).isNone && c != '(' && c != ')'

theorem isInert_of_isLevel {c : Char} (h : isLevel c) : isInert c := by
  have hc : (Delimiter.ofChar? c = none ∧ c ≠ '(') ∧ c ≠ ')' := by
    simpa [isLevel] using h
  have hliteral : Delimiter.ofLiteral? c = none := by
    have hsingle : c ≠ '\'' := by
      rintro rfl
      cases hc.1.1
    have hdouble : c ≠ '"' := by
      rintro rfl
      cases hc.1.1
    simp [Delimiter.ofLiteral?, hsingle, hdouble]
  simp [isInert, hliteral, hc]

theorem unsplit_of_isInert {depth : Int} {text : List Char} (h : text.all isInert)
    (hcomma : ',' ∈ text → depth ≠ 0) : Unsplit depth text := by
  induction text with
  | nil => exact Unsplit.nil
  | cons c text ih =>
      have hc : (Delimiter.ofLiteral? c = none ∧ c ≠ '(') ∧ c ≠ ')' := by
        simpa [isInert] using List.all_eq_true.1 h c (by simp)
      have hhead : Unsplit depth [c] := by
        intro out piece rest
        have hkeeps : Position.separates ⟨.outside, depth⟩ c = false := by
          simp only [Position.separates, Bool.and_eq_false_iff, beq_eq_false_iff_ne]
          by_cases hc : c = ','
          · exact .inr (hcomma (by simp [hc]))
          · exact .inl (.inr hc)
        have hstep : Position.step ⟨.outside, depth⟩ c = ⟨.outside, depth⟩ := by
          simp [Position.step, Quote.step, Quote.isQuoted, hc]
        rw [List.singleton_append, Clause.splitFrom, hkeeps, hstep]
        rfl
      rw [List.all_cons, Bool.and_eq_true] at h
      exact hhead.append (ih h.2 fun hd => hcomma (by simp [hd]))

theorem Unsplit.parens {depth : Int} {inner : List Char} (h : Unsplit (depth + 1) inner) :
    Unsplit depth ('(' :: inner ++ [')']) := by
  intro out piece rest
  have hopen : ∀ rest, Clause.splitFrom ⟨.outside, depth⟩ out piece ('(' :: rest) =
      Clause.splitFrom ⟨.outside, depth + 1⟩ out ('(' :: piece) rest := fun _ => rfl
  have hclose : ∀ piece rest, Clause.splitFrom ⟨.outside, depth + 1⟩ out piece (')' :: rest) =
      Clause.splitFrom ⟨.outside, depth + 1 - 1⟩ out (')' :: piece) rest := fun _ _ => rfl
  rw [List.append_assoc, List.cons_append, hopen, h, List.cons_append, hclose]
  simp

theorem splitFrom_quoted {quote : Quote} (h : quote.isQuoted) (depth : Int)
    (out : List (List Char)) (piece : List Char) (c : Char) (rest : List Char) :
    Clause.splitFrom ⟨quote, depth⟩ out piece (c :: rest) =
      Clause.splitFrom ⟨quote.step Delimiter.ofLiteral? c, depth⟩ out (c :: piece) rest := by
  simp [Clause.splitFrom, Position.separates, Position.step, h]

theorem splitFrom_open (d : Delimiter) (hd : d.escapes) (depth : Int) (out : List (List Char))
    (piece rest : List Char) :
    Clause.splitFrom ⟨.outside, depth⟩ out piece (d.char :: rest) =
      Clause.splitFrom ⟨.inside d, depth⟩ out (d.char :: piece) rest := by
  cases d with
  | backtick => cases hd
  | single => rfl
  | double => rfl

theorem splitFrom_close (d : Delimiter) (depth : Int) (out : List (List Char))
    (piece rest : List Char) :
    Clause.splitFrom ⟨.inside d, depth⟩ out piece (d.char :: rest) =
      Clause.splitFrom ⟨.outside, depth⟩ out (d.char :: piece) rest := by
  rw [splitFrom_quoted rfl]
  cases d <;> rfl

theorem splitFrom_escape (d : Delimiter) (hd : d.escapes) (depth : Int) (out : List (List Char))
    (piece : List Char) (c : Char) (rest : List Char) :
    Clause.splitFrom ⟨.inside d, depth⟩ out piece (escape d.char c ++ rest) =
      Clause.splitFrom ⟨.inside d, depth⟩ out ((escape d.char c).reverse ++ piece) rest := by
  unfold escape
  by_cases hslash : c = '\\'
  · have hstep : (Quote.inside d).step Delimiter.ofLiteral? c = .escaped d := by
      simp [Quote.step, hd, hslash]
    rw [if_pos (.inl hslash), List.cons_append, List.singleton_append, splitFrom_quoted rfl, hstep,
      splitFrom_quoted rfl]
    rfl
  · by_cases hquote : c = d.char
    · rw [if_pos (.inr hquote), hquote, List.cons_append, List.singleton_append, splitFrom_close,
        splitFrom_open d hd]
      rfl
    · have hstep : (Quote.inside d).step Delimiter.ofLiteral? c = .inside d := by
        simp [Quote.step, hslash, hquote]
      rw [if_neg (by simp [hslash, hquote]), List.singleton_append, splitFrom_quoted rfl, hstep]
      rfl

theorem splitFrom_escapes (d : Delimiter) (hd : d.escapes) (depth : Int) (out : List (List Char))
    (piece text rest : List Char) :
    Clause.splitFrom ⟨.inside d, depth⟩ out piece (text.flatMap (escape d.char) ++ rest) =
      Clause.splitFrom ⟨.inside d, depth⟩ out
        ((text.flatMap (escape d.char)).reverse ++ piece) rest := by
  induction text generalizing piece with
  | nil => rfl
  | cons c text ih =>
      rw [List.flatMap_cons, List.append_assoc, splitFrom_escape d hd, ih, List.reverse_append,
        List.append_assoc]

theorem Literal.unsplit (literal : Literal) (depth : Int) : Unsplit depth literal.write := by
  intro out piece rest
  rw [write, List.append_assoc, List.cons_append, splitFrom_open _ literal.escapes,
    splitFrom_escapes _ literal.escapes, List.singleton_append, splitFrom_close]
  simp

theorem unsplit_of_isWordAscii {depth : Int} {text : List Char}
    (h : text.all isWordAscii) : Unsplit depth text := by
  rw [List.all_eq_true] at h
  apply unsplit_of_isInert
  · rw [List.all_eq_true]
    intro c hc
    exact isInert_of_isLevel (isLevel_of_isWordAscii (h c hc))
  · intro hcomma
    exact absurd (h _ hcomma) (by decide)

theorem Name.unsplit (name : Name) : Unsplit 0 name.write := by
  have hquote : Unsplit 0 ['`'] := unsplit_of_isInert rfl (by decide)
  exact (hquote.append (unsplit_of_isWordAscii name.word)).append hquote

theorem TypeToken.unsplit (token : TypeToken) : Unsplit 0 token.write := by
  refine (unsplit_of_isWordAscii token.all_name).append ?_
  unfold suffix
  cases hlength : token.length? with
  | none => exact Unsplit.nil
  | some length =>
      have hinner : Unsplit (0 + 1) length := by
        apply unsplit_of_isInert
        · rw [List.all_eq_true]
          intro c hc
          exact isInert_of_isLevel (List.all_eq_true.1 (isLevel_length hlength) c hc)
        · exact fun _ => by decide
      exact hinner.parens

theorem unsplit_spaced (items : List Item) : Unsplit 0 (Mask.reveal (spaced items)) := by
  induction items with
  | nil => exact Unsplit.nil
  | cons item items ih =>
      have hblank : Unsplit 0 [' '] := unsplit_of_isInert rfl (by decide)
      have hitem : Unsplit 0 (Mask.reveal item.cells) := by
        cases item with
        | word w =>
            rw [Item.cells, reveal_visible]
            exact unsplit_of_isInert (by cases w <;> rfl) (by cases w <;> decide)
        | literal l =>
            rw [Item.cells, Literal.reveal_cells]
            exact l.unsplit 0
      have hcells : Mask.reveal (spaced (item :: items)) =
          [' '] ++ Mask.reveal item.cells ++ Mask.reveal (spaced items) := by
        simp [spaced_cons, Mask.reveal]
      rw [hcells]
      exact (hblank.append hitem).append ih

namespace Column

theorem unsplit (column : Column) : Unsplit 0 column.write := by
  have hblank : Unsplit 0 [' '] := unsplit_of_isInert rfl (by decide)
  have htail : Unsplit 0 column.tail := by
    rw [← reveal_items]
    exact unsplit_spaced column.items
  exact ((column.name.unsplit.append hblank).append column.type.unsplit).append htail

theorem trimmed_write (column : Column) : Trimmed column.write := by
  obtain ⟨front, hfront⟩ : ∃ front, column.write = '`' :: front ++ column.comment.write := by
    rw [write, tail, Name.write]
    simp only [List.cons_append, ← List.append_assoc]
    exact ⟨_, rfl⟩
  have htrimmed := trimmed_of_ends (front ++ column.comment.delimiter.char ::
    column.comment.text.flatMap (escape column.comment.delimiter.char))
    (show isBlank '`' = false from rfl) (isBlank_delimiter column.comment.delimiter)
  simpa [hfront, Literal.write] using htrimmed

end Column

structure IsClause (text : List Char) : Prop where
  ne_nil : text ≠ []
  trimmed : Trimmed text
  unsplit : Unsplit 0 text

theorem IsClause.flush_reverse {text : List Char} (h : IsClause text) (out : List (List Char))
    {lead : List Char} (hlead : ∀ c ∈ lead, isBlank c) :
    Clause.flush out (text.reverse ++ lead) = text :: out := by
  have htrim : trim (text.reverse ++ lead).reverse = text := by
    rw [List.reverse_append, List.reverse_reverse]
    exact h.trimmed.trim_append (by simpa using hlead)
  rw [Clause.flush, htrim, if_neg (by simpa using h.ne_nil)]

/-- The blank after a comma goes with the next clause, which `lead` stands for. -/
theorem splitFrom_intercalate {clauses : List (List Char)} (hne : clauses ≠ [])
    (h : ∀ clause ∈ clauses, IsClause clause) (out : List (List Char)) (lead : List Char)
    (hlead : ∀ c ∈ lead, isBlank c) :
    Clause.splitFrom .start out lead (", ".toList.intercalate clauses) =
      out.reverse ++ clauses := by
  induction clauses generalizing out lead with
  | nil => exact absurd rfl hne
  | cons clause clauses ih =>
      have hclause := h clause List.mem_cons_self
      have hread := hclause.unsplit out lead
      cases clauses with
      | nil =>
          have hend := hread []
          rw [List.append_nil] at hend
          rw [List.intercalate_singleton, Position.start, hend, Clause.splitFrom,
            hclause.flush_reverse out hlead]
          simp
      | cons next clauses =>
          have hcomma : ∀ piece rest, Clause.splitFrom .start out piece (", ".toList ++ rest) =
              Clause.splitFrom .start (Clause.flush out piece) [' '] rest := fun _ _ => rfl
          rw [List.intercalate_cons_cons, List.append_assoc, Position.start, hread,
            ← Position.start, hcomma, hclause.flush_reverse out hlead,
            ih (List.cons_ne_nil next clauses) (fun later hlater => h later (by simp [hlater]))
              (clause :: out) [' '] (List.all_eq_true.1 rfl)]
          simp

theorem split_intercalate {clauses : List (List Char)} (hne : clauses ≠ [])
    (h : ∀ clause ∈ clauses, IsClause clause) :
    Clause.split (", ".toList.intercalate clauses) = clauses :=
  splitFrom_intercalate hne h [] [] (by simp)

theorem Column.isClause (column : Column) : IsClause column.write where
  ne_nil := by simp [write, Name.write]
  trimmed := column.trimmed_write
  unsplit := column.unsplit

theorem Table.split_body (table : Table) :
    Clause.split table.body = table.columns.map Column.write := by
  apply split_intercalate
  · simpa using table.ne_nil
  · intro clause hclause
    obtain ⟨column, -, rfl⟩ := List.mem_map.1 hclause
    exact column.isClause

namespace Name

theorem not_mem_backtick (name : Name) : '`' ∉ name.chars :=
  fun h => absurd (List.all_eq_true.1 name.word '`' h) (by decide)

theorem name?_write (name : Name) (rest : List Char) :
    Identifier.name? (name.write ++ rest) = some (name.write, rest) :=
  Identifier.name?_backticked name.ne_nil name.not_mem_backtick rest

theorem unquote_write (name : Name) : Identifier.unquote name.write = name.chars :=
  Identifier.unquote_backticked name.chars

theorem lastPart_write (name : Name) : Identifier.lastPart name.write = name.chars :=
  Identifier.lastPart_backticked name.ne_nil name.not_mem_backtick

end Name

end SchemaReader.Canonical

import SchemaReader.Proofs.Clause.Closed
import SchemaReader.Proofs.Reading.Balanced
import SchemaReader.Proofs.Reading.Uncommented
import SchemaReader.Proofs.Scan.Code
import SchemaReader.Proofs.Scan.Stripped

/-!
# Bodies of definitions

The body of a definition is found in the masked script and cut out of the script
itself.  Descriptions stand outside parentheses, so it is also a piece of the
blanked script, between a parenthesis outside quotes and the one that closes it.
Hence a body holds no comment, and it closes the quotes and the parentheses that
it opens.
-/

namespace SchemaReader.Reading

open SchemaReader.Scan SchemaReader.Scan.Comment SchemaReader.Text

/-- The body stands in the script between a parenthesis of code and the one that closes it. -/
structure Encloses (script body : List Char) : Prop where
  place : ∃ before after, script = before ++ '(' :: body ++ ')' :: after ∧
    Quote.outside.after before = .outside
  closed : Clause.Closed body

theorem slice_codeCells (quote : Quote) (text : List Char) (start stop : Nat) :
    slice (codeCells quote text) start stop = (text.take stop).drop start := by
  rw [slice, Mask.reveal, List.map_drop, List.map_take]
  exact congrArg (fun chars => (chars.take stop).drop start) (reveal_codeCells quote text)

theorem Round.encloses {script : List Char} {pos close : Nat} {visit : Visit}
    (h : Round (codeCells .outside script) pos visit) (hclose : visit.close = some close) :
    Encloses script (slice (codeCells .outside script) (visit.opening + 1) close) := by
  have hopen := h.headShown_opening
  rw [h.close_eq_closing?] at hclose
  rw [drop_codeCells] at hopen hclose
  have hsplit := List.take_append_drop visit.opening script
  have hlength : (script.take visit.opening).length = visit.opening := by
    have hlt := h.opening_lt
    rw [length_codeCells] at hlt
    exact List.length_take_of_le (Nat.le_of_lt hlt)
  generalize script.take visit.opening = before at hopen hclose hsplit hlength
  generalize script.drop visit.opening = text at hopen hclose hsplit
  cases text with
  | nil => cases hopen
  | cons c text =>
      obtain ⟨hquote, rfl⟩ := outside_of_shown (Option.some.inj hopen) (by decide) (by decide)
      rw [hquote, closing?_codeCells] at hclose
      obtain ⟨found, hfound, rfl⟩ := Option.map_eq_some_iff.1 hclose
      obtain ⟨body, after, rfl, rfl, hbody⟩ := Clause.closed_of_closing? hfound
      have hslice : slice (codeCells .outside script) (visit.opening + 1)
          (visit.opening + (body.length + 1)) = body := by
        rw [slice_codeCells, ← hsplit, ← hlength, List.take_length_add_append,
          List.drop_length_add_append]
        simp
      rw [hslice]
      exact ⟨⟨before, after, by simp [← hsplit], hquote⟩, hbody⟩

theorem encloses_of_mem_segments {script name body options : List Char}
    (h : .table name body options ∈ segments (blank script)) : Encloses (blank script) body := by
  obtain ⟨visits, hrounds, hsegments⟩ := exists_rounds (blank script)
  rw [hsegments] at h
  obtain ⟨visit, hvisit, hsegment⟩ := List.mem_map.1 h
  obtain ⟨pos, hround⟩ := hrounds.exists_round visit hvisit
  obtain ⟨written, -, hreads⟩ := hround.reads
  rw [cells_blank] at hround hreads
  rw [Visit.Reads] at hreads
  cases hclose : visit.close with
  | none =>
      rw [hclose] at hreads
      rw [hreads.2] at hsegment
      cases hsegment
  | some close =>
      rw [hclose] at hreads
      rw [hreads.2] at hsegment
      cases hsegment
      exact hround.encloses hclose

theorem encloses_of_mem_segments_strip {script name body options : List Char}
    (h : .table name body options ∈ segments (strip script)) : Encloses (blank script) body := by
  have hblank : (Segment.table name body options).blank ∈ segments (blank script) := by
    rw [← strip_blank script, (segments_blank script).1]
    exact List.mem_map_of_mem h
  exact encloses_of_mem_segments hblank

theorem codeCells_split {quote : Quote} {text before after : List Char} {c : Char}
    (h : text = before ++ c :: after) :
    codeCells quote text =
      codeCells quote before ++ cellAt (quote.after before) c ::
        codeCells ((quote.after before).feed c) after := by
  rw [h, codeCells_append]
  rfl

theorem not_beginsComment_of_unmarked {text before after : List Char} {c : Char}
    (h : Unmarked (codeCells .outside text)) (htext : text = before ++ c :: after)
    (hquote : (Quote.outside.after before).isQuoted = false) :
    ¬ BeginsComment c after.head? := by
  have houtside : Quote.outside.after before = .outside := by
    cases hafter : Quote.outside.after before with
    | outside => rfl
    | _ =>
        rw [hafter] at hquote
        cases hquote
  rw [codeCells_split htext, houtside] at h
  have hbehind := (h.of_isInfix (List.suffix_append _ _).isInfix).not_beginsComment
  rwa [reveal_codeCells] at hbehind

theorem Encloses.unmarked {script body : List Char} (h : Encloses script body)
    (hscript : Unmarked (codeCells .outside script)) : Unmarked (codeCells .outside body) := by
  obtain ⟨before, after, rfl, hquote⟩ := h.place
  have hfeed : Quote.outside.feed '(' = .outside := rfl
  rw [List.append_assoc, List.cons_append, codeCells_split rfl, hquote, hfeed,
    codeCells_append] at hscript
  have hbehind := (hscript.of_isInfix (List.suffix_append _ _).isInfix).tail
  exact hbehind.of_isInfix (List.prefix_append _ _).isInfix

/-- Stripping is complete.  A second pass changes nothing: outside quotes it meets no comment but
lines outside parentheses that speak of a table.  In the body of a definition it meets none. -/
theorem strip_leaves_only_descriptions (script : List Char) :
    strip (strip script) = strip script ∧
      (∀ before c after, strip script = before ++ c :: after →
        ((stripper isDescription).state (some c) (.code .outside 0) before).Passes
          (fun depth comment => depth = 0 ∧ SpeaksOfTable comment) c after) ∧
      ∀ name body options, .table name body options ∈ segments (strip script) →
        ∀ before c after, body = before ++ c :: after →
          (Quote.outside.after before).isQuoted = false → ¬ BeginsComment c after.head? := by
  refine ⟨stripWith_stripWith isDescription script, ?_, ?_⟩
  · intro before c after hsplit
    simpa only [isDescription_iff] using (stripped_stripWith isDescription script).passes hsplit
  · intro name body options hmem before c after hsplit hquote
    have hscript := unmarked_cells (fun _ _ => false) script
    rw [← blank, cells_blank] at hscript
    have hbody := (encloses_of_mem_segments_strip hmem).unmarked hscript
    exact not_beginsComment_of_unmarked hbody hsplit hquote

/-- The clauses of a body without backticks close the quotes and the parentheses that they open. -/
theorem clauses_closed {script name body options : List Char}
    (h : .table name body options ∈ segments (strip script)) (hplain : '`' ∉ body) :
    ∀ clause ∈ Clause.split body, Clause.Closed clause :=
  (encloses_of_mem_segments_strip h).closed.of_mem_split hplain

/-- A parenthesis in a literal, a comma in parentheses and a comment do not mislead the cuts. -/
theorem clauses_closed_literal_with_paren :
    .table "t".toList "a ENUM('(', ',') \n,\nPRIMARY KEY (a, b)".toList [] ∈
        segments (strip "CREATE TABLE t (a ENUM('(', ',') -- )\n,\nPRIMARY KEY (a, b));".toList) ∧
      '`' ∉ "a ENUM('(', ',') \n,\nPRIMARY KEY (a, b)".toList ∧
      ∀ clause ∈ Clause.split "a ENUM('(', ',') \n,\nPRIMARY KEY (a, b)".toList,
        Clause.Closed clause := by
  have hmem : .table "t".toList "a ENUM('(', ',') \n,\nPRIMARY KEY (a, b)".toList [] ∈
      segments (strip "CREATE TABLE t (a ENUM('(', ',') -- )\n,\nPRIMARY KEY (a, b));".toList) := by
    decide +kernel
  have hplain : '`' ∉ "a ENUM('(', ',') \n,\nPRIMARY KEY (a, b)".toList := by
    decide +kernel
  exact ⟨hmem, hplain, clauses_closed hmem hplain⟩

end SchemaReader.Reading

import SchemaReader.Proofs.Reading.Searches
import SchemaReader.Proofs.Reading.Segments
import SchemaReader.Proofs.Scan.Literal

/-!
# Tables of a script without its comments

The definitions of a script are those of the blanked script, with the same bodies;
of what they keep, only the names and the table options may hold descriptions.
Between the keyword and the literal of a table's comment a description is passed
over like blanks.  So what a description can change is the name of a table, which
is cut from the script as it is written.
-/

namespace SchemaReader.Scan.Comment

open SchemaReader.Reading SchemaReader.Text

namespace Passage

variable {after : Mode} {depth : Nat} {text plain : List Cell}

theorem head_delimiter_cases (h : Passage (.code .outside depth) text plain after)
    (d : Delimiter) :
    (∃ text' plain' depth', text = cellAt .outside d.char :: text' ∧
      plain = cellAt .outside d.char :: plain' ∧
      Passage (.code (.inside d) depth') text' plain' after) ∨
    ((Mask.reveal text).head? ≠ some d.char ∧ (Mask.reveal plain).head? ≠ some d.char) := by
  cases h with
  | nil => exact .inr ⟨by simp [Mask.reveal], by simp [Mask.reveal]⟩
  | @cell _ _ c text plain _ h =>
      by_cases hc : c = d.char
      · subst hc
        rw [Quote.feed_delimiter] at h
        exact .inl ⟨text, plain, _, rfl, rfl, h⟩
      · exact .inr
          ⟨by simpa [Mask.reveal, cellAt] using hc, by simpa [Mask.reveal, cellAt] using hc⟩
  | line hline =>
      obtain ⟨tail, rfl⟩ := hline.dashes
      exact .inr ⟨by cases d <;> simp [Mask.reveal, hide, Delimiter.char],
        by cases d <;> simp [Mask.reveal, Delimiter.char]⟩
  | last hline =>
      obtain ⟨tail, rfl⟩ := hline.dashes
      exact .inr ⟨by cases d <;> simp [Mask.reveal, hide, Delimiter.char], by simp [Mask.reveal]⟩

theorem readBody {d : Delimiter} (hd : d.escapes)
    (h : Passage (.code (.inside d) depth) text plain after) (content : List Char) (index : Nat) :
    Literal.readBody d.char content index (Mask.reveal text) =
      Literal.readBody d.char content index (Mask.reveal plain) := by
  have hslash : d.char ≠ '\\' := by cases d <;> decide
  have hreveal : ∀ (quote : Quote) (c : Char) (rest : List Cell),
      Mask.reveal (cellAt quote c :: rest) = c :: Mask.reveal rest := fun _ _ _ => rfl
  -- A doubled delimiter and an escape take two characters at once, so the induction is on lengths.
  induction hlength : text.length using Nat.strongRecOn
    generalizing depth text plain content index with
  | ind length ih =>
      cases h with
      | nil => rfl
      | @cell _ _ c text plain _ h =>
          by_cases hc : c = '\\'
          · subst hc
            rw [Quote.feed_escape hd] at h
            cases h with
            | nil => rfl
            | @cell _ _ e text plain _ h =>
                have hshorter : text.length < length := by
                  simp only [← hlength, List.length_cons]
                  omega
                simp only [hreveal, Literal.readBody_escaped]
                exact ih _ hshorter h _ _ rfl
          · by_cases hquote : c = d.char
            · subst hquote
              rw [Quote.feed_inside_delimiter] at h
              rcases h.head_delimiter_cases d with
                ⟨text', plain', depth', rfl, rfl, hinner⟩ | ⟨htext, hplain⟩
              · have hshorter : text'.length < length := by
                  simp only [← hlength, List.length_cons]
                  omega
                simp only [hreveal, Literal.readBody_doubled hslash]
                exact ih _ hshorter hinner _ _ rfl
              · rw [hreveal, hreveal, Literal.readBody_closed hslash _ _ htext,
                  Literal.readBody_closed hslash _ _ hplain]
            · rw [Quote.feed_inside (by simp [hc]) hquote] at h
              rw [hreveal, hreveal, Literal.readBody_plain hc hquote,
                Literal.readBody_plain hc hquote]
              exact ih _ (by simp [← hlength]) h _ _ rfl

end Passage

namespace Annotated

variable {text plain : List Cell}

theorem cases_of_headShown (h : Annotated text plain) (hhead : headShown text = headShown plain) :
    (text = [] ∧ plain = []) ∨
    ∃ c text' plain' depth after, text = ⟨c, false⟩ :: text' ∧ plain = ⟨c, false⟩ :: plain' ∧
      Passage (.code (Quote.outside.feed c) depth) text' plain' after := by
  obtain ⟨depth, after, h⟩ := h
  rcases h.head_cases with ⟨c, text', plain', rfl, rfl, hrest⟩ | ⟨htext, hplain⟩
  · exact .inr ⟨c, text', plain', _, after, rfl, rfl, hrest⟩
  · cases text with
    | nil => exact .inl ⟨rfl, h.eq_nil rfl⟩
    | cons x text =>
        cases plain with
        | nil => simp [headShown] at hhead
        | cons y plain =>
            simp only [headShown, List.head?_cons, Option.map_some, htext x rfl, hplain y rfl]
              at hhead
            exact absurd hhead (by decide)

theorem afterEquals (h : Annotated text plain) (hhead : headShown text = headShown plain) :
    Annotated (Reading.afterEquals text) (Reading.afterEquals plain) ∧
      headShown (Reading.afterEquals text) = headShown (Reading.afterEquals plain) := by
  rcases h.cases_of_headShown hhead with
    ⟨rfl, rfl⟩ | ⟨c, text', plain', depth, after, rfl, rfl, hrest⟩
  · exact ⟨h, hhead⟩
  · by_cases hc : c = '='
    · subst hc
      exact hrest.annotated.dropBlanks
    · have hskip : ∀ rest : List Cell,
          Reading.afterEquals (⟨c, false⟩ :: rest) = ⟨c, false⟩ :: rest := fun _ => if_neg hc
      rw [hskip, hskip]
      exact ⟨h, hhead⟩

theorem read?_eq (h : Annotated text plain) (hhead : headShown text = headShown plain) :
    Literal.read? (Mask.reveal text) = Literal.read? (Mask.reveal plain) := by
  rcases h.cases_of_headShown hhead with
    ⟨rfl, rfl⟩ | ⟨c, text', plain', depth, after, rfl, rfl, hrest⟩
  · rfl
  · change Literal.read? (c :: Mask.reveal text') = Literal.read? (c :: Mask.reveal plain')
    cases hquote : Delimiter.ofLiteral? c with
    | none => simp [Literal.read?, hquote]
    | some d =>
        obtain ⟨rfl, hd⟩ := Delimiter.ofLiteral?_eq_some hquote
        rw [Quote.feed_delimiter] at hrest
        simp only [Literal.read?, hquote, Option.isSome_some, if_true]
        exact hrest.readBody hd [] 1

end Annotated

theorem Annotated.isBoundary_headShown {text plain : List Cell} (h : Annotated text plain) :
    isBoundary (headShown text) = isBoundary (headShown plain) := by
  obtain ⟨depth, after, h⟩ := h
  rcases h.head_cases with ⟨c, text', plain', rfl, rfl, -⟩ | ⟨htext, hplain⟩
  · rfl
  · have hboundary : ∀ {rest : List Cell} {c : Char}, (∀ x ∈ rest.head?, shown x = c) →
        isBoundary (some c) → isBoundary (headShown rest) := by
      intro rest c hrest hc
      cases rest with
      | nil => rfl
      | cons x rest =>
          rw [headShown, List.head?_cons, Option.map_some, hrest x rfl]
          exact hc
    rw [hboundary htext rfl, hboundary hplain rfl]

theorem Annotated.afterPhrase? {keywords : List String} (hkeywords : keywords.all isSpelled)
    {text plain : List Cell} (h : Annotated text plain) :
    Option.Rel Annotated (Text.afterPhrase? .anyCase keywords text)
      (Text.afterPhrase? .anyCase keywords plain) := by
  have hword := h.afterKeywords? hkeywords
  unfold Text.afterPhrase?
  generalize Text.afterKeywords? .anyCase keywords text = found,
    Text.afterKeywords? .anyCase keywords plain = found' at hword
  cases hword with
  | none => exact .none
  | some hrest =>
      simp only [Option.filter_some, hrest.isBoundary_headShown]
      split
      · exact .some hrest
      · exact .none

theorem not_mem_marks_of_comment {x : Cell} {rest : List Cell}
    (h : (afterPhrase? .anyCase ["COMMENT"] (x :: rest)).isSome) : shown x ∉ marks := by
  refine not_mem_marks_of_meets ?_
  by_contra hmeets
  have hnone : afterKeywords? .anyCase ["COMMENT"] (x :: rest) = none := if_neg hmeets
  rw [afterPhrase?, hnone] at h
  cases h

theorem Passage.tableComment_eq {depth : Nat} {text plain : List Cell} {after : Mode}
    (h : Passage (.code .outside depth) text plain after) (htext : Unmarked text) :
    tableComment (Mask.reveal plain) = tableComment (Mask.reveal text) := by
  obtain ⟨after', hplain⟩ := h.refl_plain
  have hcells : Mask.cells (Mask.reveal text) = text := h.run_mask htext
  have hcells' : Mask.cells (Mask.reveal plain) = plain := hplain.run_mask (h.unmarked_plain htext)
  have hword : Option.Rel Annotated (afterFirst? ["COMMENT"] text)
      (afterFirst? ["COMMENT"] plain) :=
    h.findWord not_mem_marks_of_comment (fun h _ => h.afterPhrase? (by decide)) htext none
  simp only [tableComment, readComment, tailAfter?, hcells, hcells']
  generalize afterFirst? ["COMMENT"] text = found, afterFirst? ["COMMENT"] plain = found' at hword
  cases hword with
  | none => rfl
  | some hrest =>
      obtain ⟨hbehind, hhead⟩ := hrest.dropBlanks
      obtain ⟨hliteral, hhead⟩ := hbehind.afterEquals hhead
      simp only [Option.map_some, hliteral.read?_eq hhead]

end SchemaReader.Scan.Comment

namespace SchemaReader.Reading

open SchemaReader.Scan SchemaReader.Scan.Comment SchemaReader.Text

/-- The segment without descriptions in what it keeps of the text outside its parentheses. -/
def Segment.blank : Segment → Segment
  | .unclosed name => .unclosed (Comment.blank name)
  | .table name body options => .table (Comment.blank name) body (Comment.blank options)

def Segment.name : Segment → List Char
  | .unclosed name | .table name _ _ => name

def Segment.KeepsComment : Segment → Prop
  | .unclosed _ => True
  | .table _ _ options => tableComment (Comment.blank options) = tableComment options

theorem append_of_optionsFrom (before : Option Char) (out text : List Cell) :
    (optionsFrom before out text).1 ++ (optionsFrom before out text).2.rest =
      out.reverse ++ text := by
  fun_induction optionsFrom before out text with
  | case1 => simp
  | case2 => simp
  | case3 _ _ _ _ _ ih => simpa using ih

theorem segmentOf_blank {head plain : TableHead} (h : Headed head plain)
    (hopen : headShown head.body = some '(') (hname : Unmarked head.name)
    (hbody : Unmarked head.body) :
    (segmentOf plain).1 = (segmentOf head).1.blank ∧ (segmentOf head).1.KeepsComment ∧
      Alike (segmentOf head).2 (segmentOf plain).2 := by
  obtain ⟨start, between, depth, after, hnames, hbodies⟩ := h
  obtain ⟨hclosing, hclose⟩ := hbodies.closing? hopen
  have hnamed := hnames.reveal_plain hname
  unfold segmentOf
  rw [← hclosing]
  cases hfound : closing? head.body with
  | none =>
      obtain ⟨text, plain, htext, hplain, hinner⟩ := hbodies.of_open hopen
      refine ⟨by simp [Segment.blank, hnamed], trivial, ?_, .inr rfl⟩
      rw [htext, hplain]
      exact hinner.annotated
  | some close =>
      obtain ⟨htake, depth, hrest⟩ := hclose close hfound
      have hstart : Passage (.code .outside depth) [].reverse [].reverse (.code .outside depth) :=
        .nil
      obtain ⟨stop, hoptions, hplaces⟩ := hrest.optionsFrom hstart (some ')')
      have hall := append_of_optionsFrom (some ')') [] (head.body.drop (close + 1))
      have hinside : (optionsFrom (some ')') [] (head.body.drop (close + 1))).1 <:+: head.body := by
        refine List.IsInfix.trans ?_ (List.drop_suffix (close + 1) head.body).isInfix
        exact ⟨[], _, by simpa using hall⟩
      have hunmarked := hbody.of_isInfix hinside
      have hblank := hoptions.reveal_plain hunmarked
      refine ⟨by simp only [Segment.blank, hnamed, htake, hblank], ?_, hplaces⟩
      rw [Segment.KeepsComment, ← hblank]
      exact hoptions.tableComment_eq hunmarked

theorem suffix_of_nextSegment? {before : Option Char} {text : List Cell}
    {found : Segment × Place} (h : nextSegment? before text = some found) :
    found.2.rest <:+ text := by
  fun_induction nextSegment? before text with
  | case1 => cases h
  | case2 before x rest head hhead =>
      cases h
      have htable : tableHead? (x :: rest) = some head := by
        simp only [headAt?] at hhead
        split at hhead
        · exact hhead
        · cases hhead
      refine List.IsSuffix.trans ?_ (tableHead?_suffix htable)
      unfold segmentOf
      split
      · exact List.drop_suffix 1 _
      · exact (optionsFrom_suffix _ _ _).trans (List.drop_suffix _ _)
  | case3 before x rest hhead ih => exact (ih h).trans (List.suffix_cons x rest)

theorem name_of_namedTable? {text : List Cell} {head : TableHead}
    (h : namedTable? text = some head) : head.name <:+: text := by
  simp only [namedTable?, Option.bind_eq_some_iff, Prod.exists] at h
  obtain ⟨name, rest, hname, h⟩ := h
  split at h
  · cases h
    exact ⟨[], rest, Identifier.append_of_qualified? hname⟩
  · cases h

theorem name_of_tableHead? {text : List Cell} {head : TableHead}
    (h : tableHead? text = some head) : head.name <:+: text := by
  simp only [tableHead?, Option.bind_eq_some_iff, Option.or_eq_some_iff] at h
  obtain ⟨rest, hrest, named, hnamed, h⟩ := h
  have houter := ((afterBlanks?_suffix hnamed).trans (afterKeywords?_suffix hrest)).isInfix
  rcases h with ⟨after, hafter, h⟩ | ⟨-, h⟩
  · simp only [afterIfNotExists?, Option.bind_eq_some_iff] at hafter
    obtain ⟨gap, hgap, hafter⟩ := hafter
    have hinner := ((afterBlanks?_suffix hafter).trans (afterKeywords?_suffix hgap)).isInfix
    exact (name_of_namedTable? h).trans (hinner.trans houter)
  · exact (name_of_namedTable? h).trans houter

def Matched (head plain : TableHead) : Prop :=
  Headed head plain ∧ headShown head.body = some '(' ∧ Unmarked head.name ∧ Unmarked head.body

theorem matched_tableHead? {text plain : List Cell} (h : Annotated text plain)
    (htext : Unmarked text) : Option.Rel Matched (tableHead? text) (tableHead? plain) := by
  have hhead := h.tableHead?
  cases hfound : tableHead? text with
  | none =>
      rw [hfound] at hhead
      rw [eq_none_of_rel hhead]
      exact .none
  | some head =>
      rw [hfound] at hhead
      obtain ⟨head', hfound', hheaded⟩ := exists_of_rel hhead
      rw [hfound']
      exact .some ⟨hheaded, headShown_of_tableHead? hfound,
        htext.of_isInfix (name_of_tableHead? hfound),
        htext.of_isInfix (tableHead?_suffix hfound).isInfix⟩

theorem nextSegment?_eq_findWord (before : Option Char) (text : List Cell) :
    nextSegment? before text = (findWord tableHead? before text).map segmentOf := by
  induction text generalizing before with
  | nil => rfl
  | cons x rest ih =>
      rw [nextSegment?, findWord, headAt?]
      split <;> simp_all

def Blanked (found plain : Segment × Place) : Prop :=
  plain.1 = found.1.blank ∧ found.1.KeepsComment ∧ Alike found.2 plain.2

theorem nextSegment?_blank {place plain : Place} (h : Alike place plain)
    (hplace : Unmarked place.rest) :
    Option.Rel Blanked (nextSegment? place.before place.rest)
      (nextSegment? plain.before plain.rest) := by
  obtain ⟨⟨depth, after, hpassage⟩, hnil | hbefore⟩ := h
  · rw [hnil, hpassage.eq_nil hnil]
    exact .none
  · rw [hbefore, nextSegment?_eq_findWord, nextSegment?_eq_findWord]
    have hword := hpassage.findWord not_mem_marks_of_tableHead? matched_tableHead? hplace
      plain.before
    generalize findWord tableHead? plain.before place.rest = found,
      findWord tableHead? plain.before plain.rest = found' at hword
    cases hword with
    | none => exact .none
    | some hmatched =>
        obtain ⟨hheaded, hopen, hname, hbody⟩ := hmatched
        exact .some (segmentOf_blank hheaded hopen hname hbody)

theorem segmentsFrom_blank {place plain : Place} (h : Alike place plain)
    (hplace : Unmarked place.rest) :
    segmentsFrom [] plain = (segmentsFrom [] place).map Segment.blank ∧
      ∀ segment ∈ segmentsFrom [] place, segment.KeepsComment := by
  induction hlength : place.rest.length using Nat.strongRecOn generalizing place plain with
  | ind length ih =>
      have hnext := nextSegment?_blank h hplace
      cases hfound : nextSegment? place.before place.rest with
      | none =>
          rw [hfound] at hnext
          rw [segmentsFrom_of_none hfound, segmentsFrom_of_none (eq_none_of_rel hnext)]
          exact ⟨rfl, by simp⟩
      | some found =>
          obtain ⟨segment, next⟩ := found
          rw [hfound] at hnext
          obtain ⟨⟨segment', next'⟩, hfound', hsegment, hkeeps, hplaces⟩ := exists_of_rel hnext
          have hshorter := hlength ▸ length_lt_of_nextSegment? hfound
          have hrest := hplace.of_isInfix (suffix_of_nextSegment? hfound).isInfix
          obtain ⟨hsegments, hall⟩ := ih _ hshorter hplaces hrest rfl
          rw [segmentsFrom_of_some hfound, segmentsFrom_of_some hfound',
            segmentsFrom_eq_append [segment], segmentsFrom_eq_append [segment'], hsegments]
          refine ⟨by simpa using hsegment, ?_⟩
          simpa using ⟨hkeeps, hall⟩

theorem segments_blank (text : List Char) :
    segments (Comment.strip (Comment.blank text)) =
        (segments (Comment.strip text)).map Segment.blank ∧
      ∀ segment ∈ segments (Comment.strip text), segment.KeepsComment := by
  obtain ⟨after, hpassage⟩ := passage_cells text
  rw [strip_blank]
  exact segmentsFrom_blank ⟨hpassage.annotated, .inr rfl⟩ (unmarked_cells isDescription text)

theorem readTable_congr {first second : List Char} (h : tableComment first = tableComment second)
    (options : ReadOptions) (name body : List Char) :
    readTable options name body first = readTable options name body second := by
  rw [readTable, readTable, h]

theorem readSegmentsFrom_blank (options : ReadOptions) {found : List Segment}
    (hkeeps : ∀ segment ∈ found, segment.KeepsComment)
    (hname : ∀ segment ∈ found, segment.blank.name = segment.name) (journal : List Entry)
    (tables : List Schema.Table) :
    readSegmentsFrom options journal tables (found.map Segment.blank) =
      readSegmentsFrom options journal tables found := by
  induction found generalizing journal tables with
  | nil => rfl
  | cons segment found ih =>
      have hrest := ih (fun s hs => hkeeps s (List.mem_cons_of_mem _ hs))
        (fun s hs => hname s (List.mem_cons_of_mem _ hs))
      have hkept := hkeeps segment List.mem_cons_self
      have hsame := hname segment List.mem_cons_self
      cases segment with
      | unclosed name =>
          have hsame : Comment.blank name = name := hsame
          simp only [List.map_cons, Segment.blank, readSegmentsFrom, hsame, hrest]
      | table name body tableOptions =>
          have hsame : Comment.blank name = name := hsame
          have htable := readTable_congr hkept options (Identifier.lastPart name) body
          simp only [List.map_cons, Segment.blank, readSegmentsFrom, hsame, htable, hrest]

/-- The definitions of a script are those of the script without any comment, up to the descriptions
in their names and table options.  If there are none in the names, the same tables are read. -/
theorem readTables_blank (options : ReadOptions) (text : List Char) :
    segments (Comment.strip (Comment.blank text)) =
        (segments (Comment.strip text)).map Segment.blank ∧
      ((∀ segment ∈ segments (Comment.strip text), segment.blank.name = segment.name) →
        readTables options (Comment.strip (Comment.blank text)) =
          readTables options (Comment.strip text)) := by
  obtain ⟨hsegments, hkeeps⟩ := segments_blank text
  refine ⟨hsegments, fun hname => ?_⟩
  rw [readTables, hsegments]
  exact readSegmentsFrom_blank options hkeeps hname [] []

/-- Descriptions with an open quote and a semicolon, between two definitions and before the options
of the second. -/
def exampleDescribed : List Char :=
  "CREATE TABLE a (x INT);\n".toList ++ "-- table it's; (\n".toList ++
    "CREATE TABLE b (y INT)\n".toList ++ "-- table b;\nCOMMENT='n';".toList

theorem readTables_blank_descriptions_between_definitions :
    Comment.strip (Comment.blank exampleDescribed) ≠ Comment.strip exampleDescribed ∧
      readTables {} (Comment.strip (Comment.blank exampleDescribed)) =
        readTables {} (Comment.strip exampleDescribed) ∧
      (readTables {} (Comment.strip exampleDescribed)).result.map
          (·.map fun table => (table.name, table.comment)) =
        .ok [("a", ""), ("b", "n")] := by
  have hname : ∀ segment ∈ segments (Comment.strip exampleDescribed),
      segment.blank.name = segment.name := by
    decide +kernel
  refine ⟨by decide +kernel, (readTables_blank {} exampleDescribed).2 hname, ?_⟩
  decide +kernel

/-- A description between the parts of a name becomes part of the name. -/
example : segments (Comment.strip "CREATE TABLE a.--table\nb (x INT);".toList) =
      [.table "a.--table\nb".toList "x INT".toList []] ∧
    segments (Comment.strip (Comment.blank "CREATE TABLE a.--table\nb (x INT);".toList)) =
      [.table "a.\nb".toList "x INT".toList []] := by
  decide +kernel

end SchemaReader.Reading

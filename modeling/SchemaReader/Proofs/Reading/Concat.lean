import SchemaReader.Proofs.Reading.Depth
import SchemaReader.Proofs.Reading.Segments

/-!
# Scripts one after the other

A script that ends a statement outside quotes, comments and parentheses can be
followed by any other script: the tables of the two together are the tables of
the first and then those of the second.
-/

namespace SchemaReader.Reading

open SchemaReader.Scan SchemaReader.Text

def ending : List Cell := [⟨';', false⟩, ⟨'\n', false⟩]

/-- With the end of a statement after it, the text closes its quotes, and `later` closes none of
its parentheses. -/
structure Finished (later cells : List Cell) : Prop where
  tidy : ∃ quote, Tidy quote (cells ++ ending)
  noBracket : ∀ x ∈ cells, shown x ≠ '['
  closing : ∀ body, body <:+ cells ++ ending → headShown body = some '(' → Tidy none body →
    closing? (body ++ later) = closing? body

theorem exists_tidy_of_append {quote : Option Delimiter} {first second : List Cell}
    (h : Tidy quote (first ++ second)) : ∃ quote, Tidy quote second := by
  induction first generalizing quote with
  | nil => exact ⟨quote, h⟩
  | cons x first ih =>
      cases quote with
      | none => exact ih h
      | some d =>
          rcases h with ⟨-, h⟩ | ⟨-, h⟩
          · exact ih h
          · exact ih h

theorem Finished.of_append {later second : List Cell} (first : List Cell)
    (h : Finished later (first ++ second)) : Finished later second where
  tidy := by
    obtain ⟨quote, htidy⟩ := h.tidy
    rw [List.append_assoc] at htidy
    exact exists_tidy_of_append htidy
  noBracket x hx := h.noBracket x (by simp [hx])
  closing body hbody := h.closing body (hbody.trans ⟨first, by simp⟩)

theorem Finished.settled {later cells : List Cell} (h : Finished later cells)
    (htidy : Tidy none (cells ++ ending)) : Settled (cells ++ ending) where
  tidy := htidy
  noBracket x hx := by
    rcases List.mem_append.1 hx with hx | hx
    · exact h.noBracket x hx
    · simp only [ending, List.mem_cons, List.not_mem_nil, or_false] at hx
      rcases hx with rfl | rfl <;> decide
  semicolon := ⟨⟨';', false⟩, by simp [ending], rfl⟩

theorem eq_append_ending_of_suffix {cells rest : List Cell} (h : rest <:+ cells ++ ending)
    (hsemicolon : ∃ x ∈ rest, shown x = ';') :
    ∃ before after, cells = before ++ after ∧ rest = after ++ ending := by
  obtain ⟨taken, htaken⟩ := h
  rcases List.append_eq_append_iff.1 htaken with ⟨after, hcells, hrest⟩ | ⟨more, htaken, hending⟩
  · exact ⟨taken, after, hcells, hrest⟩
  · obtain ⟨x, hx, hshown⟩ := hsemicolon
    rcases more with _ | ⟨y, _ | ⟨z, more⟩⟩
    · exact ⟨cells, [], by simp, by simpa using hending.symm⟩
    · simp only [ending, List.cons_append, List.nil_append, List.cons.injEq] at hending
      rw [← hending.2, List.mem_singleton] at hx
      rw [hx] at hshown
      exact absurd hshown (by decide)
    · have hempty : rest = [] := by
        simp only [ending, List.cons_append, List.cons.injEq, List.nil_eq,
          List.append_eq_nil_iff] at hending
        exact hending.2.2.2
      simp [hempty] at hx

def Place.extend (later : List Cell) (place : Place) : Place :=
  ⟨place.before, place.rest ++ later⟩

/-- The place stands before the end of the statement that `later` follows. -/
def Place.Ahead (later : List Cell) (place : Place) : Prop :=
  ∃ cells, place.rest = cells ++ ending ∧ Finished later cells

section Later

variable {later : List Cell}

theorem Finished.tableHead?_append {cells : List Cell} (h : Finished later cells) :
    (∀ head, tableHead? (cells ++ ending) = some head →
      Tidy none head.body ∧ ∃ body, head.body = body ++ ending ∧ Finished later body) ∧
    tableHead? (cells ++ ending ++ later) =
      (tableHead? (cells ++ ending)).map (TableHead.extend later) := by
  obtain ⟨quote, htidy⟩ := h.tidy
  cases quote with
  | none =>
      obtain ⟨hsettled, happend⟩ := (h.settled htidy).tableHead?_append later
      refine ⟨?_, happend⟩
      intro head hhead
      have hbody := hsettled head hhead
      obtain ⟨before, body, rfl, heq⟩ :=
        eq_append_ending_of_suffix (tableHead?_suffix hhead) hbody.semicolon
      exact ⟨hbody.tidy, body, heq, h.of_append before⟩
  | some d =>
      -- Inside a section nothing but blanks and its delimiter is visible, so no head starts there.
      have hnone : ∀ text, headShown text = headShown (cells ++ ending) →
          tableHead? text = none := by
        intro text htext
        cases hhead : tableHead? text with
        | none => rfl
        | some head =>
            obtain ⟨c, hc, hmeets⟩ := meets_of_tableHead? hhead
            rw [htext] at hc
            rcases hcells : cells ++ ending with _ | ⟨x, rest⟩
            · simp [ending] at hcells
            · rw [hcells] at hc htidy
              obtain rfl : shown x = c := by simpa [headShown] using hc
              rcases htidy with ⟨hx, -⟩ | ⟨hx, -⟩
              · rw [hx] at hmeets
                exact absurd hmeets (by cases d <;> decide)
              · rw [hx] at hmeets
                exact absurd hmeets (by decide)
      have hlater : headShown (cells ++ ending ++ later) = headShown (cells ++ ending) := by
        cases cells <;> rfl
      rw [hnone _ rfl, hnone _ hlater]
      simp

theorem Finished.headAt?_append {cells : List Cell} (h : Finished later cells)
    (before : Option Char) :
    (∀ head, headAt? before (cells ++ ending) = some head →
      Tidy none head.body ∧ ∃ body, head.body = body ++ ending ∧ Finished later body) ∧
    headAt? before (cells ++ ending ++ later) =
      (headAt? before (cells ++ ending)).map (TableHead.extend later) := by
  unfold headAt?
  split
  · exact h.tableHead?_append
  · simp

theorem Finished.optionsFrom_append {cells : List Cell} (h : Finished later cells)
    (before : Option Char) (out : List Cell) :
    (optionsFrom before out (cells ++ ending)).2.Ahead later ∧
      optionsFrom before out (cells ++ ending ++ later) =
        ((optionsFrom before out (cells ++ ending)).1,
          (optionsFrom before out (cells ++ ending)).2.extend later) := by
  induction cells generalizing before out with
  | nil =>
      have hstop : ∀ rest, optionsFrom before out (⟨';', false⟩ :: rest) =
          (out.reverse, ⟨before, ⟨';', false⟩ :: rest⟩) := by
        intro rest
        rw [optionsFrom, if_pos (by simp [shown, Cell.shown])]
      refine ⟨⟨[], ?_, h⟩, ?_⟩
      · exact congrArg (·.2.rest) (hstop _)
      · simp only [ending, List.nil_append, List.cons_append, hstop]
        rfl
  | cons x cells ih =>
      obtain ⟨-, happend⟩ := h.headAt?_append before
      have htail : Finished later cells := h.of_append [x]
      simp only [List.cons_append] at happend ⊢
      simp only [optionsFrom, happend, Option.isSome_map]
      split
      · exact ⟨⟨x :: cells, rfl, h⟩, rfl⟩
      · exact ih htail _ _

theorem Finished.segmentOf_append {head : TableHead} {body : List Cell} (h : Finished later body)
    (hbody : head.body = body ++ ending) (hopen : headShown head.body = some '(')
    (htidy : Tidy none head.body) :
    (segmentOf head).2.Ahead later ∧
      segmentOf (head.extend later) = ((segmentOf head).1, (segmentOf head).2.extend later) := by
  have hlater : closing? (head.body ++ later) = closing? head.body :=
    h.closing head.body ⟨[], by simp [hbody]⟩ hopen htidy
  cases hclose : closing? head.body with
  | none =>
      simp only [segmentOf, TableHead.extend, hlater, hclose]
      cases body with
      | nil =>
          rw [hbody] at hopen
          exact absurd hopen (by decide)
      | cons x body =>
          rw [hbody]
          exact ⟨⟨body, rfl, h.of_append [x]⟩, rfl⟩
  | some close =>
      obtain ⟨before, x, after, hsplit, rfl, hx⟩ := closing?_eq_some hclose
      -- The parenthesis is not part of the ending, so the options still reach a semicolon.
      obtain ⟨options, rfl, hoptions⟩ :
          ∃ options, after = options ++ ending ∧ Finished later options := by
        rw [hbody] at hsplit
        rcases List.append_eq_append_iff.1 hsplit with ⟨more, rfl, hending⟩ | ⟨more, rfl, hrest⟩
        · have hmem : x ∈ ending := by simp [hending]
          simp only [ending, List.mem_cons, List.not_mem_nil, or_false] at hmem
          rcases hmem with rfl | rfl <;> exact absurd hx (by decide)
        · rcases more with _ | ⟨y, options⟩
          · simp only [ending, List.nil_append, List.cons.injEq] at hrest
            rw [hrest.1] at hx
            exact absurd hx (by decide)
          · simp only [List.cons_append, List.cons.injEq] at hrest
            exact ⟨options, hrest.2, Finished.of_append (before ++ [y]) (by simpa using h)⟩
      have hdrop : head.body.drop (before.length + 1) = options ++ ending := by
        rw [hsplit]
        simp
      have htake : ((head.body ++ later).take before.length).drop 1 =
          (head.body.take before.length).drop 1 := by
        rw [List.take_append_of_le_length (by rw [hsplit]; simp)]
      have hdropLater :
          (head.body ++ later).drop (before.length + 1) = options ++ ending ++ later := by
        rw [List.drop_append_of_le_length (by rw [hsplit]; simp), hdrop]
      obtain ⟨hahead, happend⟩ := hoptions.optionsFrom_append (some ')') []
      simp only [segmentOf, TableHead.extend, hlater, hclose, hdrop, hdropLater, htake, happend]
      exact ⟨hahead, trivial⟩

theorem Finished.nextSegment?_append {cells : List Cell} (h : Finished later cells)
    (before : Option Char) :
    match nextSegment? before (cells ++ ending) with
    | none => nextSegment? before (cells ++ ending ++ later) = nextSegment? (some '\n') later
    | some (segment, place) =>
        place.Ahead later ∧
          nextSegment? before (cells ++ ending ++ later) = some (segment, place.extend later) := by
  induction cells generalizing before with
  | nil =>
      have hsemicolon : ¬ Letters.anyCase.meets 'C' (shown (⟨';', false⟩ : Cell)) := by decide
      have hbreak : ¬ Letters.anyCase.meets 'C' (shown (⟨'\n', false⟩ : Cell)) := by decide
      simp [ending, nextSegment?, headAt?_of_not_meets hsemicolon, headAt?_of_not_meets hbreak,
        shown, Cell.shown]
  | cons x cells ih =>
      obtain ⟨hbody, happend⟩ := h.headAt?_append before
      have htail : Finished later cells := h.of_append [x]
      simp only [List.cons_append] at hbody happend ⊢
      simp only [nextSegment?, happend]
      cases hhead : headAt? before (x :: (cells ++ ending)) with
      | none => exact ih htail (some (shown x))
      | some head =>
          obtain ⟨htidy, body, heq, hfinished⟩ := hbody head hhead
          have hopen := headShown_of_tableHead? (tableHead?_of_headAt? hhead)
          obtain ⟨hahead, hsegment⟩ := hfinished.segmentOf_append heq hopen htidy
          exact ⟨hahead, congrArg some hsegment⟩

theorem Place.Ahead.segmentsFrom_append {place : Place} (h : place.Ahead later) :
    segmentsFrom [] (place.extend later) =
      segmentsFrom [] place ++ segmentsFrom [] ⟨some '\n', later⟩ := by
  induction hlength : place.rest.length using Nat.strongRecOn generalizing place with
  | ind length ih =>
      obtain ⟨cells, hrest, hfinished⟩ := h
      have hstep := hfinished.nextSegment?_append place.before
      rw [← hrest] at hstep
      cases hnext : nextSegment? place.before place.rest with
      | none =>
          simp only [hnext] at hstep
          rw [segmentsFrom_of_none hnext, List.reverse_nil, List.nil_append]
          exact segmentsFrom_congr hstep
      | some found =>
          obtain ⟨segment, next⟩ := found
          simp only [hnext] at hstep
          have hshorter : next.rest.length < length := hlength ▸ length_lt_of_nextSegment? hnext
          have hextend : segmentsFrom [] (place.extend later) =
              segmentsFrom [segment] (next.extend later) := segmentsFrom_of_some hstep.2 []
          rw [segmentsFrom_of_some hnext, hextend, segmentsFrom_eq_append,
            segmentsFrom_eq_append [segment], ih _ hshorter hstep.1 rfl]
          simp

end Later

/-- The scan of `front` stands outside quotes, comments and parentheses before a semicolon. -/
def EndsStatement (front : List Char) : Prop :=
  (Comment.stripper Comment.isDescription).state (some ';') (.code .outside 0) front =
    .code .outside 0

def veiled (front : List Char) : List Cell :=
  (Comment.veil Comment.isDescription).written (some ';') (.code .outside 0) front

/-! The scan of a script may also leave parentheses open at its last semicolon. -/

section Front

variable {front : List Char} {depth : Nat}

theorem tidy_veiled (h : (Comment.stripper Comment.isDescription).state (some ';')
    (.code .outside 0) front = .code .outside depth) : Tidy none (veiled front ++ ending) := by
  have hsections :=
    Comment.sections_written Comment.isDescription (some ';') (.code .outside 0) front
  rw [h] at hsections
  have hending : Tidy none ending := trivial
  exact hsections.tidy_append hending

theorem shown_ne_bracket_of_mem_veiled (hbracket : '[' ∉ front) :
    ∀ x ∈ veiled front, shown x ≠ '[' := by
  intro x hx
  rcases Comment.shown_of_mem_written hx with hshown | hshown
  · rw [hshown]
    decide
  · exact fun hx => hbracket (hx ▸ hshown)

theorem cells_strip_append (h : (Comment.stripper Comment.isDescription).state (some ';')
    (.code .outside 0) front = .code .outside depth) (later : List Char) :
    Mask.cells (Comment.strip (front ++ [';', '\n'] ++ later)) =
      veiled front ++ ending ++
        (Comment.veil Comment.isDescription).run (.code .outside depth) later := by
  have hending : (Comment.veil Comment.isDescription).run (.code .outside depth)
      (';' :: '\n' :: later) = ending ++
        (Comment.veil Comment.isDescription).run (.code .outside depth) later := by
    rw [Transducer.run_cons, Transducer.run_cons]
    rfl
  rw [Comment.strip, Comment.cells_stripWith, List.append_assoc, Transducer.run_append]
  simp only [List.cons_append, List.nil_append, List.head?_cons, Comment.veil_state, h, hending,
    List.append_assoc]
  rfl

theorem segments_append_of_finished {later : List Char}
    (h : (Comment.stripper Comment.isDescription).state (some ';') (.code .outside 0) front =
      .code .outside depth)
    (halone : (Comment.veil Comment.isDescription).run (.code .outside depth) later =
      Mask.cells (Comment.strip later))
    (hfinished : Finished (Mask.cells (Comment.strip later)) (veiled front)) :
    segments (Comment.strip (front ++ [';', '\n'] ++ later)) =
      segments (Comment.strip (front ++ [';', '\n'])) ++ segments (Comment.strip later) := by
  have hfront : Mask.cells (Comment.strip (front ++ [';', '\n'])) = veiled front ++ ending := by
    simpa [Comment.finish, hide] using cells_strip_append h []
  have hahead : Place.Ahead (Mask.cells (Comment.strip later)) ⟨none, veiled front ++ ending⟩ :=
    ⟨_, rfl, hfinished⟩
  rw [segments, segments, segments, cells_strip_append h, halone, hfront]
  rw [← segmentsFrom_of_boundary (some '\n') (by decide) (Mask.cells _)]
  exact hahead.segmentsFrom_append

end Front

theorem EndsStatement.finished {front : List Char} (h : EndsStatement front)
    (hbracket : '[' ∉ front) (later : List Cell) : Finished later (veiled front) where
  tidy := ⟨none, tidy_veiled h⟩
  noBracket := shown_ne_bracket_of_mem_veiled hbracket
  closing body hbody hopen htidy := by
    obtain ⟨taken, htaken⟩ := hbody
    have hdepth : Comment.depthOver 0 (veiled front ++ ending) = 0 := by
      have hfront := Comment.depthOver_written Comment.isDescription (some ';')
        (.code .outside 0) front
      rw [h] at hfront
      rw [Comment.depthOver_append]
      exact congrArg (Comment.depthOver · ending) hfront
    rw [← htaken, Comment.depthOver_append] at hdepth
    obtain ⟨close, hclose⟩ := Option.isSome_iff_exists.1
      (isSome_closing? htidy.sectioned hopen hdepth)
    rw [hclose, closing?_append hclose]

theorem EndsStatement.segments_append {front : List Char} (h : EndsStatement front)
    (hbracket : '[' ∉ front) (later : List Char) :
    segments (Comment.strip (front ++ [';', '\n'] ++ later)) =
      segments (Comment.strip (front ++ [';', '\n'])) ++ segments (Comment.strip later) :=
  segments_append_of_finished h (Comment.cells_stripWith _ later).symm (h.finished hbracket _)

/-- The tables of two scripts, the first of which ends a statement, are those of the first and then
those of the second; a fault of the first is the fault of both. -/
theorem readTables_append (options : ReadOptions) (front later : List Char)
    (hbracket : '[' ∉ front) (hend : EndsStatement front) :
    (readTables options (Comment.strip (front ++ [';', '\n'] ++ later))).result =
      (do
        let before ← (readTables options (Comment.strip (front ++ [';', '\n']))).result
        let after ← (readTables options (Comment.strip later)).result
        return before ++ after) := by
  rw [readTables, readTables, readTables, hend.segments_append hbracket]
  exact result_readSegments_append options _ _

theorem readTables_append_quoted_semicolon :
    '[' ∉ "-- table\nCREATE TABLE a (b INT DEFAULT ';(')".toList ∧
      EndsStatement "-- table\nCREATE TABLE a (b INT DEFAULT ';(')".toList ∧
      (readTables {} (Comment.strip ("-- table\nCREATE TABLE a (b INT DEFAULT ';(')".toList ++
        [';', '\n'] ++ "CREATE TABLE c (d INT)".toList))).result =
      (do
        let before ← (readTables {} (Comment.strip
          ("-- table\nCREATE TABLE a (b INT DEFAULT ';(')".toList ++ [';', '\n']))).result
        let after ← (readTables {} (Comment.strip "CREATE TABLE c (d INT)".toList)).result
        return before ++ after) :=
  ⟨by decide, rfl, readTables_append {} _ _ (by decide) rfl⟩

end SchemaReader.Reading

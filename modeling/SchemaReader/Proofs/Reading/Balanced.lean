import SchemaReader.Proofs.Fallible
import SchemaReader.Proofs.Reading.Concat
import SchemaReader.Proofs.Reading.Rounds
import SchemaReader.Proofs.Scan.Nesting

/-!
# Scripts whose parentheses are balanced

The check of a script counts the parentheses of the whole text, while the search
for definitions matches one parenthesis at a time from the middle of the masked
script.  In a script that passes the check every definition is closed, so none
is passed over, and reading finds no table only if no definition starts anywhere.
-/

namespace SchemaReader.Reading

open SchemaReader.Scan SchemaReader.Text

theorem isSome_closing?_of_wellNested {script : List Char}
    (h : WellNested (Balance.visibleParens script)) {body : List Cell}
    (hbody : body <:+ Mask.cells (Comment.strip script)) (hopen : headShown body = some '(') :
    (closing? body).isSome := by
  obtain ⟨before, hbefore⟩ := hbody
  obtain ⟨x, rest, rfl⟩ : ∃ x rest, body = x :: rest := by
    cases body with
    | nil => cases hopen
    | cons x rest => exact ⟨x, rest, rfl⟩
  have hx : shown x = '(' := by simpa [headShown] using hopen
  rw [Comment.strip, Comment.cells_stripWith] at hbefore
  have hsections := Comment.sectioned_run Comment.isDescription (.code .outside 0) script
  have hdepth : Comment.depthOver 0
      ((Comment.veil Comment.isDescription).run (.code .outside 0) script) = 0 := by
    apply Comment.depthOver_of_wellNested
    rw [← Balance.visibleParens_eq]
    exact h
  rw [← hbefore] at hsections hdepth
  rw [Comment.depthOver_append] at hdepth
  refine isSome_closing? (hsections.of_append_visible ?_ ?_) hopen hdepth
  · rw [hx]
    decide
  · rw [hx]
    rfl

theorem Round.exists_close {script : List Char} (h : WellNested (Balance.visibleParens script))
    {pos : Nat} {visit : Visit} (hround : Round (Mask.cells (Comment.strip script)) pos visit) :
    ∃ close, visit.close = some close := by
  obtain ⟨close, hclose⟩ := Option.isSome_iff_exists.1
    (isSome_closing?_of_wellNested h (List.drop_suffix _ _) hround.headShown_opening)
  exact ⟨visit.opening + close, by rw [hround.close_eq_closing?, hclose, Option.map_some]⟩

def AllClosed (found : List Segment) : Prop := ∀ name, .unclosed name ∉ found

theorem AllClosed.tail {segment : Segment} {found : List Segment}
    (h : AllClosed (segment :: found)) : AllClosed found :=
  fun name hname => h name (List.mem_cons_of_mem _ hname)

theorem unclosedNote_ne {name : List Char} {entry : Entry}
    (h : entry.message.toList.head? = some 'T') : unclosedNote name ≠ entry := by
  rintro rfl
  simp [unclosedNote, toString] at h

theorem unclosedNote_not_mem_columnsNote (name other : List Char) (columns : List Schema.Column) :
    unclosedNote name ∉ columnsNote other columns := by
  unfold columnsNote
  split
  · rw [List.mem_singleton]
    exact unclosedNote_ne (by simp [toString])
  · exact List.not_mem_nil

theorem unclosedNote_not_mem_duplicateNotes (name : List Char) (tables : List Schema.Table) :
    unclosedNote name ∉ duplicateNotes tables := by
  intro hmem
  obtain ⟨⟨other, count⟩, -, hnote⟩ := List.mem_filterMap.1 hmem
  dsimp only at hnote
  split at hnote
  · exact unclosedNote_ne (by simp [toString]) (Option.some.inj hnote).symm
  · cases hnote

theorem AllClosed.unclosedNote_not_mem {found : List Segment} (h : AllClosed found)
    (options : ReadOptions) (name : List Char) :
    unclosedNote name ∉ (readSegments options found).journal := by
  intro hmem
  rcases mem_journal_readSegments hmem with ⟨other, hother, -⟩ | ⟨other, body, _, -, hentry⟩
  · exact h other hother
  · unfold readTable at hentry
    dsimp only at hentry
    split at hentry
    · cases hentry
    · exact unclosedNote_not_mem_columnsNote _ _ _ hentry

theorem AllClosed.length_eq {found : List Segment} (h : AllClosed found) {options : ReadOptions}
    {tables : List Schema.Table} (hread : (readSegments options found).result = .ok tables) :
    tables.length = found.length := by
  induction found generalizing tables with
  | nil =>
      cases hread
      rfl
  | cons segment found ih =>
      cases segment with
      | unclosed name => exact absurd List.mem_cons_self (h name)
      | table name body tableOptions =>
          rw [result_readSegments_table] at hread
          obtain ⟨table, -, hread⟩ := exists_of_bind_ok hread
          obtain ⟨rest, hrest, hread⟩ := exists_of_bind_ok hread
          cases hread
          simp [ih h.tail hrest]

theorem result_readTable_ne_noTable (options : ReadOptions) (name body tableOptions : List Char) :
    (readTable options name body tableOptions).result ≠ .error .noTable := by
  unfold readTable
  dsimp only
  split
  · simp
  · split <;> simp

theorem result_readSegments_ne_noTable (options : ReadOptions) (found : List Segment) :
    (readSegments options found).result ≠ .error .noTable := by
  intro h
  obtain ⟨name, body, tableOptions, -, htable⟩ := exists_table_of_error h
  exact result_readTable_ne_noTable _ _ _ _ htable

theorem result_readScript_eq_noTable_iff (options : ReadOptions) (text : List Char) :
    (readScript options text).result = .error .noTable ↔
      (readTables options (Comment.strip text)).result = .ok [] := by
  unfold readScript
  dsimp only
  split
  · rename_i fault hread
    have hne := result_readSegments_ne_noTable options (segments (Comment.strip text))
    rw [readTables] at hread ⊢
    rw [hread] at hne ⊢
    simpa using hne
  · simp_all
  · rename_i found hne hread
    rw [hread]
    simpa using hne

theorem wellNested_of_verdict {limit : Int} {script : String}
    (h : verdict limit (.text script) = none) :
    WellNested (Balance.visibleParens script.toList) := by
  have hdefect : Balance.parenDefect? (.code none) 0 script.toList = none := by
    simp only [verdict, Option.map_eq_none_iff, Balance.defect?] at h
    split at h
    · cases h
    · split at h
      · cases h
      · exact h
  rw [Balance.parenDefect?_eq Comment.isDescription (.code .outside 0) (.code none) 0 _
    (by simp [Balance.Agrees]), ← Balance.visibleParens_eq] at hdefect
  exact (Balance.nestingDefect?_spec 0 _ (Nat.zero_le _)
    fun c hc => (List.mem_filter.1 hc).2).1.1 hdefect

theorem defectNote_of_verdict {script : String}
    (h : verdict Balance.defaultLimit (.text script) = none) : defectNote script.toList = [] := by
  simp only [verdict, Option.map_eq_none_iff] at h
  rw [defectNote, h]

theorem AllClosed.unclosedNote_not_mem_readScript {script : String}
    (h : AllClosed (segments (Comment.strip script.toList)))
    (hverdict : verdict Balance.defaultLimit (.text script) = none) (options : ReadOptions)
    (name : List Char) : unclosedNote name ∉ (readScript options script.toList).journal := by
  have htables : unclosedNote name ∉ (readTables options (Comment.strip script.toList)).journal :=
    h.unclosedNote_not_mem options name
  unfold readScript
  rw [defectNote_of_verdict hverdict]
  dsimp only
  split
  · simpa using htables
  · simpa using htables
  · rename_i found _ _
    have hcount : unclosedNote name ≠ countNote found := by
      simp [unclosedNote, countNote]
    simp [htables, unclosedNote_not_mem_duplicateNotes, hcount]

theorem Rounds.exists_close {script : List Char} {visits : List Visit}
    (h : Rounds (Mask.cells (Comment.strip script)) 0 visits)
    (hnested : WellNested (Balance.visibleParens script)) :
    ∀ visit ∈ visits, ∃ close, visit.close = some close := by
  intro visit hvisit
  obtain ⟨pos, hround⟩ := h.exists_round visit hvisit
  exact hround.exists_close hnested

theorem Rounds.allClosed {cells : List Cell} {pos : Nat} {visits : List Visit}
    (h : Rounds cells pos visits) (hclose : ∀ visit ∈ visits, ∃ close, visit.close = some close) :
    AllClosed (visits.map (·.segment)) := by
  intro name hname
  obtain ⟨visit, hvisit, hsegment⟩ := List.mem_map.1 hname
  obtain ⟨close, hclose⟩ := hclose visit hvisit
  obtain ⟨start, hround⟩ := h.exists_round visit hvisit
  obtain ⟨written, -, hreads⟩ := hround.reads
  rw [Visit.Reads, hclose] at hreads
  rw [hreads.2] at hsegment
  cases hsegment

theorem Rounds.eq_nil_iff {cells : List Cell} {visits : List Visit} (h : Rounds cells 0 visits) :
    visits = [] ↔ ∀ offset, ¬ MatchesAt cells offset := by
  constructor
  · rintro rfl offset hmatch
    obtain ⟨visit, hvisit, -⟩ := h.covers (Nat.zero_le _) hmatch
    cases hvisit
  · intro hnone
    cases h with
    | done => rfl
    | @round _ visit visits hround hrest =>
        obtain ⟨name, hhead, -⟩ := hround.reads
        refine absurd ?_ (hnone visit.start)
        rw [MatchesAt, hhead]
        rfl

theorem AllClosed.result_eq_nil_iff {found : List Segment} (h : AllClosed found)
    (options : ReadOptions) : (readSegments options found).result = .ok [] ↔ found = [] := by
  constructor
  · intro hread
    exact List.length_eq_zero_iff.1 (h.length_eq hread).symm
  · rintro rfl
    rfl

theorem exists_rounds (script : List Char) :
    ∃ visits, Rounds (Mask.cells script) 0 visits ∧ segments script = visits.map (·.segment) :=
  segmentsFrom_eq (Mask.cells script) [] ⟨none, Mask.cells script⟩ 0 rfl (Nat.zero_le _)

/-- In a script that passes the check, every round of the search closes its definition, and none is
passed over.  Reading gives one table for each round, unless the table of a round cannot be read;
and it finds no table only if no definition starts anywhere. -/
theorem rounds_closed_of_verdict (options : ReadOptions) (script : String)
    (hverdict : verdict Balance.defaultLimit (.text script) = none) :
    ∃ visits, Rounds (Mask.cells (Comment.strip script.toList)) 0 visits ∧
      segments (Comment.strip script.toList) = visits.map (·.segment) ∧
      (∀ visit ∈ visits, ∃ close, visit.close = some close) ∧
      (∀ name, unclosedNote name ∉ (readScript options script.toList).journal) ∧
      (∀ tables, (readTables options (Comment.strip script.toList)).result = .ok tables →
        tables.length = visits.length) ∧
      (∀ fault, (readTables options (Comment.strip script.toList)).result = .error fault →
        ∃ visit ∈ visits, ∃ name body tableOptions,
          visit.segment = .table name body tableOptions ∧
            (readTable options (Identifier.lastPart name) body tableOptions).result =
              .error fault) ∧
      ((readScript options script.toList).result = .error .noTable ↔
        ∀ offset, ¬ MatchesAt (Mask.cells (Comment.strip script.toList)) offset) := by
  obtain ⟨visits, hrounds, hsegments⟩ := exists_rounds (Comment.strip script.toList)
  have hclose := hrounds.exists_close (wellNested_of_verdict hverdict)
  have hclosed : AllClosed (segments (Comment.strip script.toList)) :=
    hsegments ▸ hrounds.allClosed hclose
  refine ⟨visits, hrounds, hsegments, hclose, ?_, ?_, ?_, ?_⟩
  · exact hclosed.unclosedNote_not_mem_readScript hverdict options
  · intro tables htables
    rw [hclosed.length_eq htables, hsegments, List.length_map]
  · intro fault hfault
    obtain ⟨name, body, tableOptions, hmem, htable⟩ := exists_table_of_error hfault
    rw [hsegments] at hmem
    obtain ⟨visit, hvisit, hsegment⟩ := List.mem_map.1 hmem
    exact ⟨visit, hvisit, name, body, tableOptions, hsegment, htable⟩
  · rw [result_readScript_eq_noTable_iff, readTables, hclosed.result_eq_nil_iff options, hsegments,
      List.map_eq_nil_iff, hrounds.eq_nil_iff]

theorem rounds_closed_of_verdict_hidden_parens :
    verdict Balance.defaultLimit (.text "-- table :(\nCREATE TABLE t (a INT DEFAULT ')')") = none ∧
      ∃ visits, Rounds (Mask.cells (Comment.strip
          "-- table :(\nCREATE TABLE t (a INT DEFAULT ')')".toList)) 0 visits ∧
        visits.length = 1 ∧ ∀ visit ∈ visits, ∃ close, visit.close = some close := by
  have hverdict : verdict Balance.defaultLimit
      (.text "-- table :(\nCREATE TABLE t (a INT DEFAULT ')')") = none := by decide +kernel
  obtain ⟨visits, hrounds, hsegments, hclose, -⟩ := rounds_closed_of_verdict {} _ hverdict
  have hone : (segments (Comment.strip
      "-- table :(\nCREATE TABLE t (a INT DEFAULT ')')".toList)).length = 1 := by decide +kernel
  rw [hsegments, List.length_map] at hone
  exact ⟨hverdict, visits, hrounds, hone, hclose⟩

end SchemaReader.Reading

import SchemaReader.Reading.File

/-!
# Segment by segment

The search for definitions and the reading of tables both collect what they
find.  Here they are unrolled: what the search finds first and what it finds
after that, the table of the first segment and the tables of the others.
-/

namespace SchemaReader.Reading

open SchemaReader.Scan SchemaReader.Text

theorem segmentsFrom_of_none {place : Place} (h : nextSegment? place.before place.rest = none)
    (out : List Segment) : segmentsFrom out place = out.reverse := by
  rw [segmentsFrom]
  split <;> simp_all

theorem segmentsFrom_of_some {place next : Place} {segment : Segment}
    (h : nextSegment? place.before place.rest = some (segment, next)) (out : List Segment) :
    segmentsFrom out place = segmentsFrom (segment :: out) next := by
  rw [segmentsFrom]
  split <;> simp_all

theorem segmentsFrom_congr {first second : Place}
    (h : nextSegment? first.before first.rest = nextSegment? second.before second.rest) :
    segmentsFrom [] first = segmentsFrom [] second := by
  cases hfound : nextSegment? second.before second.rest with
  | none => rw [segmentsFrom_of_none (h.trans hfound), segmentsFrom_of_none hfound]
  | some found => rw [segmentsFrom_of_some (h.trans hfound), segmentsFrom_of_some hfound]

theorem segmentsFrom_eq_append (out : List Segment) (place : Place) :
    segmentsFrom out place = out.reverse ++ segmentsFrom [] place := by
  induction hlength : place.rest.length using Nat.strongRecOn generalizing out place with
  | ind length ih =>
      cases hnext : nextSegment? place.before place.rest with
      | none => simp [segmentsFrom_of_none hnext]
      | some found =>
          obtain ⟨segment, next⟩ := found
          have hshorter : next.rest.length < length := hlength ▸ length_lt_of_nextSegment? hnext
          rw [segmentsFrom_of_some hnext, segmentsFrom_of_some hnext,
            ih _ hshorter (segment :: out) next rfl, ih _ hshorter [segment] next rfl]
          simp

theorem segmentsFrom_of_boundary (before : Option Char) (h : isBoundary before)
    (cells : List Cell) : segmentsFrom [] ⟨before, cells⟩ = segmentsFrom [] ⟨none, cells⟩ := by
  apply segmentsFrom_congr
  cases cells with
  | nil => rfl
  | cons x rest =>
      have hnone : isBoundary none := rfl
      simp only [nextSegment?, headAt?, if_pos h, if_pos hnone]

theorem readSegmentsFrom_eq (options : ReadOptions) (journal : List Entry)
    (tables : List Schema.Table) (found : List Segment) :
    readSegmentsFrom options journal tables found =
      ⟨journal.reverse ++ (readSegments options found).journal,
        (readSegments options found).result.map (tables.reverse ++ ·)⟩ := by
  induction found generalizing journal tables with
  | nil => simp [readSegments, readSegmentsFrom, Except.map]
  | cons segment found ih =>
      cases segment with
      | unclosed name =>
          rw [readSegments, readSegmentsFrom, readSegmentsFrom, ih, ih [unclosedNote name]]
          cases (readSegments options found).result <;> simp [Except.map]
      | table name body tableOptions =>
          rw [readSegments, readSegmentsFrom, readSegmentsFrom]
          cases (readTable options (Identifier.lastPart name) body tableOptions).result with
          | error fault => simp [Except.map]
          | ok value =>
              simp only [ih]
              cases (readSegments options found).result <;> simp [Except.map]

theorem result_readSegments_unclosed (options : ReadOptions) (name : List Char)
    (found : List Segment) :
    (readSegments options (.unclosed name :: found)).result =
      (readSegments options found).result := by
  rw [readSegments, readSegmentsFrom, readSegmentsFrom_eq]
  cases (readSegments options found).result <;> rfl

theorem result_readSegments_table (options : ReadOptions) (name body tableOptions : List Char)
    (found : List Segment) :
    (readSegments options (.table name body tableOptions :: found)).result =
      (do
        let value ← (readTable options (Identifier.lastPart name) body tableOptions).result
        let rest ← (readSegments options found).result
        return value :: rest) := by
  rw [readSegments, readSegmentsFrom]
  cases (readTable options (Identifier.lastPart name) body tableOptions).result with
  | error fault => rfl
  | ok value =>
      simp only [readSegmentsFrom_eq]
      cases (readSegments options found).result <;> rfl

theorem result_readSegments_append (options : ReadOptions) (first second : List Segment) :
    (readSegments options (first ++ second)).result =
      (do
        let before ← (readSegments options first).result
        let after ← (readSegments options second).result
        return before ++ after) := by
  induction first with
  | nil =>
      simp only [readSegments, readSegmentsFrom, List.nil_append]
      cases (readSegmentsFrom options [] [] second).result <;> rfl
  | cons segment first ih =>
      cases segment with
      | unclosed name =>
          rw [List.cons_append, result_readSegments_unclosed, result_readSegments_unclosed, ih]
      | table name body tableOptions =>
          rw [List.cons_append, result_readSegments_table, result_readSegments_table, ih]
          cases (readTable options (Identifier.lastPart name) body tableOptions).result with
          | error fault => rfl
          | ok value =>
              cases (readSegments options first).result with
              | error fault => rfl
              | ok before => cases (readSegments options second).result <;> rfl

theorem exists_table_of_error {options : ReadOptions} {found : List Segment} {fault : Fault}
    (h : (readSegments options found).result = .error fault) :
    ∃ name body tableOptions, .table name body tableOptions ∈ found ∧
      (readTable options (Identifier.lastPart name) body tableOptions).result = .error fault := by
  induction found with
  | nil => cases h
  | cons segment found ih =>
      have hlater : (readSegments options found).result = .error fault →
          ∃ name body tableOptions, .table name body tableOptions ∈ segment :: found ∧
            (readTable options (Identifier.lastPart name) body tableOptions).result =
              .error fault := by
        intro hrest
        obtain ⟨name, body, tableOptions, hmem, htable⟩ := ih hrest
        exact ⟨name, body, tableOptions, List.mem_cons_of_mem _ hmem, htable⟩
      cases segment with
      | unclosed name =>
          rw [result_readSegments_unclosed] at h
          exact hlater h
      | table name body tableOptions =>
          rw [result_readSegments_table] at h
          cases htable :
              (readTable options (Identifier.lastPart name) body tableOptions).result with
          | error first =>
              rw [htable] at h
              cases h
              exact ⟨name, body, tableOptions, List.mem_cons_self, htable⟩
          | ok value =>
              cases hrest : (readSegments options found).result with
              | error later =>
                  rw [htable, hrest] at h
                  cases h
                  exact hlater hrest
              | ok rest =>
                  rw [htable, hrest] at h
                  cases h

theorem exists_segment_of_mem {options : ReadOptions} {found : List Segment}
    {tables : List Schema.Table} (h : (readSegments options found).result = .ok tables) :
    ∀ table ∈ tables, ∃ name body tableOptions, .table name body tableOptions ∈ found ∧
      (readTable options (Identifier.lastPart name) body tableOptions).result = .ok table := by
  induction found generalizing tables with
  | nil =>
      cases h
      simp
  | cons segment found ih =>
      intro table htable
      cases segment with
      | unclosed name =>
          rw [result_readSegments_unclosed] at h
          obtain ⟨other, body, tableOptions, hmem, hread⟩ := ih h table htable
          exact ⟨other, body, tableOptions, List.mem_cons_of_mem _ hmem, hread⟩
      | table name body tableOptions =>
          rw [result_readSegments_table] at h
          cases hfirst :
              (readTable options (Identifier.lastPart name) body tableOptions).result with
          | error fault =>
              rw [hfirst] at h
              cases h
          | ok value =>
              cases hrest : (readSegments options found).result with
              | error fault =>
                  rw [hfirst, hrest] at h
                  cases h
              | ok rest =>
                  rw [hfirst, hrest] at h
                  cases h
                  rcases List.mem_cons.1 htable with rfl | htable
                  · exact ⟨name, body, tableOptions, List.mem_cons_self, hfirst⟩
                  · obtain ⟨other, body, tableOptions, hmem, hread⟩ := ih hrest table htable
                    exact ⟨other, body, tableOptions, List.mem_cons_of_mem _ hmem, hread⟩

theorem journal_readSegments_unclosed (options : ReadOptions) (name : List Char)
    (found : List Segment) :
    (readSegments options (.unclosed name :: found)).journal =
      unclosedNote name :: (readSegments options found).journal := by
  rw [readSegments, readSegmentsFrom, readSegmentsFrom_eq]
  rfl

theorem journal_readSegments_table (options : ReadOptions) (name body tableOptions : List Char)
    (found : List Segment) :
    (readSegments options (.table name body tableOptions :: found)).journal =
      (readTable options (Identifier.lastPart name) body tableOptions).journal ++
        match (readTable options (Identifier.lastPart name) body tableOptions).result with
        | .error _ => []
        | .ok _ => (readSegments options found).journal := by
  rw [readSegments, readSegmentsFrom]
  cases (readTable options (Identifier.lastPart name) body tableOptions).result with
  | error fault => simp
  | ok value => simp [readSegmentsFrom_eq]

theorem mem_journal_readSegments {options : ReadOptions} {found : List Segment} {entry : Entry}
    (h : entry ∈ (readSegments options found).journal) :
    (∃ name, .unclosed name ∈ found ∧ entry = unclosedNote name) ∨
      ∃ name body tableOptions, .table name body tableOptions ∈ found ∧
        entry ∈ (readTable options (Identifier.lastPart name) body tableOptions).journal := by
  induction found with
  | nil => cases h
  | cons segment found ih =>
      have hlater : entry ∈ (readSegments options found).journal →
          (∃ name, .unclosed name ∈ segment :: found ∧ entry = unclosedNote name) ∨
            ∃ name body tableOptions, .table name body tableOptions ∈ segment :: found ∧
              entry ∈ (readTable options (Identifier.lastPart name) body tableOptions).journal := by
        intro h
        rcases ih h with ⟨name, hname, hentry⟩ | ⟨name, body, tableOptions, htable, hentry⟩
        · exact .inl ⟨name, List.mem_cons_of_mem _ hname, hentry⟩
        · exact .inr ⟨name, body, tableOptions, List.mem_cons_of_mem _ htable, hentry⟩
      cases segment with
      | unclosed name =>
          rw [journal_readSegments_unclosed] at h
          rcases List.mem_cons.1 h with rfl | h
          · exact .inl ⟨name, List.mem_cons_self, rfl⟩
          · exact hlater h
      | table name body tableOptions =>
          rw [journal_readSegments_table] at h
          rcases List.mem_append.1 h with h | h
          · exact .inr ⟨name, body, tableOptions, List.mem_cons_self, h⟩
          · split at h
            · cases h
            · exact hlater h

end SchemaReader.Reading

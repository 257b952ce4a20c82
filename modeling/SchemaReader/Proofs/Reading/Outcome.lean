import SchemaReader.Proofs.Enumeration.RoundTrip
import SchemaReader.Proofs.Reading.Numeral
import SchemaReader.Proofs.Reading.Segments

/-!
# How the reading of a script ends

Whatever the script, reading it gives tables with names and columns with names, or
fails in one of three ways: there is no table, a numeral is too long to be read, or
a table has an empty name.
-/

namespace SchemaReader.Enumeration

open SchemaReader.Number SchemaReader.Text

theorem failsOnly_readItem (item : List Char) :
    FailsOnly NumeralFault.IsLong (readItem item) := by
  unfold readItem
  split
  · exact FailsOnly.ok none
  · rename_i digits label hparts
    obtain ⟨⟨hne, hdigits⟩, -⟩ := of_itemParts? hparts
    exact ((failsOnly_readNatural hne hdigits).bind fun n => FailsOnly.ok _).map _

theorem failsOnly_decode (comment : List Char) :
    FailsOnly NumeralFault.IsLong (decode comment) := by
  unfold decode
  split
  · exact FailsOnly.ok none
  · exact ((FailsOnly.mapM fun item _ => failsOnly_readItem item).map _).map _

end SchemaReader.Enumeration

namespace SchemaReader.Reading

open SchemaReader.Number SchemaReader.Schema SchemaReader.Scan SchemaReader.Text

theorem failsOnly_value {decimal : DecimalText} (h : IsDigits decimal.whole) :
    FailsOnly NumeralFault.IsLong decimal.value := by
  unfold DecimalText.value
  split
  · exact ((failsOnly_readNatural h.ne_nil h.digits).bind fun n => FailsOnly.ok _).map _
  · exact FailsOnly.ok _

theorem failsOnly_convertDefault (value : List Char) :
    FailsOnly NumeralFault.IsLong (convertDefault value) := by
  unfold convertDefault
  split
  · exact FailsOnly.ok _
  · split
    · rename_i decimal hdecimal
      exact failsOnly_value (isDigits_of_decimalText? hdecimal).1
    · exact FailsOnly.ok _

theorem failsOnly_readDefault (tail : List Char) :
    FailsOnly NumeralFault.IsLong (readDefault tail) := by
  unfold readDefault
  split
  · exact FailsOnly.ok none
  · dsimp only
    split
    · exact (failsOnly_convertDefault _).map some
    · split
      · exact FailsOnly.ok none
      · exact (failsOnly_convertDefault _).map some

theorem ColumnHead.failsOnly_read (head : ColumnHead) (options : ReadOptions) :
    FailsOnly NumeralFault.IsLong (head.read options) := by
  have hdefault := failsOnly_readDefault head.tail
  unfold ColumnHead.read
  dsimp only
  split
  · exact (Enumeration.failsOnly_decode _).bind fun _ => hdefault.bind fun _ => FailsOnly.ok _
  · exact hdefault.bind fun _ => FailsOnly.ok _

theorem failsOnly_readColumn (options : ReadOptions) (clause : List Char) :
    FailsOnly NumeralFault.IsLong (readColumn options clause) := by
  unfold readColumn
  split
  · exact FailsOnly.ok none
  · rename_i head _
    exact (head.failsOnly_read options).map some

theorem failsOnly_readColumns (options : ReadOptions) (clauses : List (List Char)) :
    FailsOnly NumeralFault.IsLong (readColumns options clauses) :=
  (FailsOnly.mapM fun clause _ => failsOnly_readColumn options clause).map _

theorem name_ne_nil_of_columnHead? {clause : List Char} {head : ColumnHead}
    (h : columnHead? clause = some head) : head.name ≠ [] := by
  simp only [columnHead?, Option.bind_eq_some_iff] at h
  obtain ⟨⟨written, rest⟩, -, text, -, h⟩ := h
  dsimp only at h
  split at h
  · contradiction
  · rename_i hshape
    cases h
    simp only [Bool.or_eq_true, not_or] at hshape
    simpa using hshape.2

theorem ColumnHead.name_of_read {head : ColumnHead} {options : ReadOptions} {column : Column}
    (h : head.read options = .ok column) : column.name = String.ofList head.name := by
  unfold ColumnHead.read at h
  dsimp only at h
  split at h <;>
  · obtain ⟨enumeration, -, h⟩ := exists_of_bind_ok h
    obtain ⟨default, -, h⟩ := exists_of_bind_ok h
    cases h
    rfl

theorem name_ne_empty_of_readColumn {options : ReadOptions} {clause : List Char}
    {column : Column} (h : readColumn options clause = .ok (some column)) : column.name ≠ "" := by
  unfold readColumn at h
  cases hhead : columnHead? clause with
  | none =>
      rw [hhead] at h
      cases h
  | some head =>
      rw [hhead] at h
      obtain ⟨read, hread, hsome⟩ := exists_of_map_ok h
      cases hsome
      rw [ColumnHead.name_of_read hread]
      simpa [String.ext_iff] using name_ne_nil_of_columnHead? hhead

theorem name_ne_empty_of_readColumns {options : ReadOptions} {clauses : List (List Char)}
    {columns : List Column} (h : readColumns options clauses = .ok columns) :
    ∀ column ∈ columns, column.name ≠ "" := by
  obtain ⟨found, hfound, rfl⟩ := exists_of_map_ok h
  intro column hcolumn
  have hmem : some column ∈ found := by simpa using hcolumn
  obtain ⟨clause, -, hread⟩ := exists_of_mapM_ok hfound _ hmem
  exact name_ne_empty_of_readColumn hread

theorem of_readTable_error {options : ReadOptions} {name body tableOptions : List Char}
    {fault : Fault} (h : (readTable options name body tableOptions).result = .error fault) :
    (∃ digits, maxDigits < digits ∧ fault = .numeral (.tooLong digits)) ∨
      name = [] ∧ fault = .rejected (nameIssues []) := by
  unfold readTable at h
  dsimp only at h
  split at h
  · rename_i numeral hcolumns
    obtain ⟨digits, hlong, rfl⟩ := failsOnly_readColumns options _ numeral hcolumns
    cases h
    exact .inl ⟨digits, hlong, rfl⟩
  · dsimp only at h
    split at h
    · rename_i hname
      have hname : name = [] := by simpa using hname
      subst hname
      cases h
      exact .inr ⟨rfl, rfl⟩
    · cases h

theorem of_readTable_ok {options : ReadOptions} {name body tableOptions : List Char}
    {table : Table} (h : (readTable options name body tableOptions).result = .ok table) :
    table.name ≠ "" ∧ ∀ column ∈ table.columns, column.name ≠ "" := by
  unfold readTable at h
  dsimp only at h
  split at h
  · cases h
  · rename_i columns hcolumns
    dsimp only at h
    split at h
    · cases h
    · rename_i hname
      cases h
      exact ⟨by simpa [String.ext_iff] using hname, name_ne_empty_of_readColumns hcolumns⟩

/-- Reading a script gives a table at least, and names throughout.  If it fails, then for want of
a table, by a numeral beyond the limit, or at a definition with an empty name. -/
theorem readScript_outcome (options : ReadOptions) (text : List Char) :
    (∀ catalogue, (readScript options text).result = .ok catalogue →
      catalogue.tables ≠ [] ∧ ∀ table ∈ catalogue.tables,
        table.name ≠ "" ∧ ∀ column ∈ table.columns, column.name ≠ "") ∧
      ∀ fault, (readScript options text).result = .error fault →
        fault = .noTable ∨
        (∃ digits, maxDigits < digits ∧ fault = .numeral (.tooLong digits)) ∨
        (fault = .rejected (nameIssues []) ∧
          ∃ name body tableOptions, .table name body tableOptions ∈ segments (Comment.strip text) ∧
            Identifier.lastPart name = []) := by
  unfold readScript
  dsimp only
  split
  · rename_i stop hread
    refine ⟨by simp, fun fault hfault => ?_⟩
    cases hfault
    obtain ⟨name, body, tableOptions, hmem, htable⟩ := exists_table_of_error hread
    rcases of_readTable_error htable with hlong | ⟨hname, hfault⟩
    · exact .inr (.inl hlong)
    · exact .inr (.inr ⟨hfault, name, body, tableOptions, hmem, hname⟩)
  · refine ⟨by simp, fun fault hfault => ?_⟩
    cases hfault
    exact .inl rfl
  · rename_i found hne hread
    refine ⟨fun catalogue hcatalogue => ?_, by simp⟩
    cases hcatalogue
    refine ⟨hne, fun table htable => ?_⟩
    obtain ⟨name, body, tableOptions, -, hsegment⟩ := exists_segment_of_mem hread table htable
    exact of_readTable_ok hsegment

end SchemaReader.Reading

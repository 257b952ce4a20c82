import SchemaReader.Proofs.Fallible
import SchemaReader.Proofs.Reading.Segments

/-!
# What options leave out

Options say what is kept of a script, not how it is read.  A script that is read
with the default options is read with all others: the tables are the same but for
the comments and the enumerations of columns, which may be left out, and the
journal is the same.
-/

namespace SchemaReader

open SchemaReader.Schema

namespace ReadOptions

variable (options : ReadOptions)

def eraseColumn (column : Column) : Column :=
  { column with
    comment := if options.includeComments then column.comment else ""
    enumeration := if options.parseEnums then column.enumeration else none }

def eraseTable (table : Table) : Table :=
  { table with columns := table.columns.map options.eraseColumn }

def erase (catalogue : Catalogue) : Catalogue := ⟨catalogue.tables.map options.eraseTable⟩

end ReadOptions

namespace Reading

theorem ColumnHead.read_eraseColumn {head : ColumnHead} {column : Column}
    (h : head.read {} = .ok column) (options : ReadOptions) :
    head.read options = .ok (options.eraseColumn column) := by
  simp only [ColumnHead.read, if_true] at h ⊢
  obtain ⟨enumeration, henumeration, h⟩ := exists_of_bind_ok h
  obtain ⟨default, hdefault, h⟩ := exists_of_bind_ok h
  cases h
  rw [henumeration, hdefault]
  -- The enumeration is read from the comment, whether the comment is kept or not.
  cases hparse : options.parseEnums <;>
    simp [ReadOptions.eraseColumn, hparse, bind, Except.bind, pure, Except.pure]

theorem readColumn_eraseColumn {clause : List Char} {found : Option Column}
    (h : readColumn {} clause = .ok found) (options : ReadOptions) :
    readColumn options clause = .ok (found.map options.eraseColumn) := by
  unfold readColumn at h ⊢
  cases hhead : columnHead? clause with
  | none =>
      rw [hhead] at h
      cases h
      rfl
  | some head =>
      rw [hhead] at h
      obtain ⟨column, hread, rfl⟩ := exists_of_map_ok h
      simp only [ColumnHead.read_eraseColumn hread options]
      rfl

theorem mapM_readColumn_eraseColumn {clauses : List (List Char)} {found : List (Option Column)}
    (h : clauses.mapM (readColumn {}) = .ok found) (options : ReadOptions) :
    clauses.mapM (readColumn options) = .ok (found.map (Option.map options.eraseColumn)) := by
  induction clauses generalizing found with
  | nil =>
      cases h
      rfl
  | cons clause clauses ih =>
      rw [List.mapM_cons] at h ⊢
      obtain ⟨column, hcolumn, h⟩ := exists_of_bind_ok h
      obtain ⟨rest, hrest, h⟩ := exists_of_bind_ok h
      cases h
      rw [readColumn_eraseColumn hcolumn, ih hrest]
      rfl

theorem readColumns_eraseColumn {clauses : List (List Char)} {columns : List Column}
    (h : readColumns {} clauses = .ok columns) (options : ReadOptions) :
    readColumns options clauses = .ok (columns.map options.eraseColumn) := by
  unfold readColumns at h ⊢
  obtain ⟨found, hfound, rfl⟩ := exists_of_map_ok h
  rw [mapM_readColumn_eraseColumn hfound]
  refine congrArg Except.ok ?_
  simp only [List.filterMap_map, List.map_filterMap]
  rfl

theorem readTable_eraseTable {name body tableOptions : List Char} {table : Table}
    (h : (readTable {} name body tableOptions).result = .ok table) (options : ReadOptions) :
    readTable options name body tableOptions =
      ⟨(readTable {} name body tableOptions).journal, .ok (options.eraseTable table)⟩ := by
  unfold readTable at h ⊢
  cases hcolumns : readColumns {} (Clause.split body) with
  | error fault =>
      simp only [hcolumns] at h
      cases h
  | ok columns =>
      simp only [hcolumns, readColumns_eraseColumn hcolumns options] at h ⊢
      split at h
      · cases h
      · cases h
        simp [ReadOptions.eraseTable, columnsNote, *]

theorem readSegments_eraseTable {found : List Segment} {tables : List Table}
    (h : (readSegments {} found).result = .ok tables) (options : ReadOptions) :
    (readSegments options found).result = .ok (tables.map options.eraseTable) ∧
      (readSegments options found).journal = (readSegments {} found).journal := by
  induction found generalizing tables with
  | nil =>
      cases h
      exact ⟨rfl, rfl⟩
  | cons segment found ih =>
      cases segment with
      | unclosed name =>
          rw [result_readSegments_unclosed] at h
          obtain ⟨hresult, hjournal⟩ := ih h
          rw [result_readSegments_unclosed, journal_readSegments_unclosed,
            journal_readSegments_unclosed, hjournal]
          exact ⟨hresult, rfl⟩
      | table name body tableOptions =>
          rw [result_readSegments_table] at h
          obtain ⟨table, htable, h⟩ := exists_of_bind_ok h
          obtain ⟨rest, hrest, h⟩ := exists_of_bind_ok h
          cases h
          obtain ⟨hresult, hjournal⟩ := ih hrest
          rw [result_readSegments_table, journal_readSegments_table, journal_readSegments_table,
            readTable_eraseTable htable options, htable, hresult, hjournal]
          exact ⟨rfl, rfl⟩

theorem duplicateNotes_eraseTable (options : ReadOptions) (tables : List Table) :
    duplicateNotes (tables.map options.eraseTable) = duplicateNotes tables := by
  rw [duplicateNotes, duplicateNotes, List.map_map]
  rfl

theorem countNote_eraseTable (options : ReadOptions) (tables : List Table) :
    countNote (tables.map options.eraseTable) = countNote tables := by
  simp [countNote, Catalogue.summary, Catalogue.size, List.foldl_map, ReadOptions.eraseTable]

/-- Whatever the options, a script that is read with the default ones gives the same catalogue with
what they leave out erased, and the same journal. -/
theorem readScript_erase (options : ReadOptions) (text : List Char) (catalogue : Catalogue)
    (h : (readScript {} text).result = .ok catalogue) :
    readScript options text = ⟨(readScript {} text).journal, .ok (options.erase catalogue)⟩ := by
  unfold readScript at h ⊢
  cases htables : (readTables {} (Scan.Comment.strip text)).result with
  | error fault =>
      simp only [htables] at h
      cases h
  | ok tables =>
      obtain ⟨hresult, hjournal⟩ := readSegments_eraseTable htables options
      rw [← readTables] at hresult hjournal
      rw [← readTables] at hjournal
      simp only [hresult, hjournal, htables] at h ⊢
      cases tables with
      | nil => cases h
      | cons table tables =>
          cases h
          have hnotes := duplicateNotes_eraseTable options (table :: tables)
          have hcount := countNote_eraseTable options (table :: tables)
          rw [List.map_cons] at hnotes hcount
          simp only [List.map_cons, hnotes, hcount]
          rfl

theorem readScript_erase_comment :
    (readScript {} "CREATE TABLE t (a INT COMMENT '【枚举】:0-x')".toList).result =
        .ok ⟨[⟨"t", "", [⟨"a", ⟨"INT", none, "INT", .integer⟩, true, none, false, false,
          "【枚举】:0-x", some [⟨0, "x"⟩]⟩], []⟩]⟩ ∧
      (readScript ⟨false, true⟩ "CREATE TABLE t (a INT COMMENT '【枚举】:0-x')".toList).result =
        .ok ⟨[⟨"t", "", [⟨"a", ⟨"INT", none, "INT", .integer⟩, true, none, false, false,
          "", some [⟨0, "x"⟩]⟩], []⟩]⟩ :=
  have h : (readScript {} "CREATE TABLE t (a INT COMMENT '【枚举】:0-x')".toList).result =
      .ok ⟨[⟨"t", "", [⟨"a", ⟨"INT", none, "INT", .integer⟩, true, none, false, false,
        "【枚举】:0-x", some [⟨0, "x"⟩]⟩], []⟩]⟩ := by decide +kernel
  ⟨h, congrArg (·.result) (readScript_erase ⟨false, true⟩ _ _ h)⟩

end Reading

end SchemaReader

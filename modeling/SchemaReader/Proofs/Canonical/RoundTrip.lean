import SchemaReader.Proofs.Canonical.Columns

/-!
# Reading canonical scripts back

Reading a canonical script gives the catalogue it was written from, whatever the
texts in its literals hold.
-/

namespace SchemaReader.Canonical

open SchemaReader.Reading SchemaReader.Scan SchemaReader.Text

theorem filter_column_write (columns : List Column) (kind : ClauseKind) :
    (columns.map Column.write).filter (fun clause => ClauseKind.ofClause clause = kind) =
      if kind = .column then columns.map Column.write else [] := by
  induction columns with
  | nil => cases kind <;> rfl
  | cons column columns ih =>
      rw [List.map_cons, List.filter_cons, ih, Column.ofClause_write]
      cases kind <;> rfl

theorem readColumns_write (includeComments : Bool) (columns : List Column) :
    readColumns ⟨includeComments, false⟩ (columns.map Column.write) =
      .ok (columns.map (Column.stored includeComments)) := by
  have hmap : (columns.map Column.write).mapM (readColumn ⟨includeComments, false⟩) =
      .ok (columns.map fun column => some (column.stored includeComments)) := by
    rw [List.mapM_map]
    exact mapM_eq_ok fun column _ => Column.readColumn_write includeComments column
  have hsome : (columns.map fun column => some (column.stored includeComments)).filterMap id =
      columns.map (Column.stored includeComments) := by
    rw [List.filterMap_map]
    exact congrFun (List.filterMap_eq_map (f := Column.stored includeComments)) columns
  rw [readColumns, filter_column_write, if_pos rfl, hmap]
  exact congrArg Except.ok hsome

namespace Table

theorem tableComment_options (table : Table) :
    tableComment table.options = table.comment.text := by
  have hseen : Seen table.optionCells := (seen_visible rfl).append table.comment.seen
  have hcells : Mask.cells table.options = table.optionCells := by
    rw [← reveal_optionCells]
    exact hseen.mask
  have htail : tailAfter? "COMMENT" table.optionCells =
      some (⟨'=', false⟩ :: table.comment.cells) := rfl
  have hequals : afterEquals (⟨'=', false⟩ :: table.comment.cells) =
      table.comment.cells ++ spaced [] := by
    have hblanks := dropBlanks_item (.literal table.comment) (spaced [])
    exact (congrArg dropBlanks (List.append_nil _).symm).trans hblanks
  obtain ⟨size, hread⟩ := table.comment.read?_items []
  rw [tableComment, readComment, hcells, htail]
  simp only [hequals, hread]

theorem readTable_write (includeComments : Bool) (table : Table) :
    (readTable ⟨includeComments, false⟩ table.name.chars table.body table.options).result =
      .ok (table.stored includeComments) := by
  have hname : table.name.chars.isEmpty = false := by simpa using table.name.ne_nil
  have hconstraints : readConstraints (table.columns.map Column.write) = [] := by
    rw [readConstraints, filter_column_write]
    rfl
  simp only [readTable, split_body, readColumns_write, hconstraints, hname, tableComment_options]
  rfl

end Table

theorem result_readSegments_tables (includeComments : Bool) (tables : List Table) :
    (readSegments ⟨includeComments, false⟩ (tables.map Table.segment)).result =
      .ok (tables.map (Table.stored includeComments)) := by
  induction tables with
  | nil => rfl
  | cons table tables ih =>
      rw [List.map_cons, Table.segment, result_readSegments_table, Name.lastPart_write,
        Table.readTable_write, ih]
      rfl

/-- A canonical script is read back as the catalogue it was written from. -/
theorem result_readScript_write (includeComments : Bool) (script : Script) :
    (readScript ⟨includeComments, false⟩ script.write).result =
      .ok (script.stored includeComments) := by
  have htables : (readTables ⟨includeComments, false⟩ (Comment.strip script.write)).result =
      .ok (script.tables.map (Table.stored includeComments)) := by
    rw [readTables, script.segments_strip_write, result_readSegments_tables]
  obtain ⟨table, tables, hcons⟩ := List.exists_cons_of_ne_nil script.ne_nil
  rw [hcons, List.map_cons] at htables
  rw [readScript, Script.stored, hcons, List.map_cons]
  simp only [htables]

/-- A table whose literals hold quotes, backslashes, comments and the beginning of a definition. -/
def exampleTable : Table where
  name := ⟨['t'], by decide, by decide⟩
  columns :=
    [{ name := ⟨"c".toList, by decide, by decide⟩
       type := ⟨'d', by decide, "ecimal".toList, by decide, [['3'], ['1']], by decide⟩
       notNull := true
       autoIncrement := false
       primaryKey := false
       default := some ⟨.double, rfl, "it's \"1\"".toList⟩
       bounded := by decide
       comment := ⟨.single, rfl, "\\, -- /*".toList⟩ }]
  ne_nil := by decide
  comment := ⟨.single, rfl, "'; CREATE TABLE u (".toList⟩

def exampleText : List Char :=
  "CREATE TABLE `t` (".toList ++ "`c` decimal(3,1) NOT NULL".toList ++
    " DEFAULT \"it's \"\"1\"\"\"".toList ++ " COMMENT '\\\\, -- /*')".toList ++
    " COMMENT='''; ".toList ++ "CREATE TABLE u (';".toList

theorem result_readScript_write_hostile_literals :
    (readScript ⟨true, false⟩ exampleText).result =
      .ok ⟨[{
        name := "t"
        comment := "'; CREATE TABLE u ("
        columns :=
          [{ name := "c"
             type := ⟨"DECIMAL", some "3,1", "decimal(3,1)", .decimal⟩
             nullable := false
             default := some (.text "it's \"1\"")
             autoIncrement := false
             primaryKey := false
             comment := "\\, -- /*"
             enumeration := none }]
        constraints := [] }]⟩ := by
  have hwrite : Script.write ⟨[exampleTable], by decide⟩ = exampleText := by
    decide +kernel
  rw [← hwrite, result_readScript_write]
  rfl

end SchemaReader.Canonical

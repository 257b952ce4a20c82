import SchemaReader.Proofs.Canonical.Cells
import SchemaReader.Proofs.Identifier.Qualified
import SchemaReader.Proofs.Reading.Locality
import SchemaReader.Proofs.Reading.Segments

/-!
# The statements of a canonical script

Each table of a canonical script is found as one segment with its name, its body
and its options as they are written, and no definition is found anywhere else.
-/

namespace SchemaReader.Canonical

open SchemaReader.Reading SchemaReader.Scan SchemaReader.Text

theorem sealed_hide (d : Delimiter) (text : List Char) : Sealed d (hide text) := by
  apply sealed_of_feed
  intro x hx
  rw [shown_hide hx]
  cases d <;> rfl

theorem sealed_escapeCells (d : Delimiter) (c : Char) : Sealed d (escapeCells d.char c) := by
  unfold escapeCells
  split
  · exact sealed_hide d _
  · split
    · rename_i hquote
      exact sealed_doubled hquote hquote
    · exact sealed_hide d _

theorem Literal.level (literal : Literal) : Level literal.cells := by
  have hinner : Sealed literal.delimiter literal.inner := by
    unfold inner
    induction literal.text with
    | nil => exact Sealed.nil
    | cons c text ih => exact (sealed_escapeCells _ c).append ih
  exact hinner.level rfl rfl

theorem Name.level (name : Name) : Level name.cells :=
  (sealed_hide .backtick name.chars).level rfl rfl

theorem level_visible {text : List Char} (h : text.all isLevel) : Level (visible text) := by
  apply level_of_isLevel
  intro x hx
  obtain ⟨c, hc, rfl⟩ := List.mem_map.1 hx
  exact List.all_eq_true.1 h c hc

theorem isLevel_of_isWordAscii {c : Char} (h : isWordAscii c) : isLevel c := by
  have hopen : c ≠ '(' := ne_of_isWordAscii h rfl
  have hclose : c ≠ ')' := ne_of_isWordAscii h rfl
  simp [isLevel, ofChar?_of_isWordAscii h, hopen, hclose]

namespace TypeToken

theorem isLevel_name (token : TypeToken) : token.name.all isLevel := by
  rw [List.all_eq_true]
  exact fun c hc => isLevel_of_isWordAscii (List.all_eq_true.1 token.all_name c hc)

theorem isLevel_length {token : TypeToken} {length : List Char} (h : length ∈ token.length?) :
    length.all isLevel := by
  rw [List.all_eq_true]
  intro c hc
  rcases of_mem_length? h c hc with hc | rfl
  · exact isLevel_of_isWordAscii hc
  · rfl

theorem level (token : TypeToken) : Level (visible token.write) := by
  have hsuffix : Level (visible token.suffix) := by
    unfold suffix
    cases hlength : token.length? with
    | none => exact Level.nil
    | some length =>
        have hinner := level_visible (isLevel_length hlength)
        have hparens := hinner.parens (x := (⟨'(', false⟩ : Cell)) (y := ⟨')', false⟩) rfl rfl
        simpa [visible] using hparens
  have happend := (level_visible token.isLevel_name).append hsuffix
  simpa [write, visible] using happend

end TypeToken

theorem level_spaced (items : List Item) : Level (spaced items) := by
  induction items with
  | nil => exact Level.nil
  | cons item items ih =>
      have hblank : Level (visible [' ']) := level_visible rfl
      have hitem : Level item.cells := by
        cases item with
        | word w => exact level_visible (by cases w <;> rfl)
        | literal l => exact l.level
      exact (hblank.append hitem).append ih

theorem Column.level (column : Column) : Level column.cells := by
  have hblank : Level (visible [' ']) := level_visible rfl
  exact (column.name.level.append (hblank.append column.type.level)).append
    (level_spaced column.items)

theorem Table.level_bodyCells (table : Table) : Level table.bodyCells := by
  apply intercalate_induction Level Level.nil Level.append (level_visible rfl)
  intro piece hpiece
  obtain ⟨column, -, rfl⟩ := List.mem_map.1 hpiece
  exact column.level

theorem Name.name?_cells (name : Name) (rest : List Cell) :
    Identifier.name? (name.cells ++ rest) = some (name.cells, rest) :=
  Identifier.name?_backtickedCells name.ne_nil rest

def Table.fromParen (table : Table) (rest : List Cell) : List Cell :=
  ⟨'(', false⟩ :: table.bodyCells ++ ⟨')', false⟩ :: (table.optionCells ++ ⟨';', false⟩ :: rest)

theorem Table.namedTable?_cells (table : Table) (rest : List Cell) :
    namedTable? (table.name.cells ++ ⟨' ', false⟩ :: table.fromParen rest) =
      some ⟨table.name.cells, table.fromParen rest⟩ := by
  have hdot : Identifier.dotName? (⟨' ', false⟩ :: table.fromParen rest) = none := rfl
  rw [namedTable?, Identifier.qualified?, Name.name?_cells]
  simp only [Option.map_some, Identifier.dotNames_of_none hdot, Option.bind_some]
  simp only [List.reverse_nil, List.flatten_nil, List.append_nil]
  rfl

theorem Table.tableHead?_cells (table : Table) (rest : List Cell) :
    tableHead? (table.cells ++ rest) = some ⟨table.name.cells, table.fromParen rest⟩ := by
  have hcells : table.cells ++ rest = visible "CREATE TABLE".toList ++ ⟨' ', false⟩ ::
      (table.name.cells ++ ⟨' ', false⟩ :: table.fromParen rest) := by
    simp [cells, fromParen, visible]
  have hwords : ∀ named : List Cell,
      afterKeywords? .anyCase ["CREATE", "TABLE"] (visible "CREATE TABLE".toList ++ named) =
        some named := fun _ => rfl
  have hblanks : afterBlanks? (⟨' ', false⟩ ::
      (table.name.cells ++ ⟨' ', false⟩ :: table.fromParen rest)) =
        some (table.name.cells ++ ⟨' ', false⟩ :: table.fromParen rest) := rfl
  have hexists : afterIfNotExists? (table.name.cells ++ ⟨' ', false⟩ :: table.fromParen rest) =
      none := rfl
  rw [tableHead?, hcells, hwords, Option.bind_some, hblanks, Option.bind_some, hexists,
    Table.namedTable?_cells]
  rfl

theorem optionsFrom_literal (literal : Literal) (before : Option Char) (out rest : List Cell) :
    ∃ after, optionsFrom before out (literal.cells ++ rest) =
      optionsFrom after (literal.cells.reverse ++ out) rest := by
  have hcells : ∀ x ∈ literal.cells, shown x ≠ ';' ∧ ¬ Letters.anyCase.meets 'C' (shown x) := by
    intro x hx
    rcases literal.shown_of_mem hx with hx | hx
    · rw [hx]
      decide
    · rw [hx]
      cases literal.delimiter <;> decide
  -- From here on only what the cells show matters, so the induction is on any such cells.
  revert hcells
  induction literal.cells generalizing before out with
  | nil => exact fun _ => ⟨before, rfl⟩
  | cons x cells ih =>
      intro hcells
      obtain ⟨hsemicolon, hmeets⟩ := hcells x (by simp)
      obtain ⟨after, hafter⟩ :=
        ih (some (shown x)) (x :: out) fun y hy => hcells y (by simp [hy])
      refine ⟨after, ?_⟩
      rw [List.cons_append, optionsFrom, headAt?_of_not_meets hmeets, if_neg (by simpa), hafter]
      simp

theorem Table.optionsFrom_optionCells (table : Table) (rest : List Cell) :
    ∃ before, optionsFrom (some ')') [] (table.optionCells ++ ⟨';', false⟩ :: rest) =
      (table.optionCells, ⟨before, ⟨';', false⟩ :: rest⟩) := by
  have hword : ∀ rest, optionsFrom (some ')') [] (visible " COMMENT=".toList ++ rest) =
      optionsFrom (some '=') (visible " COMMENT=".toList).reverse rest := fun _ => rfl
  obtain ⟨before, hliteral⟩ := optionsFrom_literal table.comment (some '=')
    (visible " COMMENT=".toList).reverse (⟨';', false⟩ :: rest)
  refine ⟨before, ?_⟩
  rw [optionCells, List.append_assoc, hword, hliteral, optionsFrom, if_pos (by rfl)]
  simp

namespace Table

def segment (table : Table) : Segment :=
  .table table.name.write table.body table.options

theorem segmentOf_cells (table : Table) (rest : List Cell) :
    ∃ before, segmentOf ⟨table.name.cells, table.fromParen rest⟩ =
      (table.segment, ⟨before, ⟨';', false⟩ :: rest⟩) := by
  obtain ⟨before, hoptions⟩ := table.optionsFrom_optionCells rest
  have hclosing : closing? (table.fromParen rest) = some (table.bodyCells.length + 1) :=
    closing?_of_level table.level_bodyCells rfl rfl _
  have hbody : ((table.fromParen rest).take (table.bodyCells.length + 1)).drop 1 =
      table.bodyCells := by
    simp [fromParen]
  have hafter : (table.fromParen rest).drop (table.bodyCells.length + 1 + 1) =
      table.optionCells ++ ⟨';', false⟩ :: rest := by
    simp [fromParen]
  refine ⟨before, ?_⟩
  simp only [segmentOf, hclosing, hbody, hafter, hoptions, Name.reveal_cells, reveal_bodyCells,
    reveal_optionCells, segment]

theorem nextSegment?_cells (table : Table) {before : Option Char} (hbefore : isBoundary before)
    (rest : List Cell) :
    ∃ after, nextSegment? before (table.cells ++ rest) =
      some (table.segment, ⟨after, ⟨';', false⟩ :: rest⟩) := by
  obtain ⟨after, hsegment⟩ := table.segmentOf_cells rest
  have hhead : headAt? before (table.cells ++ rest) =
      some ⟨table.name.cells, table.fromParen rest⟩ := by
    rw [headAt?, if_pos hbefore, tableHead?_cells]
  refine ⟨after, ?_⟩
  rcases hcells : table.cells ++ rest with _ | ⟨x, cells⟩
  · rw [hcells] at hhead
    simp [headAt?, hbefore, tableHead?, afterKeywords?, afterKeyword?] at hhead
  · rw [hcells] at hhead
    simp only [nextSegment?, hhead, hsegment]

end Table

theorem segmentsFrom_semicolon (before : Option Char) (rest : List Cell) :
    segmentsFrom [] ⟨before, ⟨';', false⟩ :: ⟨'\n', false⟩ :: rest⟩ =
      segmentsFrom [] ⟨some '\n', rest⟩ := by
  have hsemicolon : ¬ Letters.anyCase.meets 'C' (shown (⟨';', false⟩ : Cell)) := by decide
  have hbreak : ¬ Letters.anyCase.meets 'C' (shown (⟨'\n', false⟩ : Cell)) := by decide
  apply segmentsFrom_congr
  simp only [nextSegment?, headAt?_of_not_meets hsemicolon, headAt?_of_not_meets hbreak]
  rfl

theorem segmentsFrom_tables {tables : List Table} (hne : tables ≠ []) (before : Option Char)
    (hbefore : isBoundary before) :
    segmentsFrom [] ⟨before, (visible ['\n']).intercalate (tables.map Table.cells)⟩ =
      tables.map Table.segment := by
  induction tables generalizing before with
  | nil => exact absurd rfl hne
  | cons table tables ih =>
      -- The last table leaves just its semicolon, every other one a line break after it.
      cases tables with
      | nil =>
          have hsemicolon : ¬ Letters.anyCase.meets 'C' (shown (⟨';', false⟩ : Cell)) := by decide
          obtain ⟨after, hnext⟩ := table.nextSegment?_cells hbefore []
          have hend : nextSegment? after [⟨';', false⟩] = none := by
            simp only [nextSegment?, headAt?_of_not_meets hsemicolon]
          rw [List.append_nil] at hnext
          rw [List.map_singleton, List.intercalate_singleton, segmentsFrom_of_some hnext,
            segmentsFrom_of_none hend]
          rfl
      | cons next tables =>
          obtain ⟨after, hnext⟩ := table.nextSegment?_cells hbefore (visible ['\n'] ++
            (visible ['\n']).intercalate ((next :: tables).map Table.cells))
          rw [List.map_cons, List.map_cons, List.intercalate_cons_cons, List.append_assoc]
          rw [List.map_cons] at hnext
          rw [segmentsFrom_of_some hnext, segmentsFrom_eq_append]
          have hrest := ih (List.cons_ne_nil next tables) (some '\n') (by decide)
          rw [List.map_cons] at hrest
          simpa [visible, segmentsFrom_semicolon] using hrest

theorem Script.segments_strip_write (script : Script) :
    segments (Comment.strip script.write) = script.tables.map Table.segment := by
  rw [segments, script.cells_strip_write]
  exact segmentsFrom_tables script.ne_nil none rfl

end SchemaReader.Canonical

import Mathlib.Data.Bool.AllAny
import SchemaReader.Proofs.Canonical.Clauses
import SchemaReader.Proofs.Number.Numeral
import SchemaReader.Reading.Constraint

/-!
# Keys written and read back

A key is written with its names between backticks and its parts between commas.
The names may hold blanks, dots, dashes and whole keywords: a search sees only the
backticks around them, so the keywords, the parentheses and the commas that it
finds are the ones that were written as such.
-/

namespace SchemaReader.Scan.Mask

open SchemaReader.Text SchemaReader.Identifier

/-- From outside quotes the mask makes just these cells of the text behind them and stands outside
quotes again. -/
def Covered (cells : List Cell) : Prop :=
  ∀ rest, masker.run (.code .outside) (reveal cells ++ rest) =
    cells ++ masker.run (.code .outside) rest

theorem Covered.append {first second : List Cell} (hfirst : Covered first)
    (hsecond : Covered second) : Covered (first ++ second) := by
  intro rest
  rw [reveal_append, List.append_assoc, List.append_assoc, hfirst, hsecond]

theorem covered_visible {text : List Char}
    (h : ∀ c ∈ text, Delimiter.ofChar? c = none ∧ c ≠ '-') :
    Covered (Canonical.visible text) := by
  induction text with
  | nil => exact fun _ => rfl
  | cons c text ih =>
      obtain ⟨hquote, hdash⟩ := h c List.mem_cons_self
      have hhead : Covered [⟨c, false⟩] := by
        intro rest
        have hfeed : Quote.outside.feed c = .outside := by
          rw [Quote.feed_outside, hquote]
          rfl
        rw [reveal, List.map_singleton, List.singleton_append,
          run_code _ _ _ fun _ hc => absurd hc hdash, hfeed]
        rfl
      exact hhead.append (ih fun d hd => h d (List.mem_cons_of_mem c hd))

theorem run_inside (d : Delimiter) (c : Char) (rest : List Char) :
    masker.run (.code (.inside d)) (c :: rest) =
      ⟨c, ((Quote.inside d).feed c).isQuoted⟩ ::
        masker.run (.code ((Quote.inside d).feed c)) rest := by
  rw [run_code _ _ _ (by simp)]
  rfl

theorem run_inside_append {d : Delimiter} {text : List Char}
    (h : ∀ c ∈ text, (Quote.inside d).feed c = .inside d) (rest : List Char) :
    masker.run (.code (.inside d)) (text ++ rest) =
      hide text ++ masker.run (.code (.inside d)) rest := by
  induction text with
  | nil => rfl
  | cons c text ih =>
      rw [List.cons_append, run_inside, h c List.mem_cons_self,
        ih fun e he => h e (List.mem_cons_of_mem c he)]
      rfl

theorem feed_backticked {name : List Char} (hfree : '`' ∉ name) :
    ∀ c ∈ name, (Quote.inside .backtick).feed c = .inside .backtick := by
  intro c hc
  have hc : c ≠ '`' := fun heq => hfree (heq ▸ hc)
  exact Quote.feed_inside (by simp [Delimiter.escapes]) hc

theorem covered_backtickedCells {name : List Char} (hfree : '`' ∉ name) :
    Covered (backtickedCells name) := by
  intro rest
  have hopen : Quote.outside.feed '`' = .inside .backtick := Quote.feed_delimiter .backtick
  have hclose : (Quote.inside .backtick).feed '`' = .outside :=
    Quote.feed_inside_delimiter .backtick
  rw [reveal_backtickedCells, backticked, List.append_assoc, List.cons_append,
    run_code _ _ _ (by simp), hopen, run_inside_append (feed_backticked hfree),
    List.singleton_append, run_inside, hclose]
  simp [backtickedCells, Quote.isQuoted]

end SchemaReader.Scan.Mask

namespace SchemaReader.Keys

open SchemaReader.Canonical SchemaReader.Identifier SchemaReader.Reading SchemaReader.Schema
open SchemaReader.Scan SchemaReader.Text

/-! ## Written keys -/

structure KeyName where
  chars : List Char
  ne_nil : chars ≠ []
  free : ∀ c ∈ chars, c ∉ ['`', '\'', '"', '(', ')', ',']

def KeyName.write (name : KeyName) : List Char := backticked name.chars

def KeyName.stored (name : KeyName) : String := String.ofList name.chars

inductive SortOrder where
  | ascending
  | descending

def SortOrder.word : SortOrder → String
  | ascending => "ASC"
  | descending => "DESC"

def SortOrder.write (order : SortOrder) : List Char := ' ' :: order.word.toList

structure PrefixLength where
  digits : List Char
  ne_nil : digits ≠ []
  decimal : ∀ c ∈ digits, isDigit c = true

def PrefixLength.write (length : PrefixLength) : List Char := '(' :: length.digits ++ [')']

structure Part where
  name : KeyName
  length : Option PrefixLength
  order : Option SortOrder

def Part.write (part : Part) : List Char :=
  part.name.write ++ part.length.elim [] PrefixLength.write ++ part.order.elim [] SortOrder.write

structure Parts where
  list : List Part
  ne_nil : list ≠ []

namespace Parts

def inner (parts : Parts) : List Char := ", ".toList.intercalate (parts.list.map Part.write)

def write (parts : Parts) : List Char := '(' :: parts.inner ++ [')']

def stored (parts : Parts) : List String := parts.list.map (·.name.stored)

end Parts

inductive Key where
  | primary (name : KeyName) (parts : Parts)
  | unique (name : KeyName) (parts : Parts)
  | index (name : KeyName) (parts : Parts)
  | foreign (name : KeyName) (parts : Parts) (table : KeyName) (referenced : Parts)

namespace Key

def write : Key → List Char
  | primary name parts =>
      "CONSTRAINT ".toList ++ name.write ++ ' ' :: "PRIMARY KEY ".toList ++ parts.write
  | unique name parts => "UNIQUE KEY ".toList ++ name.write ++ ' ' :: parts.write
  | index name parts => "KEY ".toList ++ name.write ++ ' ' :: parts.write
  | foreign name parts table referenced =>
      "CONSTRAINT ".toList ++ name.write ++ ' ' :: "FOREIGN KEY ".toList ++ parts.write ++
        ' ' :: "REFERENCES ".toList ++ table.write ++ ' ' :: referenced.write

section Written

variable (name : KeyName) (parts : Parts) (table : KeyName) (referenced : Parts)

theorem write_primary : (primary name parts).write =
    "CONSTRAINT ".toList ++ name.write ++ ' ' :: "PRIMARY KEY ".toList ++ parts.write := rfl

theorem write_unique : (unique name parts).write =
    "UNIQUE KEY ".toList ++ name.write ++ ' ' :: parts.write := rfl

theorem write_index : (index name parts).write =
    "KEY ".toList ++ name.write ++ ' ' :: parts.write := rfl

theorem write_foreign : (foreign name parts table referenced).write =
    "CONSTRAINT ".toList ++ name.write ++ ' ' :: "FOREIGN KEY ".toList ++ parts.write ++
      ' ' :: "REFERENCES ".toList ++ table.write ++ ' ' :: referenced.write := rfl

end Written

/-- What is stored for a key whose clause reads `definition`. -/
def stored (definition : String) : Key → Constraint
  | primary name parts => ⟨.primaryKey, some name.stored, parts.stored, none, [], definition⟩
  | unique name parts => ⟨.unique, some name.stored, parts.stored, none, [], definition⟩
  | index name parts => ⟨.index, some name.stored, parts.stored, none, [], definition⟩
  | foreign name parts table referenced =>
      ⟨.foreignKey, some name.stored, parts.stored, some table.stored, referenced.stored,
        definition⟩

end Key

namespace KeyName

theorem not_mem_backtick (name : KeyName) : '`' ∉ name.chars :=
  fun h => absurd (name.free '`' h) (by decide)

theorem name?_write (name : KeyName) (rest : List Char) :
    name? (name.write ++ rest) = some (name.write, rest) :=
  name?_backticked name.ne_nil name.not_mem_backtick rest

theorem level (name : KeyName) : Level name.write := by
  have hsealed : Sealed .backtick name.chars :=
    sealed_of_feed (Mask.feed_backticked name.not_mem_backtick)
  exact hsealed.level rfl rfl

theorem unsplit (name : KeyName) : Unsplit 0 name.write := by
  apply unsplit_of_isInert
  · rw [List.all_eq_true]
    intro c hc
    simp only [write, backticked, List.mem_append, List.mem_cons, List.not_mem_nil, or_false] at hc
    rcases hc with (rfl | hc) | rfl
    · rfl
    · have hfree := name.free c hc
      simp only [List.mem_cons, List.not_mem_nil, or_false, not_or] at hfree
      simp [isInert, Delimiter.ofLiteral?, hfree]
    · rfl
  · intro hcomma
    simp only [write, backticked, List.mem_append, List.mem_cons, List.not_mem_nil, or_false,
      Char.reduceEq, false_or] at hcomma
    exact absurd (name.free ',' hcomma) (by decide)

end KeyName

/-! ## Parts -/

theorem isLevel_of_isDigit {c : Char} (h : isDigit c = true) : isLevel c := by
  have hquote : Delimiter.ofChar? c = none := by
    cases hd : Delimiter.ofChar? c with
    | none => rfl
    | some d =>
        rw [Delimiter.ofChar?_eq_some] at hd
        exact absurd hd (Number.ne_of_isDigit h (by cases d <;> rfl))
  have hopen : c ≠ '(' := Number.ne_of_isDigit h rfl
  have hclose : c ≠ ')' := Number.ne_of_isDigit h rfl
  simp [isLevel, hquote, hopen, hclose]

namespace PrefixLength

theorem level (length : PrefixLength) : Level length.write :=
  (level_of_isLevel fun c hc => isLevel_of_isDigit (length.decimal c hc)).parens rfl rfl

theorem unsplit (length : PrefixLength) : Unsplit 0 length.write := by
  have hinner : Unsplit (0 + 1) length.digits := by
    apply unsplit_of_isInert
    · rw [List.all_eq_true]
      exact fun c hc => isInert_of_isLevel (isLevel_of_isDigit (length.decimal c hc))
    · exact fun _ => by decide
  exact hinner.parens

theorem dropLengthReversed?_write (length : PrefixLength) (front : List Char)
    (hfront : ∀ c ∈ front.head?, isBlank c = false) :
    dropLengthReversed? (')' :: (length.digits.reverse ++ '(' :: front)) = some front := by
  have hdigits : ∀ c ∈ length.digits.reverse, isDigit c = true := fun c hc =>
    length.decimal c (List.mem_reverse.1 hc)
  have hne : length.digits.reverse ≠ [] := by simpa using length.ne_nil
  have htrim : trimLeft (length.digits.reverse ++ '(' :: front) =
      length.digits.reverse ++ '(' :: front := by
    apply trimLeft_eq_self
    intro c hc
    rw [List.head?_append_of_ne_nil _ hne] at hc
    exact Number.not_isBlank_of_isDigit (hdigits c (List.mem_of_mem_head? hc))
  have htake : (length.digits.reverse ++ '(' :: front).takeWhile isDigit =
      length.digits.reverse := by
    rw [List.takeWhile_append_of_pos hdigits, List.takeWhile_cons_of_neg (by decide),
      List.append_nil]
  have hdrop : (length.digits.reverse ++ '(' :: front).dropWhile isDigit = '(' :: front := by
    rw [List.dropWhile_append_of_pos hdigits, List.dropWhile_cons_of_neg (by decide)]
  have hparen : trimLeft ('(' :: front) = '(' :: front := rfl
  have hsome : length.digits.reverse.isEmpty = false := by simpa using hne
  simp only [dropLengthReversed?, htrim, htake, hdrop, hparen, hsome, trimLeft_eq_self hfront]

end PrefixLength

namespace Part

def stem (part : Part) : List Char :=
  part.name.write ++ part.length.elim [] PrefixLength.write

theorem level (part : Part) : Level part.write := by
  have hlength : Level (part.length.elim [] PrefixLength.write) := by
    cases part.length with
    | none => exact Level.nil
    | some length => exact length.level
  have horder : Level (part.order.elim [] SortOrder.write) := by
    cases part.order with
    | none => exact Level.nil
    | some order => exact level_of_isLevel (List.all_eq_true.1 (by cases order <;> decide))
  exact (part.name.level.append hlength).append horder

theorem isClause (part : Part) : IsClause part.write where
  ne_nil := by simp [write, KeyName.write, backticked]
  trimmed := by
    have hlength : ∀ c ∈ (part.length.elim [] PrefixLength.write).getLast?,
        isBlank c = false := by
      intro c hc
      cases hpart : part.length with
      | none => simp [hpart] at hc
      | some length =>
          obtain rfl : ')' = c := by
            rw [hpart, Option.elim_some, PrefixLength.write, List.getLast?_append] at hc
            simpa using hc
          rfl
    have horder : ∀ c ∈ (part.order.elim [] SortOrder.write).getLast?, isBlank c = false := by
      cases part.order with
      | none => simp
      | some order =>
          intro c hc
          cases order <;>
          · cases hc
            rfl
    have hname : Trimmed part.name.write := trimmed_backticked part.name.chars
    exact (hname.append (by simp [KeyName.write, backticked]) hlength).append
      (by simp [KeyName.write, backticked]) horder
  unsplit := by
    have hlength : Unsplit 0 (part.length.elim [] PrefixLength.write) := by
      cases part.length with
      | none => exact Unsplit.nil
      | some length => exact length.unsplit
    have horder : Unsplit 0 (part.order.elim [] SortOrder.write) := by
      cases part.order with
      | none => exact Unsplit.nil
      | some order => exact unsplit_of_isInert (by cases order <;> rfl) (by cases order <;> decide)
    exact (part.name.unsplit.append hlength).append horder

/-- A stem ends in a backtick or in a parenthesis, never in a keyword. -/
theorem reverse_stem (part : Part) :
    ∃ x rest, part.stem.reverse = x :: rest ∧ (x = '`' ∨ x = ')') := by
  unfold stem KeyName.write backticked
  cases part.length with
  | none => exact ⟨'`', _, by simp; rfl, .inl rfl⟩
  | some length => exact ⟨')', _, by simp [PrefixLength.write]; rfl, .inr rfl⟩

theorem dropLastKeyword?_write (part : Part) (order : SortOrder) :
    dropLastKeyword? order.word (part.stem ++ order.write) = some part.stem := by
  obtain ⟨x, rest, hstem, hx⟩ := part.reverse_stem
  have hback : (x :: rest).reverse = part.stem := by
    rw [← hstem, List.reverse_reverse]
  have hblank : dropBlanks (x :: rest) = x :: rest :=
    List.dropWhile_cons_of_neg (by rcases hx with rfl | rfl <;> decide)
  rw [dropLastKeyword?, List.reverse_append, hstem]
  cases order <;>
  · change (some (dropBlanks (x :: rest))).map List.reverse = some part.stem
    rw [hblank, ← hback]
    rfl

theorem dropLastKeyword?_stem (part : Part) (order : SortOrder) :
    dropLastKeyword? order.word part.stem = none := by
  obtain ⟨x, rest, hstem, hx⟩ := part.reverse_stem
  rw [dropLastKeyword?, hstem]
  cases order <;> rcases hx with rfl | rfl <;> rfl

theorem dropOrder_write (part : Part) : dropOrder part.write = part.stem := by
  have hwrite : part.write = part.stem ++ part.order.elim [] SortOrder.write := rfl
  rw [hwrite, dropOrder]
  cases part.order with
  | none =>
      have hasc : dropLastKeyword? "ASC" part.stem = none := part.dropLastKeyword?_stem .ascending
      have hdesc : dropLastKeyword? "DESC" part.stem = none :=
        part.dropLastKeyword?_stem .descending
      simp [hasc, hdesc]
  | some order =>
      rw [Option.elim_some]
      cases order with
      | ascending =>
          have hasc : dropLastKeyword? "ASC" (part.stem ++ SortOrder.write .ascending) =
              some part.stem := part.dropLastKeyword?_write .ascending
          simp [hasc]
      | descending =>
          -- Read backwards, the one keyword is not the end of the other.
          have hasc : dropLastKeyword? "ASC" (part.stem ++ SortOrder.write .descending) = none := by
            rw [dropLastKeyword?, List.reverse_append]
            rfl
          have hdesc : dropLastKeyword? "DESC" (part.stem ++ SortOrder.write .descending) =
              some part.stem := part.dropLastKeyword?_write .descending
          simp [hasc, hdesc]

theorem dropLength_stem (part : Part) : dropLength part.stem = part.name.write := by
  unfold stem
  cases part.length with
  | none =>
      have hnone : dropLengthReversed? part.name.write.reverse = none := by
        simp [KeyName.write, backticked, dropLengthReversed?]
      rw [Option.elim_none, List.append_nil, dropLength, hnone]
      rfl
  | some length =>
      have hreverse : (part.name.write ++ length.write).reverse =
          ')' :: (length.digits.reverse ++ '(' :: part.name.write.reverse) := by
        simp [PrefixLength.write]
      have hdrop := length.dropLengthReversed?_write part.name.write.reverse
        (by simp [KeyName.write, backticked]; decide)
      rw [Option.elim_some, dropLength, hreverse, hdrop, Option.map_some, List.reverse_reverse]
      rfl

theorem keyColumn_write (part : Part) : keyColumn part.write = part.name.chars := by
  rw [keyColumn, dropOrder_write, dropLength_stem]
  exact unquote_backticked part.name.chars

end Part

namespace Parts

theorem level_inner (parts : Parts) : Level parts.inner := by
  apply intercalate_induction Level Level.nil Level.append
    (level_of_isLevel (List.all_eq_true.1 rfl))
  intro piece hpiece
  obtain ⟨part, -, rfl⟩ := List.mem_map.1 hpiece
  exact part.level

theorem keyColumns_inner (parts : Parts) : keyColumns parts.inner = parts.stored := by
  have hsplit : Clause.split parts.inner = parts.list.map Part.write := by
    apply split_intercalate
    · simpa using parts.ne_nil
    · intro clause hclause
      obtain ⟨part, -, rfl⟩ := List.mem_map.1 hclause
      exact part.isClause
  have hname : ∀ part : Part, part.name.chars ≠ [] := fun part => part.name.ne_nil
  rw [keyColumns, hsplit, List.map_map, List.filterMap_map, stored, ← List.filterMap_eq_map]
  refine List.filterMap_congr fun part _ => ?_
  simp [Part.keyColumn_write, hname, KeyName.stored]

theorem parenthesised?_write (parts : Parts) (rest : List Char) :
    parenthesised? (parts.write ++ rest) = some (parts.inner, rest) := by
  rw [write, List.append_assoc]
  exact parenthesised?_of_level (x := '(') (y := ')') parts.level_inner rfl rfl rest

theorem write_append (parts : Parts) (rest : List Char) :
    parts.write ++ rest = '(' :: (parts.inner ++ ')' :: rest) := by
  simp [write]

end Parts

/-! ## Texts before a list of parts -/

/-- Before a parenthesis, the mask makes these cells, and they show no other parenthesis. -/
structure IsLead (lead : List Cell) : Prop where
  covered : Mask.Covered lead
  closed : ∀ x ∈ lead, shown x ≠ '('

theorem IsLead.append {first second : List Cell} (hfirst : IsLead first)
    (hsecond : IsLead second) : IsLead (first ++ second) where
  covered := hfirst.covered.append hsecond.covered
  closed x hx := (List.mem_append.1 hx).elim (hfirst.closed x) (hsecond.closed x)

def isLeadChar (c : Char) : Bool := (Delimiter.ofChar? c).isNone && c != '-' && c != '('

theorem isLead_visible {text : List Char} (h : text.all isLeadChar) : IsLead (visible text) where
  covered := Mask.covered_visible fun c hc => by
    have hc := List.all_eq_true.1 h c hc
    simp only [isLeadChar, Bool.and_eq_true, Option.isNone_iff_eq_none, bne_iff_ne] at hc
    exact hc.1
  closed x hx := by
    obtain ⟨c, hc, rfl⟩ := List.mem_map.1 hx
    have hc := List.all_eq_true.1 h c hc
    simp only [isLeadChar, Bool.and_eq_true, bne_iff_ne] at hc
    exact hc.2

theorem isLead_name (name : KeyName) : IsLead (backtickedCells name.chars) where
  covered := Mask.covered_backtickedCells name.not_mem_backtick
  closed x hx := by
    simp only [backtickedCells, List.mem_append, List.mem_cons, List.not_mem_nil, or_false] at hx
    rcases hx with (rfl | hx) | rfl
    · decide
    · rw [shown_hide hx]
      decide
    · decide

section Lead

variable {lead : List Cell} (hlead : IsLead lead)

include hlead

theorem IsLead.cells_reveal_append (rest : List Char) :
    Mask.cells (Mask.reveal lead ++ '(' :: rest) =
      lead ++ ⟨'(', false⟩ :: Mask.masker.run (.code .outside) rest := by
  rw [Mask.cells, hlead.covered, Mask.run_code _ _ _ (by simp)]
  rfl

theorem IsLead.fromParen_reveal_append (rest : List Char) :
    fromParen (Mask.reveal lead ++ '(' :: rest) = '(' :: rest := by
  rw [fromParen, hlead.cells_reveal_append,
    List.dropWhile_append_of_pos (by simpa using hlead.closed),
    List.dropWhile_cons_of_neg (by simp [shown, Cell.shown]), Mask.reveal, List.map_cons,
    ← Mask.reveal, Mask.reveal_run]

theorem IsLead.columnList?_reveal_append (parts : Parts) (rest : List Char) :
    columnList? (Mask.reveal lead ++ (parts.write ++ rest)) = some (parts.stored, rest) := by
  have hparens := parts.parenthesised?_write rest
  rw [parts.write_append] at hparens
  simp only [columnList?, parts.write_append, hlead.fromParen_reveal_append, hparens,
    Option.map_some, parts.keyColumns_inner]

theorem IsLead.takeWhile_reveal_append (rest : List Char) :
    Mask.reveal ((Mask.cells (Mask.reveal lead ++ '(' :: rest)).takeWhile (shown · != '(')) =
      Mask.reveal lead := by
  rw [hlead.cells_reveal_append, List.takeWhile_append_of_pos (by simpa using hlead.closed),
    List.takeWhile_cons_of_neg (by simp [shown, Cell.shown]), List.append_nil]

end Lead

theorem columnList?_words (words : List Char) (h : words.all isLeadChar) (parts : Parts)
    (rest : List Char) :
    columnList? (words ++ (parts.write ++ rest)) = some (parts.stored, rest) := by
  have hcolumns := (isLead_visible h).columnList?_reveal_append parts rest
  rwa [reveal_visible] at hcolumns

theorem columnList?_name (words : List Char) (h : words.all isLeadChar) (name : KeyName)
    (parts : Parts) (rest : List Char) :
    columnList? (words ++ (name.write ++ ' ' :: (parts.write ++ rest))) =
      some (parts.stored, rest) := by
  have hblank : IsLead (visible [' ']) := isLead_visible (by decide)
  have hcolumns := (((isLead_visible h).append (isLead_name name)).append hblank)
    |>.columnList?_reveal_append parts rest
  rw [Mask.reveal_append, Mask.reveal_append, reveal_visible, reveal_visible,
    reveal_backtickedCells, List.append_assoc, List.append_assoc] at hcolumns
  exact hcolumns

theorem indexName?_write (name : KeyName) (parts : Parts) (rest : List Char) :
    indexName? (' ' :: (name.write ++ ' ' :: (parts.write ++ rest))) = some name.stored := by
  have hblank : IsLead (visible [' ']) := isLead_visible (by decide)
  have hhead := ((hblank.append (isLead_name name)).append hblank)
    |>.takeWhile_reveal_append (parts.inner ++ ')' :: rest)
  rw [Mask.reveal_append, Mask.reveal_append, reveal_visible, reveal_backtickedCells,
    ← parts.write_append, List.append_assoc, List.append_assoc] at hhead
  have htrim : trimLeft ([' '] ++ backticked name.chars ++ [' ']) = name.write ++ [' '] := rfl
  have husing : (upper name.write == "USING".toList) = false := by
    rw [KeyName.write, backticked, List.cons_append, upper, List.flatMap_cons]
    rfl
  have hread : name? (trimLeft (Mask.reveal ((Mask.cells
      (' ' :: (name.write ++ ' ' :: (parts.write ++ rest)))).takeWhile (shown · != '(')))) =
        some (name.write, [' ']) := by
    rw [← name.name?_write, ← htrim]
    exact congrArg (name? <| trimLeft ·) hhead
  simp only [indexName?, hread, husing]
  exact congrArg (some <| String.ofList ·) (unquote_backticked name.chars)

theorem findWord_of_some {β : Type} {reader : List Cell → Option β} {before : Option Char}
    {text : List Cell} {found : β} (hbefore : isBoundary before)
    (h : reader text = some found) (hne : text ≠ []) :
    findWord reader before text = some found := by
  cases text with
  | nil => exact absurd rfl hne
  | cons x rest => simp [findWord, hbefore, h]

theorem referenceHere?_cells (table : KeyName) (rest : List Cell) :
    referenceHere? (visible "REFERENCES ".toList ++ (backtickedCells table.chars ++
      ⟨' ', false⟩ :: ⟨'(', false⟩ :: rest)) =
        some (backtickedCells table.chars, ⟨'(', false⟩ :: rest) := by
  have hword : ∀ named : List Cell,
      afterKeywords? .anyCase ["REFERENCES"] (visible "REFERENCES ".toList ++ named) =
        some (⟨' ', false⟩ :: named) := fun _ => rfl
  have hblank : afterBlanks? (⟨' ', false⟩ :: (backtickedCells table.chars ++
      ⟨' ', false⟩ :: ⟨'(', false⟩ :: rest)) =
        some (backtickedCells table.chars ++ ⟨' ', false⟩ :: ⟨'(', false⟩ :: rest) := rfl
  have hdot : dotName? (⟨' ', false⟩ :: ⟨'(', false⟩ :: rest) = none := rfl
  rw [referenceHere?, hword, Option.bind_some, hblank, Option.bind_some, qualified?,
    name?_backtickedCells table.ne_nil]
  simp only [Option.map_some, dotNames_of_none hdot, List.reverse_nil, List.flatten_nil,
    List.append_nil]
  rfl

theorem reference_write (table : KeyName) (parts : Parts) (rest : List Char) :
    reference (' ' :: ("REFERENCES ".toList ++ (table.write ++ ' ' :: (parts.write ++ rest)))) =
      (some table.stored, parts.stored) := by
  have hblank : IsLead (visible [' ']) := isLead_visible (by decide)
  have hword : IsLead (visible "REFERENCES ".toList) := isLead_visible (by decide)
  have hcells := (hblank.append (hword.append ((isLead_name table).append hblank)))
    |>.cells_reveal_append (parts.inner ++ ')' :: rest)
  simp only [Mask.reveal_append, reveal_visible, reveal_backtickedCells, ← parts.write_append,
    List.append_assoc] at hcells
  have hfirst : ∀ later : List Cell, findWord referenceHere? none (⟨' ', false⟩ :: later) =
      findWord referenceHere? (some ' ') later := fun _ => rfl
  have hfound : findWord referenceHere? none (Mask.cells
      (' ' :: ("REFERENCES ".toList ++ (table.write ++ ' ' :: (parts.write ++ rest))))) =
        some (backtickedCells table.chars, ⟨'(', false⟩ ::
          Mask.masker.run (.code .outside) (parts.inner ++ ')' :: rest)) := by
    -- The search stops at the first word behind the blank and never comes to the names.
    refine (congrArg (findWord referenceHere? none) hcells).trans ((hfirst _).trans ?_)
    exact findWord_of_some rfl (referenceHere?_cells table _) (by simp [visible])
  have hrest : Mask.reveal (⟨'(', false⟩ ::
      Mask.masker.run (.code .outside) (parts.inner ++ ')' :: rest)) = parts.write ++ rest := by
    rw [Mask.reveal, List.map_cons, ← Mask.reveal, Mask.reveal_run, parts.write_append]
  have hcolumns : columnsOf (parts.write ++ rest) = parts.stored := by
    rw [columnsOf, ← List.nil_append (parts.write ++ rest), columnList?_words [] (by simp)]
    rfl
  rw [reference, hfound]
  simp only [hrest, hcolumns, reveal_backtickedCells,
    lastPart_backticked table.ne_nil table.not_mem_backtick]
  rfl

/-! ## Clauses -/

theorem constraintName_write (name : KeyName) (rest : List Char)
    (hrest : ∀ c ∈ rest.head?, isBlank c = false) :
    constraintName ("CONSTRAINT ".toList ++ (name.write ++ ' ' :: rest)) =
      (some name.stored, rest) := by
  have hword : ∀ named : List Char,
      afterKeywords? .anyCase ["CONSTRAINT"] ("CONSTRAINT ".toList ++ named) =
        some (' ' :: named) := fun _ => rfl
  have hblank : afterBlanks? (' ' :: (name.write ++ ' ' :: rest)) =
      some (name.write ++ ' ' :: rest) := rfl
  have hkind : startsKind (name.write ++ ' ' :: rest) = false := rfl
  have hnamed : namedConstraint? ("CONSTRAINT ".toList ++ (name.write ++ ' ' :: rest)) =
      some (name.write, rest) := by
    have htrim : trimLeft (' ' :: rest) = rest := trimLeft_eq_self hrest
    rw [namedConstraint?, hword, Option.bind_some, hblank, Option.bind_some, hkind,
      name.name?_write]
    simp [htrim]
  rw [constraintName, hnamed]
  exact congrArg (some <| String.ofList ·, rest) (unquote_backticked name.chars)

theorem announced?_primary (rest : List Char) :
    Clause.announced? .anyCase ("PRIMARY KEY ".toList ++ rest) =
      some (.primaryKey, ' ' :: rest) := by
  have hprimary : afterPhrase? .anyCase ["PRIMARY", "KEY"] ("PRIMARY KEY ".toList ++ rest) =
      some (' ' :: rest) := rfl
  rw [Clause.announced?, hprimary]
  rfl

theorem announced?_foreign (rest : List Char) :
    Clause.announced? .anyCase ("FOREIGN KEY ".toList ++ rest) =
      some (.foreignKey, ' ' :: rest) := by
  have hprimary : afterPhrase? .anyCase ["PRIMARY", "KEY"] ("FOREIGN KEY ".toList ++ rest) =
      none := rfl
  have hforeign : afterPhrase? .anyCase ["FOREIGN", "KEY"] ("FOREIGN KEY ".toList ++ rest) =
      some (' ' :: rest) := rfl
  rw [Clause.announced?, hprimary, hforeign]
  rfl

theorem announced?_unique (rest : List Char) :
    Clause.announced? .anyCase ("UNIQUE KEY ".toList ++ rest) = some (.unique, ' ' :: rest) := by
  have hprimary : afterPhrase? .anyCase ["PRIMARY", "KEY"] ("UNIQUE KEY ".toList ++ rest) =
      none := rfl
  have hforeign : afterPhrase? .anyCase ["FOREIGN", "KEY"] ("UNIQUE KEY ".toList ++ rest) =
      none := rfl
  have hunique : Clause.afterUnique? .anyCase ("UNIQUE KEY ".toList ++ rest) =
      some (' ' :: rest) := rfl
  rw [Clause.announced?, hprimary, hforeign, hunique]
  rfl

theorem announced?_index (rest : List Char) :
    Clause.announced? .anyCase ("KEY ".toList ++ rest) = some (.index, ' ' :: rest) := by
  have hprimary : afterPhrase? .anyCase ["PRIMARY", "KEY"] ("KEY ".toList ++ rest) = none := rfl
  have hforeign : afterPhrase? .anyCase ["FOREIGN", "KEY"] ("KEY ".toList ++ rest) = none := rfl
  have hunique : Clause.afterUnique? .anyCase ("KEY ".toList ++ rest) = none := rfl
  have hindex : Clause.afterIndex? .anyCase ("KEY ".toList ++ rest) = some (' ' :: rest) := rfl
  rw [Clause.announced?, hprimary, hforeign, hunique, hindex]
  rfl

section Kinds

variable {clause tail : List Char} (name : KeyName) (parts : Parts)

theorem readConstraint_primary (h : trim clause = (Key.primary name parts).write ++ tail) :
    readConstraint clause = (Key.primary name parts).stored (String.ofList (trim clause)) := by
  have hname := constraintName_write name
    ("PRIMARY KEY ".toList ++ (parts.write ++ tail)) (by simp; decide)
  have hcolumns := columnList?_words "PRIMARY KEY ".toList (by decide) parts tail
  have htext : trim clause = "CONSTRAINT ".toList ++ (name.write ++
      ' ' :: ("PRIMARY KEY ".toList ++ (parts.write ++ tail))) := by
    simp only [h, Key.write_primary, List.append_assoc, List.cons_append]
  rw [← htext] at hname
  simp only [readConstraint, hname, announced?_primary, columnsOf, hcolumns]
  rfl

theorem constraintName_of_ne {first : Char} (rest : List Char)
    (h : ¬ Letters.anyCase.meets 'C' first) :
    constraintName (first :: rest) = (none, first :: rest) := by
  have hnone : afterKeywords? .anyCase ["CONSTRAINT"] (first :: rest) = none := by
    change (if Letters.anyCase.meets 'C' first then _ else none) = none
    exact if_neg h
  simp [constraintName, namedConstraint?, hnone]

theorem readConstraint_unique (h : trim clause = (Key.unique name parts).write ++ tail) :
    readConstraint clause = (Key.unique name parts).stored (String.ofList (trim clause)) := by
  have htext : trim clause =
      "UNIQUE KEY ".toList ++ (name.write ++ ' ' :: (parts.write ++ tail)) := by
    simp only [h, Key.write_unique, List.append_assoc, List.cons_append]
  have hname : constraintName (trim clause) = (none, trim clause) := by
    rw [htext]
    exact constraintName_of_ne _ (by decide)
  have hannounced := announced?_unique (name.write ++ ' ' :: (parts.write ++ tail))
  have hcolumns := columnList?_name "UNIQUE KEY ".toList (by decide) name parts tail
  have hindex := indexName?_write name parts tail
  rw [← htext] at hannounced hcolumns
  simp only [readConstraint, hname, hannounced, columnsOf, hcolumns, hindex]
  rfl

theorem readConstraint_index (h : trim clause = (Key.index name parts).write ++ tail) :
    readConstraint clause = (Key.index name parts).stored (String.ofList (trim clause)) := by
  have htext : trim clause = "KEY ".toList ++ (name.write ++ ' ' :: (parts.write ++ tail)) := by
    simp only [h, Key.write_index, List.append_assoc, List.cons_append]
  have hname : constraintName (trim clause) = (none, trim clause) := by
    rw [htext]
    exact constraintName_of_ne _ (by decide)
  have hannounced := announced?_index (name.write ++ ' ' :: (parts.write ++ tail))
  have hcolumns := columnList?_name "KEY ".toList (by decide) name parts tail
  have hindex := indexName?_write name parts tail
  rw [← htext] at hannounced hcolumns
  simp only [readConstraint, hname, hannounced, columnsOf, hcolumns, hindex]
  rfl

theorem readConstraint_foreign (table : KeyName) (referenced : Parts)
    (h : trim clause = (Key.foreign name parts table referenced).write ++ tail) :
    readConstraint clause =
      (Key.foreign name parts table referenced).stored (String.ofList (trim clause)) := by
  have htext : trim clause = "CONSTRAINT ".toList ++ (name.write ++
      ' ' :: ("FOREIGN KEY ".toList ++ (parts.write ++
        ' ' :: ("REFERENCES ".toList ++ (table.write ++ ' ' :: (referenced.write ++ tail)))))) := by
    simp only [h, Key.write_foreign, List.append_assoc, List.cons_append]
  have hname := constraintName_write name
    ("FOREIGN KEY ".toList ++ (parts.write ++
      ' ' :: ("REFERENCES ".toList ++ (table.write ++ ' ' :: (referenced.write ++ tail)))))
    (by simp; decide)
  have hcolumns := columnList?_words "FOREIGN KEY ".toList (by decide) parts
    (' ' :: ("REFERENCES ".toList ++ (table.write ++ ' ' :: (referenced.write ++ tail))))
  rw [← htext] at hname
  simp only [readConstraint, hname, announced?_foreign, hcolumns, Option.getD_some,
    reference_write]
  rfl

end Kinds

theorem Key.trimmed_write (key : Key) : Trimmed key.write := by
  obtain ⟨first, middle, hwrite, hfirst⟩ : ∃ first middle,
      key.write = first :: middle ++ [')'] ∧ isBlank first = false := by
    cases key with
    | primary name parts =>
        refine ⟨'C', "ONSTRAINT ".toList ++ name.write ++ ' ' :: "PRIMARY KEY ".toList ++
          '(' :: parts.inner, ?_, rfl⟩
        simp [Key.write_primary, Parts.write]
    | unique name parts =>
        refine ⟨'U', "NIQUE KEY ".toList ++ name.write ++ ' ' :: '(' :: parts.inner, ?_, rfl⟩
        simp [Key.write_unique, Parts.write]
    | index name parts =>
        refine ⟨'K', "EY ".toList ++ name.write ++ ' ' :: '(' :: parts.inner, ?_, rfl⟩
        simp [Key.write_index, Parts.write]
    | foreign name parts table referenced =>
        refine ⟨'C', "ONSTRAINT ".toList ++ name.write ++ ' ' :: "FOREIGN KEY ".toList ++
          parts.write ++ ' ' :: "REFERENCES ".toList ++ table.write ++
            ' ' :: '(' :: referenced.inner, ?_, rfl⟩
        simp [Key.write_foreign, Parts.write]
  rw [hwrite]
  exact trimmed_of_ends middle hfirst rfl

/-- A written key is read back, with any text behind it. -/
theorem readConstraint_write (key : Key) (suffix : List Char) :
    readConstraint (key.write ++ suffix) =
      key.stored (String.ofList (trim (key.write ++ suffix))) := by
  have hne : key.write ≠ [] := by
    cases key <;> simp [Key.write_primary, Key.write_unique, Key.write_index, Key.write_foreign]
  have htrim := key.trimmed_write.trim_append_right hne suffix
  cases key with
  | primary name parts => exact readConstraint_primary name parts htrim
  | unique name parts => exact readConstraint_unique name parts htrim
  | index name parts => exact readConstraint_index name parts htrim
  | foreign name parts table referenced =>
      exact readConstraint_foreign name parts table referenced htrim

def exampleKey : Key :=
  .foreign ⟨"a REFERENCES b".toList, by decide, List.all_iff_forall_prop.1 rfl⟩
    ⟨[⟨⟨"KEY DESC".toList, by decide, List.all_iff_forall_prop.1 rfl⟩,
        some ⟨['1', '0'], by decide, List.all_iff_forall_prop.1 rfl⟩, some .descending⟩,
      ⟨⟨"x.y".toList, by decide, List.all_iff_forall_prop.1 rfl⟩, none, none⟩], by decide⟩
    ⟨"t. u".toList, by decide, List.all_iff_forall_prop.1 rfl⟩
    ⟨[⟨⟨"id ASC".toList, by decide, List.all_iff_forall_prop.1 rfl⟩, none, some .ascending⟩],
      by decide⟩

theorem readConstraint_write_names_with_keywords :
    exampleKey.write =
        "CONSTRAINT `a REFERENCES b` ".toList ++ "FOREIGN KEY (`KEY DESC`(10) ".toList ++
          "DESC, `x.y`) REFERENCES ".toList ++ "`t. u` (`id ASC` ASC)".toList ∧
      readConstraint (exampleKey.write ++ " ON DELETE CASCADE ".toList) =
        { kind := .foreignKey
          name := some "a REFERENCES b"
          columns := ["KEY DESC", "x.y"]
          referencedTable := some "t. u"
          referencedColumns := ["id ASC"]
          definition := String.ofList (exampleKey.write ++ " ON DELETE CASCADE".toList) } := by
  refine ⟨by decide +kernel, ?_⟩
  rw [readConstraint_write exampleKey " ON DELETE CASCADE ".toList]
  decide +kernel

end SchemaReader.Keys

import SchemaReader.Proofs.Canonical.Script
import SchemaReader.Proofs.Scan.Veil

/-!
# What a search sees of a canonical script

Of a name a search sees the backticks, and of a literal its quotes and the
quotes doubled inside it.  A canonical script holds no comment, so stripping
leaves it as it is, and masking hides just what stands between those quotes.
-/

namespace SchemaReader.Canonical

open SchemaReader.Scan SchemaReader.Text

def visible (text : List Char) : List Cell := text.map fun c => ⟨c, false⟩

@[simp] theorem reveal_visible (text : List Char) : Mask.reveal (visible text) = text := by
  simp [Mask.reveal, visible, Function.comp_def]

def Name.cells (name : Name) : List Cell := visible ['`'] ++ hide name.chars ++ visible ['`']

theorem Name.reveal_cells (name : Name) : Mask.reveal name.cells = name.write := by
  simp [Name.cells, Name.write]

def escapeCells (quote c : Char) : List Cell :=
  if c = '\\' then hide [c, c] else if c = quote then visible [c, c] else hide [c]

theorem reveal_escapeCells (quote c : Char) :
    Mask.reveal (escapeCells quote c) = escape quote c := by
  unfold escapeCells escape
  by_cases hslash : c = '\\'
  · simp [hslash]
  · by_cases hquote : c = quote
    · rw [if_neg hslash, if_pos hquote, if_pos (.inr hquote), reveal_visible]
    · rw [if_neg hslash, if_neg hquote, if_neg (by simp [hslash, hquote]), Mask.reveal_hide]

namespace Literal

def inner (literal : Literal) : List Cell :=
  literal.text.flatMap (escapeCells literal.delimiter.char)

def cells (literal : Literal) : List Cell :=
  visible [literal.delimiter.char] ++ literal.inner ++ visible [literal.delimiter.char]

theorem reveal_cells (literal : Literal) : Mask.reveal literal.cells = literal.write := by
  have hinner : Mask.reveal literal.inner =
      literal.text.flatMap (escape literal.delimiter.char) := by
    unfold inner
    induction literal.text with
    | nil => rfl
    | cons c text ih =>
        rw [List.flatMap_cons, Mask.reveal_append, ih, reveal_escapeCells, List.flatMap_cons]
  simp [cells, write, hinner]

theorem shown_of_mem (literal : Literal) {x : Cell} (h : x ∈ literal.cells) :
    shown x = ' ' ∨ shown x = literal.delimiter.char := by
  simp only [cells, inner, visible, List.map_singleton, List.mem_append, List.mem_singleton,
    List.mem_flatMap] at h
  rcases h with (rfl | ⟨c, -, hx⟩) | rfl
  · exact .inr rfl
  · unfold escapeCells at hx
    split at hx
    · exact .inl (shown_hide hx)
    · split at hx
      · rename_i hquote
        obtain ⟨e, he, rfl⟩ := List.mem_map.1 hx
        have hc : e = c := by simpa using he
        exact .inr (hc.trans hquote)
      · exact .inl (shown_hide hx)
  · exact .inr rfl

end Literal

/-! ## Scanning them -/

def scan (quote : Quote) (depth : Nat) (text : List Char) : List Cell :=
  (Comment.veil Comment.isDescription).run (.code quote depth) text

/-- From outside quotes, whatever the depth, the scan sees just these cells of the text behind them
and stands outside quotes again. -/
def Seen (cells : List Cell) : Prop :=
  ∀ depth, ∃ depth', ∀ rest,
    scan .outside depth (Mask.reveal cells ++ rest) = cells ++ scan .outside depth' rest

theorem Seen.nil : Seen [] := fun depth => ⟨depth, fun _ => rfl⟩

theorem Seen.append {first second : List Cell} (hfirst : Seen first) (hsecond : Seen second) :
    Seen (first ++ second) := by
  intro depth
  obtain ⟨between, hfirst⟩ := hfirst depth
  obtain ⟨after, hsecond⟩ := hsecond between
  refine ⟨after, fun rest => ?_⟩
  rw [Mask.reveal_append, List.append_assoc, List.append_assoc, hfirst, hsecond]

theorem Seen.cells_strip {cells : List Cell} (h : Seen cells) :
    Mask.cells (Comment.strip (Mask.reveal cells)) = cells := by
  obtain ⟨depth, hrun⟩ := h 0
  have hall := hrun []
  rw [List.append_nil] at hall
  rw [Comment.strip, Comment.cells_stripWith]
  refine hall.trans ?_
  rw [scan, Transducer.run_nil]
  exact List.append_nil cells

theorem Seen.mask {cells : List Cell} (h : Seen cells) :
    Mask.cells (Mask.reveal cells) = cells := by
  -- The cells of the stripped text are all the cells there are, so stripping took nothing away.
  have hstrip : Comment.strip (Mask.reveal cells) = Mask.reveal cells := by
    rw [← Mask.reveal_cells (Comment.strip (Mask.reveal cells)), h.cells_strip]
  rw [← hstrip]
  exact h.cells_strip

theorem scan_code {quote : Quote} {c : Char} {rest : List Char}
    (h : quote = .outside → ¬ Comment.BeginsComment c rest.head?) (depth : Nat) :
    scan quote depth (c :: rest) =
      Comment.cellAt quote c :: scan (quote.feed c) (Comment.depthBehind quote depth c) rest :=
  (Comment.Step.code h).run_veil Comment.isDescription

def isPlain (c : Char) : Bool := (Delimiter.ofChar? c).isNone && c != '-' && c != '/'

theorem seen_visible {text : List Char} (h : text.all isPlain) : Seen (visible text) := by
  induction text with
  | nil => exact Seen.nil
  | cons c text ih =>
      obtain ⟨⟨hquote, hdash⟩, hslash⟩ : (Delimiter.ofChar? c = none ∧ c ≠ '-') ∧ c ≠ '/' := by
        simpa [isPlain] using List.all_eq_true.1 h c (by simp)
      have hfeed : Quote.outside.feed c = .outside := by rw [Quote.feed_outside, hquote]; rfl
      have hhead : Seen [⟨c, false⟩] := by
        intro depth
        refine ⟨Comment.depthBehind .outside depth c, fun rest => ?_⟩
        have hplain := Comment.not_beginsComment_of_ne hdash hslash rest.head?
        have hcode := @scan_code .outside c rest (fun _ => hplain) depth
        rw [hfeed] at hcode
        exact hcode
      rw [List.all_cons, Bool.and_eq_true] at h
      exact hhead.append (ih h.2)

theorem scan_quoted {quote : Quote} (h : quote.isQuoted) (depth : Nat) (c : Char)
    (rest : List Char) :
    scan quote depth (c :: rest) =
      ⟨c, (quote.feed c).isQuoted⟩ :: scan (quote.feed c) depth rest := by
  cases quote with
  | outside => cases h
  | inside d => exact scan_code Quote.noConfusion depth
  | escaped d => exact scan_code Quote.noConfusion depth

theorem scan_open (d : Delimiter) (depth : Nat) (rest : List Char) :
    scan .outside depth (d.char :: rest) = ⟨d.char, false⟩ :: scan (.inside d) depth rest := by
  rw [scan_code (fun _ => Comment.not_beginsComment_of_ne ?_ ?_ _), Quote.feed_delimiter,
    Comment.depthBehind_outside, Comment.depthAfter_delimiter]
  · rfl
  all_goals cases d <;> decide

theorem scan_close (d : Delimiter) (depth : Nat) (rest : List Char) :
    scan (.inside d) depth (d.char :: rest) = ⟨d.char, false⟩ :: scan .outside depth rest := by
  rw [scan_quoted rfl, Quote.feed_inside_delimiter]
  rfl

theorem scan_hidden (d : Delimiter) (depth : Nat) (text rest : List Char)
    (h : ∀ c ∈ text, (Quote.inside d).feed c = .inside d) :
    scan (.inside d) depth (text ++ rest) = hide text ++ scan (.inside d) depth rest := by
  induction text with
  | nil => rfl
  | cons c text ih =>
      rw [List.cons_append, scan_quoted rfl, h c (by simp), ih fun e he => h e (by simp [he])]
      rfl

theorem scan_escape (d : Delimiter) (hd : d.escapes) (depth : Nat) (c : Char) (rest : List Char) :
    scan (.inside d) depth (escape d.char c ++ rest) =
      escapeCells d.char c ++ scan (.inside d) depth rest := by
  unfold escape escapeCells
  by_cases hslash : c = '\\'
  · have hfeed : (Quote.inside d).feed c = .escaped d := by
      simp [Quote.feed, Quote.step, hd, hslash]
    rw [if_pos (.inl hslash), if_pos hslash, List.cons_append, List.cons_append, scan_quoted rfl,
      hfeed, scan_quoted rfl]
    rfl
  · by_cases hquote : c = d.char
    · rw [if_pos (.inr hquote), if_neg hslash, if_pos hquote, hquote, List.cons_append,
        List.cons_append, scan_close, scan_open]
      rfl
    · rw [if_neg (by simp [hslash, hquote]), if_neg hslash, if_neg hquote]
      apply scan_hidden
      simp [Quote.feed, Quote.step, hslash, hquote]

theorem scan_escapes (d : Delimiter) (hd : d.escapes) (depth : Nat) (text rest : List Char) :
    scan (.inside d) depth (text.flatMap (escape d.char) ++ rest) =
      text.flatMap (escapeCells d.char) ++ scan (.inside d) depth rest := by
  induction text with
  | nil => rfl
  | cons c text ih =>
      rw [List.flatMap_cons, List.append_assoc, scan_escape d hd, ih, List.flatMap_cons,
        List.append_assoc]

theorem Literal.seen (literal : Literal) : Seen literal.cells := by
  intro depth
  refine ⟨depth, fun rest => ?_⟩
  rw [Literal.reveal_cells, Literal.write, List.append_assoc, List.cons_append, scan_open,
    scan_escapes _ literal.escapes, List.cons_append, scan_close]
  simp [cells, inner, visible]

theorem ne_of_isWordAscii {c d : Char} (hc : isWordAscii c) (hd : isWordAscii d = false) :
    c ≠ d := by
  rintro rfl
  rw [hd] at hc
  cases hc

theorem Name.seen (name : Name) : Seen name.cells := by
  intro depth
  refine ⟨depth, fun rest => ?_⟩
  have hfeed : ∀ c ∈ name.chars, (Quote.inside .backtick).feed c = .inside .backtick := by
    intro c hc
    have hback : c ≠ '`' := ne_of_isWordAscii (List.all_eq_true.1 name.word c hc) rfl
    simp [Quote.feed, Quote.step, Delimiter.escapes, Delimiter.char, hback]
  have hopen := scan_open .backtick depth (name.chars ++ '`' :: rest)
  have hclose := scan_close .backtick depth rest
  simp only [Delimiter.char] at hopen hclose
  rw [Name.reveal_cells, Name.write, List.append_assoc, List.cons_append, List.cons_append,
    List.nil_append, hopen, scan_hidden _ _ _ _ hfeed, hclose]
  simp [cells, visible]

/-! ## Types -/

theorem ofChar?_of_isWordAscii {c : Char} (h : isWordAscii c) : Delimiter.ofChar? c = none := by
  cases hd : Delimiter.ofChar? c with
  | none => rfl
  | some d =>
      rw [Delimiter.ofChar?_eq_some] at hd
      exact absurd hd (ne_of_isWordAscii h (by cases d <;> rfl))

theorem isPlain_of_isWordAscii {c : Char} (h : isWordAscii c) : isPlain c := by
  have hdash : c ≠ '-' := ne_of_isWordAscii h rfl
  have hslash : c ≠ '/' := ne_of_isWordAscii h rfl
  simp [isPlain, ofChar?_of_isWordAscii h, hdash, hslash]

theorem intercalate_induction {α : Type} (P : List α → Prop) {separator : List α}
    {pieces : List (List α)} (hnil : P [])
    (happend : ∀ {first second}, P first → P second → P (first ++ second))
    (hseparator : P separator) (hpieces : ∀ piece ∈ pieces, P piece) :
    P (separator.intercalate pieces) := by
  induction pieces with
  | nil => exact hnil
  | cons piece pieces ih =>
      have hpiece := hpieces piece (by simp)
      cases pieces with
      | nil => simpa using hpiece
      | cons next pieces =>
          rw [List.intercalate_cons_cons]
          have hothers := ih fun other hother => hpieces other (List.mem_cons_of_mem piece hother)
          exact happend (happend hpiece hseparator) hothers

namespace TypeToken

theorem all_name (token : TypeToken) : token.name.all isWordAscii := by
  have hfirst : isWordAscii token.first := by
    simp [isWordAscii, Char.isAlphanum, token.alpha]
  rw [name, List.all_cons, hfirst, token.word]
  rfl

theorem isWordAscii_first (token : TypeToken) : isWordAscii token.first :=
  List.all_eq_true.1 token.all_name token.first List.mem_cons_self

theorem of_mem_length? {token : TypeToken} {length : List Char} (h : length ∈ token.length?) :
    ∀ c ∈ length, isWordAscii c ∨ c = ',' := by
  unfold length? at h
  split at h
  · cases h
  · cases h
    apply intercalate_induction (fun text => ∀ c ∈ text, isWordAscii c ∨ c = ',')
    · simp
    · intro first second hfirst hsecond c hc
      rcases List.mem_append.1 hc with hc | hc
      · exact hfirst c hc
      · exact hsecond c hc
    · simp
    · intro argument hargument c hc
      have hdigits := List.all_eq_true.1 token.digits argument hargument
      have hdigit := List.all_eq_true.1 hdigits c hc
      exact .inl (by simp [isWordAscii, Char.isAlphanum, hdigit])

theorem of_mem_write {token : TypeToken} {c : Char} (h : c ∈ token.write) :
    isWordAscii c ∨ c = '(' ∨ c = ',' ∨ c = ')' := by
  rcases List.mem_append.1 h with h | h
  · exact .inl (List.all_eq_true.1 token.all_name c h)
  · unfold suffix at h
    cases hlength : token.length? with
    | none => simp [hlength] at h
    | some length =>
        simp only [hlength, Option.elim_some, List.cons_append, List.mem_cons, List.mem_append,
          List.not_mem_nil, or_false] at h
        rcases h with h | h | h
        · exact .inr (.inl h)
        · rcases of_mem_length? hlength c h with h | h
          · exact .inl h
          · exact .inr (.inr (.inl h))
        · exact .inr (.inr (.inr h))

theorem isPlain_of_mem_write {token : TypeToken} {c : Char} (h : c ∈ token.write) :
    isPlain c := by
  rcases of_mem_write h with h | rfl | rfl | rfl
  · exact isPlain_of_isWordAscii h
  · rfl
  · rfl
  · rfl

end TypeToken

inductive Word where
  | not
  | null
  | autoIncrement
  | joinedIncrement
  | primary
  | key
  | default
  | comment
  deriving DecidableEq

def Word.text : Word → String
  | not => "NOT"
  | null => "NULL"
  | autoIncrement => "AUTO_INCREMENT"
  | joinedIncrement => "AUTOINCREMENT"
  | primary => "PRIMARY"
  | key => "KEY"
  | default => "DEFAULT"
  | comment => "COMMENT"

inductive Item where
  | word (word : Word)
  | literal (literal : Literal)

def Item.cells : Item → List Cell
  | word w => visible w.text.toList
  | literal l => l.cells

def spaced (items : List Item) : List Cell := items.flatMap fun item => ⟨' ', false⟩ :: item.cells

theorem spaced_cons (item : Item) (items : List Item) :
    spaced (item :: items) = ⟨' ', false⟩ :: item.cells ++ spaced items := rfl

theorem spaced_append (first second : List Item) :
    spaced (first ++ second) = spaced first ++ spaced second := List.flatMap_append

theorem Item.seen (item : Item) : Seen item.cells := by
  cases item with
  | word w => exact seen_visible (by cases w <;> rfl)
  | literal l => exact l.seen

theorem seen_spaced (items : List Item) : Seen (spaced items) := by
  induction items with
  | nil => exact Seen.nil
  | cons item items ih =>
      have hblank : Seen (visible [' ']) := seen_visible rfl
      exact (hblank.append item.seen).append ih

namespace Column

def items (column : Column) : List Item :=
  (if column.notNull then [.word .not, .word .null] else []) ++
    (if column.autoIncrement then [.word .autoIncrement] else []) ++
    (if column.primaryKey then [.word .primary, .word .key] else []) ++
    column.default.elim [] (fun literal => [.word .default, .literal literal]) ++
    [.word .comment, .literal column.comment]

def cells (column : Column) : List Cell :=
  column.name.cells ++ visible (' ' :: column.type.write) ++ spaced column.items

theorem reveal_items (column : Column) : Mask.reveal (spaced column.items) = column.tail := by
  have hliteral : ∀ (w : Word) (literal : Literal),
      Mask.reveal (spaced [.word w, .literal literal]) =
        ' ' :: w.text.toList ++ ' ' :: literal.write := by
    intro w literal
    simp [spaced, Item.cells, Mask.reveal, ← Literal.reveal_cells, visible, Function.comp_def]
  simp only [items, tail, spaced_append, Mask.reveal_append, hliteral]
  cases column.notNull <;> cases column.autoIncrement <;> cases column.primaryKey <;>
    cases column.default <;> simp [flag, hliteral] <;> rfl

theorem reveal_cells (column : Column) : Mask.reveal column.cells = column.write := by
  simp [cells, write, Name.reveal_cells, reveal_items]

theorem seen (column : Column) : Seen column.cells := by
  refine (column.name.seen.append (seen_visible (List.all_eq_true.2 ?_))).append
    (seen_spaced column.items)
  intro c hc
  rcases List.mem_cons.1 hc with rfl | hc
  · rfl
  · exact TypeToken.isPlain_of_mem_write hc

end Column

theorem reveal_intercalate (separator : List Cell) (pieces : List (List Cell)) :
    Mask.reveal (separator.intercalate pieces) =
      (Mask.reveal separator).intercalate (pieces.map Mask.reveal) := by
  induction pieces with
  | nil => rfl
  | cons piece pieces ih =>
      cases pieces with
      | nil => simp
      | cons next pieces => simpa [List.intercalate_cons_cons] using ih

namespace Table

def bodyCells (table : Table) : List Cell :=
  (visible ", ".toList).intercalate (table.columns.map Column.cells)

def optionCells (table : Table) : List Cell := visible " COMMENT=".toList ++ table.comment.cells

def cells (table : Table) : List Cell :=
  visible "CREATE TABLE ".toList ++ table.name.cells ++ visible " (".toList ++ table.bodyCells ++
    visible [')'] ++ table.optionCells ++ visible [';']

theorem reveal_bodyCells (table : Table) : Mask.reveal table.bodyCells = table.body := by
  have hcolumns : Mask.reveal ∘ Column.cells = Column.write := funext Column.reveal_cells
  rw [bodyCells, reveal_intercalate, reveal_visible, List.map_map, hcolumns, body]

theorem reveal_optionCells (table : Table) : Mask.reveal table.optionCells = table.options := by
  unfold optionCells options
  rw [Mask.reveal_append, reveal_visible, Literal.reveal_cells]

theorem reveal_cells (table : Table) : Mask.reveal table.cells = table.write := by
  unfold cells write
  simp only [Mask.reveal_append, reveal_visible, Name.reveal_cells, reveal_bodyCells,
    reveal_optionCells]

theorem seen (table : Table) : Seen table.cells := by
  have hbody : Seen table.bodyCells := by
    apply intercalate_induction Seen Seen.nil Seen.append (seen_visible rfl)
    intro piece hpiece
    obtain ⟨column, -, rfl⟩ := List.mem_map.1 hpiece
    exact column.seen
  have hoptions : Seen table.optionCells := (seen_visible rfl).append table.comment.seen
  have hopen : Seen (visible "CREATE TABLE ".toList ++ table.name.cells ++ visible " (".toList) :=
    ((seen_visible rfl).append table.name.seen).append (seen_visible rfl)
  have hclose : Seen (visible [')']) := seen_visible rfl
  have hend : Seen (visible [';']) := seen_visible rfl
  exact (((hopen.append hbody).append hclose).append hoptions).append hend

end Table

namespace Script

def cells (script : Script) : List Cell :=
  (visible ['\n']).intercalate (script.tables.map Table.cells)

theorem cells_strip_write (script : Script) :
    Mask.cells (Comment.strip script.write) = script.cells := by
  have htables : Mask.reveal ∘ Table.cells = Table.write := funext Table.reveal_cells
  have hreveal : Mask.reveal script.cells = script.write := by
    rw [cells, reveal_intercalate, reveal_visible, List.map_map, htables, write]
  have hseen : Seen script.cells := by
    apply intercalate_induction Seen Seen.nil Seen.append (seen_visible rfl)
    intro piece hpiece
    obtain ⟨table, -, rfl⟩ := List.mem_map.1 hpiece
    exact table.seen
  rw [← hreveal]
  exact hseen.cells_strip

end Script

end SchemaReader.Canonical

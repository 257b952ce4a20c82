import SchemaReader.Proofs.Identifier.Written
import SchemaReader.Proofs.Scan.Paren
import SchemaReader.Proofs.Scan.Veil
import SchemaReader.Reading.Statement

/-!
# Reading up to a semicolon

Keywords, names and heads are read from a masked text in which quotes are closed
and a semicolon is still to come.  None of the readers gets past that semicolon,
so what follows the text changes nothing but the rest they leave.
-/

namespace SchemaReader.Reading

open SchemaReader.Scan SchemaReader.Text

/-- From inside the section `quote`, or from outside quotes, every section is closed and shows
blanks between its delimiters. -/
def Tidy : Option Delimiter → List Cell → Prop
  | none, [] => True
  | some _, [] => False
  | none, x :: rest => Tidy (Delimiter.ofChar? (shown x)) rest
  | some d, x :: rest =>
      (shown x = d.char ∧ Tidy none rest) ∨ (shown x = ' ' ∧ Tidy (some d) rest)

/-- As `Tidy`, but the last section may be left open. -/
def Sectioned : Option Delimiter → List Cell → Prop
  | _, [] => True
  | none, x :: rest => Sectioned (Delimiter.ofChar? (shown x)) rest
  | some d, x :: rest =>
      (shown x = d.char ∧ Sectioned none rest) ∨ (shown x = ' ' ∧ Sectioned (some d) rest)

/-- Scanning the text leads from the section `quote` to the section `after`, or outside sections,
and blanks are all that it shows between delimiters. -/
inductive Sections : Option Delimiter → List Cell → Option Delimiter → Prop
  | nil {quote : Option Delimiter} : Sections quote [] quote
  | code {x : Cell} {rest : List Cell} {after : Option Delimiter}
      (h : Sections (Delimiter.ofChar? (shown x)) rest after) : Sections none (x :: rest) after
  | close {d : Delimiter} {x : Cell} {rest : List Cell} {after : Option Delimiter}
      (hx : shown x = d.char) (h : Sections none rest after) : Sections (some d) (x :: rest) after
  | blank {d : Delimiter} {x : Cell} {rest : List Cell} {after : Option Delimiter}
      (hx : shown x = ' ') (h : Sections (some d) rest after) : Sections (some d) (x :: rest) after

namespace Sections

variable {quote between after : Option Delimiter} {first second : List Cell}

theorem append (h : Sections quote first between) (hsecond : Sections between second after) :
    Sections quote (first ++ second) after := by
  induction h with
  | nil => exact hsecond
  | code _ ih => exact .code (ih hsecond)
  | close hx _ ih => exact .close hx (ih hsecond)
  | blank hx _ ih => exact .blank hx (ih hsecond)

theorem tidy_append (h : Sections quote first after) (hsecond : Tidy after second) :
    Tidy quote (first ++ second) := by
  induction h with
  | nil => exact hsecond
  | code _ ih => exact ih hsecond
  | close hx _ ih => exact .inl ⟨hx, ih hsecond⟩
  | blank hx _ ih => exact .inr ⟨hx, ih hsecond⟩

theorem sectioned_append (h : Sections quote first after) (hsecond : Sectioned after second) :
    Sectioned quote (first ++ second) := by
  induction h with
  | nil => exact hsecond
  | code _ ih => exact ih hsecond
  | close hx _ ih => exact .inl ⟨hx, ih hsecond⟩
  | blank hx _ ih => exact .inr ⟨hx, ih hsecond⟩

theorem sectioned (h : Sections quote first after) : Sectioned quote first := by
  have hnil : Sectioned after [] := by cases after <;> trivial
  simpa using h.sectioned_append hnil

end Sections

theorem Tidy.sections {quote : Option Delimiter} {text : List Cell} (h : Tidy quote text) :
    Sections quote text none := by
  induction text generalizing quote with
  | nil =>
      cases quote with
      | none => exact .nil
      | some d => exact h.elim
  | cons x rest ih =>
      cases quote with
      | none => exact .code (ih h)
      | some d =>
          rcases h with ⟨hx, h⟩ | ⟨hx, h⟩
          · exact .close hx (ih h)
          · exact .blank hx (ih h)

theorem Tidy.sectioned {quote : Option Delimiter} {text : List Cell} (h : Tidy quote text) :
    Sectioned quote text :=
  h.sections.sectioned

theorem Sectioned.of_append_visible {quote : Option Delimiter} {first rest : List Cell} {x : Cell}
    (h : Sectioned quote (first ++ x :: rest)) (hblank : shown x ≠ ' ')
    (hquote : Delimiter.ofChar? (shown x) = none) : Sectioned none (x :: rest) := by
  induction first generalizing quote with
  | nil =>
      cases quote with
      | none => exact h
      | some d =>
          rcases h with ⟨hx, -⟩ | ⟨hx, -⟩
          · rw [Delimiter.ofChar?_eq_some.2 hx] at hquote
            cases hquote
          · exact absurd hx hblank
  | cons y first ih =>
      cases quote with
      | none => exact ih h
      | some d =>
          rcases h with ⟨-, h⟩ | ⟨-, h⟩
          · exact ih h
          · exact ih h

/-- The characters that quote or end a statement. -/
def stops : List Char := ['\'', '"', '`', ';']

theorem forall_stops {P : Char → Prop} (hsingle : P '\'') (hdouble : P '"') (hbacktick : P '`')
    (hsemicolon : P ';') : ∀ c ∈ stops, P c := by
  intro c hc
  simp only [stops, List.mem_cons, List.not_mem_nil, or_false] at hc
  rcases hc with rfl | rfl | rfl | rfl
  · exact hsingle
  · exact hdouble
  · exact hbacktick
  · exact hsemicolon

theorem ofChar?_of_not_mem_stops {c : Char} (h : c ∉ stops) : Delimiter.ofChar? c = none := by
  simp only [stops, List.mem_cons, List.not_mem_nil, or_false, not_or] at h
  simp [Delimiter.ofChar?, h]

/-- A semicolon is still to come, quotes are closed, and no name stands in brackets. -/
structure Settled (text : List Cell) : Prop where
  tidy : Tidy none text
  noBracket : ∀ x ∈ text, shown x ≠ '['
  semicolon : ∃ x ∈ text, shown x = ';'

theorem Tidy.of_append_inert {taken rest : List Cell} (h : Tidy none (taken ++ rest))
    (htaken : ∀ x ∈ taken, shown x ∉ stops) : Tidy none rest := by
  induction taken with
  | nil => exact h
  | cons x taken ih =>
      have hx := ofChar?_of_not_mem_stops (htaken x (by simp))
      refine ih ?_ fun y hy => htaken y (by simp [hy])
      simpa [Tidy, hx] using h

theorem Settled.of_append_inert {rest : List Cell} (taken : List Cell) (h : Settled (taken ++ rest))
    (htaken : ∀ x ∈ taken, shown x ∉ stops) : Settled rest where
  tidy := h.tidy.of_append_inert htaken
  noBracket x hx := h.noBracket x (by simp [hx])
  semicolon := by
    obtain ⟨x, hx, hsemicolon⟩ := h.semicolon
    rcases List.mem_append.1 hx with hx | hx
    · exact absurd (by rw [hsemicolon]; decide) (htaken x hx)
    · exact ⟨x, hx, hsemicolon⟩

theorem Settled.ne_nil {text : List Cell} (h : Settled text) : text ≠ [] := by
  obtain ⟨x, hx, -⟩ := h.semicolon
  exact List.ne_nil_of_mem hx

theorem Tidy.exists_close {d : Delimiter} {text : List Cell} (h : Tidy (some d) text) :
    ∃ content y after, text = content ++ y :: after ∧ (∀ x ∈ content, shown x = ' ') ∧
      shown y = d.char ∧ Tidy none after := by
  induction text with
  | nil => exact h.elim
  | cons x rest ih =>
      rcases h with ⟨hx, hrest⟩ | ⟨hx, hrest⟩
      · exact ⟨[], x, rest, rfl, by simp, hx, hrest⟩
      · obtain ⟨content, y, after, rfl, hcontent, hy, hafter⟩ := ih hrest
        refine ⟨x :: content, y, after, rfl, ?_, hy, hafter⟩
        intro z hz
        rcases List.mem_cons.1 hz with rfl | hz
        · exact hx
        · exact hcontent z hz

/-! ## Runs of characters -/

private theorem takeWhile_append_of_stop {α : Type} {p : α → Bool} {text : List α}
    (h : ∃ x ∈ text, p x = false) (later : List α) :
    (text ++ later).takeWhile p = text.takeWhile p ∧
      (text ++ later).dropWhile p = text.dropWhile p ++ later := by
  induction text with
  | nil => simp at h
  | cons y text ih =>
      cases hy : p y with
      | false => simp [hy]
      | true =>
          have hstop : ∃ x ∈ text, p x = false := by grind
          simp [hy, ih hstop]

theorem inert_of {p : Char → Bool} (hstops : ∀ c ∈ stops, p c = false) {c : Char} (h : p c) :
    c ∉ stops := by
  intro hc
  simp [hstops c hc] at h

theorem Settled.exists_false {text : List Cell} (h : Settled text) {p : Char → Bool}
    (hstops : ∀ c ∈ stops, p c = false) : ∃ x ∈ text, p (shown x) = false := by
  obtain ⟨x, hx, hsemicolon⟩ := h.semicolon
  exact ⟨x, hx, by rw [hsemicolon]; exact hstops ';' (by decide)⟩

theorem Settled.takeWhile_append {text : List Cell} (h : Settled text) {p : Char → Bool}
    (hstops : ∀ c ∈ stops, p c = false) (later : List Cell) :
    (text ++ later).takeWhile (p <| shown ·) = text.takeWhile (p <| shown ·) ∧
      (text ++ later).dropWhile (p <| shown ·) = text.dropWhile (p <| shown ·) ++ later :=
  takeWhile_append_of_stop (h.exists_false hstops) later

theorem Settled.settled_dropWhile {text : List Cell} (h : Settled text) {p : Char → Bool}
    (hstops : ∀ c ∈ stops, p c = false) : Settled (text.dropWhile (p <| shown ·)) := by
  have hsplit := List.takeWhile_append_dropWhile (p := (p <| shown ·)) (l := text)
  refine Settled.of_append_inert (text.takeWhile (p <| shown ·)) (by rwa [hsplit]) ?_
  intro x hx
  exact inert_of hstops (by simpa using List.all_eq_true.1 List.all_takeWhile x hx)

theorem isBlank_stops : ∀ c ∈ stops, isBlank c = false :=
  forall_stops rfl rfl rfl rfl

theorem Settled.settled_dropBlanks {text : List Cell} (h : Settled text) :
    Settled (dropBlanks text) :=
  h.settled_dropWhile isBlank_stops

theorem Settled.dropBlanks_append {text : List Cell} (h : Settled text) (later : List Cell) :
    Text.dropBlanks (text ++ later) = Text.dropBlanks text ++ later :=
  (h.takeWhile_append isBlank_stops later).2

theorem Settled.settled_afterBlanks? {text rest : List Cell} (h : Settled text)
    (hrest : Text.afterBlanks? text = some rest) : Settled rest := by
  cases text with
  | nil => cases hrest
  | cons x tail =>
      simp only [Text.afterBlanks?] at hrest
      split at hrest
      · rename_i hx
        cases hrest
        have htail : Settled tail :=
          Settled.of_append_inert [x] h (by simpa using inert_of isBlank_stops hx)
        exact htail.settled_dropBlanks
      · cases hrest

theorem Settled.afterBlanks?_append {text : List Cell} (h : Settled text) (later : List Cell) :
    Text.afterBlanks? (text ++ later) = (Text.afterBlanks? text).map (· ++ later) := by
  cases text with
  | nil => exact absurd rfl h.ne_nil
  | cons x tail =>
      simp only [List.cons_append, Text.afterBlanks?]
      split
      · rename_i hx
        have htail : Settled tail :=
          Settled.of_append_inert [x] h (by simpa using inert_of isBlank_stops hx)
        rw [htail.dropBlanks_append]
        rfl
      · rfl

def isSpeakable (capital : Char) : Bool :=
  stops.all fun c => !Letters.anyCase.meets capital c

theorem meets_stops {capital : Char} (h : isSpeakable capital) :
    ∀ c ∈ stops, Letters.anyCase.meets capital c = false := by
  intro c hc
  simpa using List.all_eq_true.1 h c hc

theorem Settled.afterKeyword?_append {text : List Cell} (h : Settled text) {keyword : List Char}
    (hkeyword : keyword.all isSpeakable) (later : List Cell) :
    (∀ rest, afterKeyword? .anyCase keyword text = some rest → Settled rest) ∧
      afterKeyword? .anyCase keyword (text ++ later) =
        (afterKeyword? .anyCase keyword text).map (· ++ later) := by
  induction keyword generalizing text with
  | nil =>
      refine ⟨?_, by simp [afterKeyword?]⟩
      intro rest hrest
      simp only [afterKeyword?, Option.some.injEq] at hrest
      exact hrest ▸ h
  | cons k keyword ih =>
      rw [List.all_cons, Bool.and_eq_true] at hkeyword
      cases text with
      | nil => exact absurd rfl h.ne_nil
      | cons x tail =>
          simp only [List.cons_append, afterKeyword?]
          split
          · rename_i hx
            have htail : Settled tail := by
              refine Settled.of_append_inert [x] h ?_
              simpa using inert_of (meets_stops hkeyword.1) hx
            exact ih htail hkeyword.2
          · simp

theorem Settled.afterKeywords?_append {text : List Cell} (h : Settled text)
    (keywords : List String) (hkeywords : keywords.all (·.toList.all isSpeakable))
    (later : List Cell) :
    (∀ rest, afterKeywords? .anyCase keywords text = some rest → Settled rest) ∧
      afterKeywords? .anyCase keywords (text ++ later) =
        (afterKeywords? .anyCase keywords text).map (· ++ later) := by
  induction keywords generalizing text with
  | nil =>
      refine ⟨?_, by simp [afterKeywords?]⟩
      intro rest hrest
      simp only [afterKeywords?, Option.some.injEq] at hrest
      exact hrest ▸ h
  | cons keyword keywords ih =>
      rw [List.all_cons, Bool.and_eq_true] at hkeywords
      obtain ⟨hsettled, happend⟩ := h.afterKeyword?_append hkeywords.1 later
      cases keywords with
      | nil => exact ⟨hsettled, happend⟩
      | cons next keywords =>
          simp only [afterKeywords?, happend]
          cases hafter : afterKeyword? .anyCase keyword.toList text with
          | none => simp
          | some gap =>
              have hgap := hsettled gap hafter
              simp only [Option.map_some, Option.bind_some, hgap.afterBlanks?_append]
              cases hblank : Text.afterBlanks? gap with
              | none => simp
              | some rest =>
                  exact ih (hgap.settled_afterBlanks? hblank) hkeywords.2

/-! ## Names -/

def extend {β : Type} (later : List Cell) (read : β × List Cell) : β × List Cell :=
  (read.1, read.2 ++ later)

theorem Settled.delimited?_append {text : List Cell} (h : Settled text) (later : List Cell) :
    (∀ name rest, Identifier.delimited? text = some (name, rest) → Settled rest) ∧
      Identifier.delimited? (text ++ later) =
        (Identifier.delimited? text).map (extend later) := by
  cases text with
  | nil => exact absurd rfl h.ne_nil
  | cons x tail =>
      cases hcloser : Identifier.closer? (shown x) with
      | none => simp [Identifier.delimited?, hcloser]
      | some closer =>
          have hbracket := h.noBracket x (by simp)
          -- A bracket apart, the delimiter of a name opens a section that its own kind closes.
          obtain ⟨d, hquote, rfl⟩ :
              ∃ d, Delimiter.ofChar? (shown x) = some d ∧ d.char = closer := by
            simp only [Identifier.closer?, if_neg hbracket] at hcloser
            split at hcloser
            · rename_i hx
              exact ⟨.backtick, by rw [hx]; rfl, by cases hcloser; rfl⟩
            · split at hcloser
              · rename_i hx
                exact ⟨.double, by rw [hx]; rfl, by cases hcloser; rfl⟩
              · cases hcloser
          have htidy : Tidy (some d) tail := by
            have := h.tidy
            rwa [Tidy, hquote] at this
          obtain ⟨content, y, after, rfl, hcontent, hy, hafter⟩ := htidy.exists_close
          have hplain : ∀ z ∈ content, shown z ≠ d.char := by
            intro z hz
            rw [hcontent z hz]
            cases d <;> decide
          have hsettled : Settled after := by
            refine ⟨hafter, fun z hz => h.noBracket z (by simp [hz]), ?_⟩
            obtain ⟨z, hz, hsemicolon⟩ := h.semicolon
            simp only [List.mem_cons, List.mem_append] at hz
            rcases hz with rfl | hz | rfl | hz
            · rw [hsemicolon] at hquote
              cases hquote
            · rw [hcontent z hz] at hsemicolon
              exact absurd hsemicolon (by decide)
            · rw [hy] at hsemicolon
              exact absurd hsemicolon (by cases d <;> decide)
            · exact ⟨z, hz, hsemicolon⟩
          rw [List.cons_append, List.append_assoc, List.cons_append,
            Identifier.delimited?_of_closer? hcloser hplain hy,
            Identifier.delimited?_of_closer? hcloser hplain hy]
          constructor
          · intro name rest hread
            split at hread
            · cases hread
            · cases hread
              exact hsettled
          · split <;> simp [extend]

theorem isNameChar_stops : ∀ c ∈ stops, Identifier.isNameChar c = false :=
  forall_stops rfl rfl rfl rfl

theorem Settled.bare?_append {text : List Cell} (h : Settled text) (later : List Cell) :
    (∀ name rest, Identifier.bare? text = some (name, rest) → Settled rest) ∧
      Identifier.bare? (text ++ later) = (Identifier.bare? text).map (extend later) := by
  obtain ⟨htake, hdrop⟩ := h.takeWhile_append isNameChar_stops later
  constructor
  · intro name rest hread
    simp only [Identifier.bare?] at hread
    split at hread
    · cases hread
    · cases hread
      exact h.settled_dropWhile isNameChar_stops
  · simp only [Identifier.bare?, htake, hdrop]
    split <;> simp [extend]

theorem Settled.name?_append {text : List Cell} (h : Settled text) (later : List Cell) :
    (∀ name rest, Identifier.name? text = some (name, rest) → Settled rest) ∧
      Identifier.name? (text ++ later) = (Identifier.name? text).map (extend later) := by
  obtain ⟨hdelimited, hdelimitedAppend⟩ := h.delimited?_append later
  obtain ⟨hbare, hbareAppend⟩ := h.bare?_append later
  constructor
  · intro name rest hread
    rcases Option.or_eq_some_iff.1 hread with hread | ⟨-, hread⟩
    · exact hdelimited name rest hread
    · exact hbare name rest hread
  · simp only [Identifier.name?, hdelimitedAppend, hbareAppend]
    cases Identifier.delimited? text <;> rfl

theorem Settled.dotName?_append {text : List Cell} (h : Settled text) (later : List Cell) :
    (∀ part rest, Identifier.dotName? text = some (part, rest) → Settled rest) ∧
      Identifier.dotName? (text ++ later) = (Identifier.dotName? text).map (extend later) := by
  have htake : (text ++ later).takeWhile isBlankAt = text.takeWhile isBlankAt :=
    (h.takeWhile_append isBlank_stops later).1
  have hblanks := h.settled_dropBlanks
  unfold Identifier.dotName?
  rw [h.dropBlanks_append]
  rcases hdrop : dropBlanks text with _ | ⟨x, rest⟩
  · exact absurd hdrop hblanks.ne_nil
  · simp only [List.cons_append]
    split
    · rename_i hdot
      have hrest : Settled rest := by
        rw [hdrop] at hblanks
        exact Settled.of_append_inert [x] hblanks (by simp [hdot]; decide)
      have hrestTake : (rest ++ later).takeWhile isBlankAt = rest.takeWhile isBlankAt :=
        (hrest.takeWhile_append isBlank_stops later).1
      obtain ⟨hname, hnameAppend⟩ := hrest.settled_dropBlanks.name?_append later
      constructor
      · intro part after hread
        simp only [Option.map_eq_some_iff, Prod.mk.injEq, Prod.exists] at hread
        obtain ⟨name, final, hread, -, rfl⟩ := hread
        exact hname name final hread
      · rw [hrest.dropBlanks_append, hnameAppend, htake, hrestTake]
        cases Identifier.name? (dropBlanks rest) <;> simp [extend]
    · simp

theorem Settled.dotNames_append {text : List Cell} (h : Settled text) (later : List Cell)
    (parts : List (List Cell)) :
    Settled (Identifier.dotNames parts text).2 ∧
      Identifier.dotNames parts (text ++ later) =
        extend later (Identifier.dotNames parts text) := by
  obtain ⟨hsettled, happend⟩ := h.dotName?_append later
  fun_induction Identifier.dotNames parts text with
  | case1 parts text part rest hread _ ih =>
      have hrest := hsettled part rest hread
      obtain ⟨hih, hihAppend⟩ := ih hrest (hrest.dotName?_append later).1
        (hrest.dotName?_append later).2
      rw [hread] at happend
      exact ⟨hih, by rw [Identifier.dotNames_of_some happend, hihAppend]⟩
  | case2 parts text hread =>
      rw [hread] at happend
      exact ⟨h, Identifier.dotNames_of_none happend parts⟩

theorem Settled.qualified?_append {text : List Cell} (h : Settled text) (later : List Cell) :
    (∀ name rest, Identifier.qualified? text = some (name, rest) → Settled rest) ∧
      Identifier.qualified? (text ++ later) =
        (Identifier.qualified? text).map (extend later) := by
  obtain ⟨hname, hnameAppend⟩ := h.name?_append later
  unfold Identifier.qualified?
  cases hread : Identifier.name? text with
  | none => simp [hnameAppend, hread]
  | some read =>
      obtain ⟨first, after⟩ := read
      obtain ⟨hsettled, happend⟩ := (hname first after hread).dotNames_append later []
      constructor
      · intro name rest hfound
        cases hfound
        exact hsettled
      · simp [hnameAppend, hread, extend, happend]

/-! ## Heads -/

def TableHead.extend (later : List Cell) (head : TableHead) : TableHead :=
  ⟨head.name, head.body ++ later⟩

theorem Settled.namedTable?_append {text : List Cell} (h : Settled text) (later : List Cell) :
    (∀ head, namedTable? text = some head → Settled head.body) ∧
      namedTable? (text ++ later) = (namedTable? text).map (TableHead.extend later) := by
  obtain ⟨hqualified, hqualifiedAppend⟩ := h.qualified?_append later
  unfold namedTable?
  rw [hqualifiedAppend]
  cases hread : Identifier.qualified? text with
  | none => simp
  | some read =>
      obtain ⟨name, rest⟩ := read
      have hrest := hqualified name rest hread
      have hblanks := hrest.settled_dropBlanks
      have hshown : headShown (dropBlanks rest ++ later) = headShown (dropBlanks rest) := by
        rcases hdrop : dropBlanks rest with _ | ⟨x, tail⟩
        · exact absurd hdrop hblanks.ne_nil
        · rfl
      simp only [Option.map_some, Option.bind_some, Reading.extend, hrest.dropBlanks_append, hshown]
      constructor
      · intro head hhead
        split at hhead
        · cases hhead
          exact hblanks
        · cases hhead
      · split <;> rfl

theorem Settled.afterIfNotExists?_append {text : List Cell} (h : Settled text)
    (later : List Cell) :
    (∀ rest, afterIfNotExists? text = some rest → Settled rest) ∧
      afterIfNotExists? (text ++ later) = (afterIfNotExists? text).map (· ++ later) := by
  obtain ⟨hwords, hwordsAppend⟩ :=
    h.afterKeywords?_append ["IF", "NOT", "EXISTS"] rfl later
  unfold afterIfNotExists?
  rw [hwordsAppend]
  cases hread : afterKeywords? .anyCase ["IF", "NOT", "EXISTS"] text with
  | none => simp
  | some rest =>
      have hrest := hwords rest hread
      exact ⟨fun _ => hrest.settled_afterBlanks?, hrest.afterBlanks?_append later⟩

theorem meets_of_tableHead? {text : List Cell} {head : TableHead}
    (h : tableHead? text = some head) :
    ∃ c, headShown text = some c ∧ Letters.anyCase.meets 'C' c := by
  simp only [tableHead?, Option.bind_eq_some_iff] at h
  obtain ⟨rest, hrest, -⟩ := h
  simp only [afterKeywords?, Option.bind_eq_some_iff] at hrest
  obtain ⟨after, hafter, -⟩ := hrest
  cases text with
  | nil => cases hafter
  | cons x text =>
      rw [show "CREATE".toList = 'C' :: "REATE".toList from rfl, afterKeyword?] at hafter
      split at hafter
      · exact ⟨shown x, rfl, by assumption⟩
      · cases hafter

theorem headAt?_of_not_meets {x : Cell} (h : ¬ Letters.anyCase.meets 'C' (shown x))
    (before : Option Char) (rest : List Cell) : headAt? before (x :: rest) = none := by
  refine Option.eq_none_iff_forall_ne_some.2 fun head hhead => ?_
  obtain ⟨c, hc, hmeets⟩ := meets_of_tableHead? (tableHead?_of_headAt? hhead)
  obtain rfl : shown x = c := by simpa [headShown] using hc
  exact h hmeets

theorem Settled.tableHead?_append {text : List Cell} (h : Settled text) (later : List Cell) :
    (∀ head, tableHead? text = some head → Settled head.body) ∧
      tableHead? (text ++ later) = (tableHead? text).map (TableHead.extend later) := by
  obtain ⟨hwords, hwordsAppend⟩ :=
    h.afterKeywords?_append ["CREATE", "TABLE"] rfl later
  unfold tableHead?
  rw [hwordsAppend]
  cases hread : afterKeywords? .anyCase ["CREATE", "TABLE"] text with
  | none => simp
  | some rest =>
      have hrest := hwords rest hread
      simp only [Option.map_some, Option.bind_some, hrest.afterBlanks?_append]
      cases hblank : Text.afterBlanks? rest with
      | none => simp
      | some named =>
          have hnamed := hrest.settled_afterBlanks? hblank
          obtain ⟨htable, htableAppend⟩ := hnamed.namedTable?_append later
          obtain ⟨hexists, hexistsAppend⟩ := hnamed.afterIfNotExists?_append later
          simp only [Option.map_some, Option.bind_some, htableAppend, hexistsAppend]
          cases hafter : afterIfNotExists? named with
          | none => simpa using htable
          | some tail =>
              obtain ⟨htail, htailAppend⟩ := (hexists tail hafter).namedTable?_append later
              simp only [Option.map_some, Option.bind_some, htailAppend]
              constructor
              · intro head hhead
                rcases Option.or_eq_some_iff.1 hhead with hhead | ⟨-, hhead⟩
                · exact htail head hhead
                · exact htable head hhead
              · cases namedTable? tail <;> rfl

end SchemaReader.Reading

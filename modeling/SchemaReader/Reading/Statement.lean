import SchemaReader.Identifier
import SchemaReader.Scan.Comment
import SchemaReader.Scan.Quote
import SchemaReader.Text.Search

/-!
The table definitions of a script.

A definition starts with `CREATE TABLE`, a name and a parenthesis, all outside quotes.  Its body
ends at the matching parenthesis.  The table options follow and end at a semicolon, at the next
definition or at the end of the script.  A definition whose parenthesis is never closed is passed
over.
-/

namespace SchemaReader.Reading

open SchemaReader.Scan SchemaReader.Text

/-- The name of a table as it is written, and the text from the opening parenthesis on. -/
structure TableHead where
  name : List Cell
  body : List Cell
  deriving DecidableEq, Repr

def namedTable? (text : List Cell) : Option TableHead :=
  (Identifier.qualified? text).bind fun (name, rest) =>
    if headShown (dropBlanks rest) = some '(' then some ⟨name, dropBlanks rest⟩ else none

def afterIfNotExists? (text : List Cell) : Option (List Cell) :=
  (afterKeywords? .anyCase ["IF", "NOT", "EXISTS"] text).bind afterBlanks?

def tableHead? (text : List Cell) : Option TableHead :=
  (afterKeywords? .anyCase ["CREATE", "TABLE"] text).bind fun rest =>
    (afterBlanks? rest).bind fun named =>
      ((afterIfNotExists? named).bind namedTable?).or (namedTable? named)

theorem namedTable?_suffix {text : List Cell} {head : TableHead}
    (h : namedTable? text = some head) : head.body <:+ text := by
  simp only [namedTable?, Option.bind_eq_some_iff, Prod.exists] at h
  obtain ⟨name, rest, hname, h⟩ := h
  split at h
  · simp only [Option.some.injEq] at h
    subst h
    exact (dropBlanks_suffix rest).trans ⟨name, Identifier.append_of_qualified? hname⟩
  · simp at h

theorem tableHead?_suffix {text : List Cell} {head : TableHead}
    (h : tableHead? text = some head) : head.body <:+ text := by
  simp only [tableHead?, Option.bind_eq_some_iff, Option.or_eq_some_iff] at h
  obtain ⟨rest, hrest, named, hnamed, h⟩ := h
  have outer := (afterBlanks?_suffix hnamed).trans (afterKeywords?_suffix hrest)
  rcases h with ⟨after, hafter, h⟩ | ⟨-, h⟩
  · simp only [afterIfNotExists?, Option.bind_eq_some_iff] at hafter
    obtain ⟨gap, hgap, hafter⟩ := hafter
    exact (namedTable?_suffix h).trans
      ((afterBlanks?_suffix hafter).trans ((afterKeywords?_suffix hgap).trans outer))
  · exact (namedTable?_suffix h).trans outer

theorem headShown_of_namedTable? {text : List Cell} {head : TableHead}
    (h : namedTable? text = some head) : headShown head.body = some '(' := by
  simp only [namedTable?, Option.bind_eq_some_iff, Prod.exists] at h
  obtain ⟨name, rest, -, h⟩ := h
  split at h
  · cases h
    assumption
  · cases h

theorem headShown_of_tableHead? {text : List Cell} {head : TableHead}
    (h : tableHead? text = some head) : headShown head.body = some '(' := by
  simp only [tableHead?, Option.bind_eq_some_iff, Option.or_eq_some_iff] at h
  obtain ⟨_, _, _, _, ⟨_, _, h⟩ | ⟨_, h⟩⟩ := h <;> exact headShown_of_namedTable? h

theorem body_ne_nil_of_tableHead? {text : List Cell} {head : TableHead}
    (h : tableHead? text = some head) : head.body ≠ [] := by
  intro hnil
  have hopen := headShown_of_tableHead? h
  rw [hnil] at hopen
  cases hopen

inductive Segment where
  /-- A definition without a closing parenthesis, by its name as it is written. -/
  | unclosed (name : List Char)
  | table (name body options : List Char)
  deriving DecidableEq, Repr

def headAt? (before : Option Char) (text : List Cell) : Option TableHead :=
  if isBoundary before then tableHead? text else none

theorem tableHead?_of_headAt? {before : Option Char} {text : List Cell} {head : TableHead}
    (h : headAt? before text = some head) : tableHead? text = some head := by
  unfold headAt? at h
  split at h
  · exact h
  · cases h

structure Place where
  before : Option Char
  rest : List Cell
  deriving DecidableEq, Repr

/-- The table options, up to a semicolon or the next definition, and the place where they end. -/
def optionsFrom (before : Option Char) (out : List Cell) : List Cell → List Cell × Place
  | [] => (out.reverse, ⟨before, []⟩)
  | x :: rest =>
      if shown x = ';' || (headAt? before (x :: rest)).isSome then
        (out.reverse, ⟨before, x :: rest⟩)
      else optionsFrom (some (shown x)) (x :: out) rest

theorem optionsFrom_suffix (before : Option Char) (out text : List Cell) :
    (optionsFrom before out text).2.rest <:+ text := by
  fun_induction optionsFrom before out text with
  | case1 => simp
  | case2 => simp
  | case3 _ _ _ _ _ ih => exact ih.trans (List.suffix_cons _ _)

def segmentOf (head : TableHead) : Segment × Place :=
  match closing? head.body with
  | none => (.unclosed (Mask.reveal head.name), ⟨some '(', head.body.drop 1⟩)
  | some close =>
      let (options, place) := optionsFrom (some ')') [] (head.body.drop (close + 1))
      (.table (Mask.reveal head.name) (Mask.reveal ((head.body.take close).drop 1))
        (Mask.reveal options), place)

def nextSegment? (before : Option Char) : List Cell → Option (Segment × Place)
  | [] => none
  | x :: rest =>
      match headAt? before (x :: rest) with
      | some head => some (segmentOf head)
      | none => nextSegment? (some (shown x)) rest

theorem length_lt_of_segmentOf {head : TableHead} (h : head.body ≠ []) :
    (segmentOf head).2.rest.length < head.body.length := by
  have := List.length_pos_iff.2 h
  unfold segmentOf
  split
  · simp only [List.length_drop]
    omega
  · rename_i close _
    have := (optionsFrom_suffix (some ')') [] (head.body.drop (close + 1))).length_le
    simp only [List.length_drop] at this ⊢
    omega

theorem length_lt_of_nextSegment? {before : Option Char} {text : List Cell}
    {found : Segment × Place} (h : nextSegment? before text = some found) :
    found.2.rest.length < text.length := by
  fun_induction nextSegment? before text with
  | case1 => simp at h
  | case2 before x rest head hhead =>
      simp only [Option.some.injEq] at h
      subst h
      have htable := tableHead?_of_headAt? hhead
      exact Nat.lt_of_lt_of_le (length_lt_of_segmentOf (body_ne_nil_of_tableHead? htable))
        (tableHead?_suffix htable).length_le
  | case3 _ _ _ _ ih =>
      have := ih h
      simp only [List.length_cons]
      omega

def segmentsFrom (out : List Segment) (place : Place) : List Segment :=
  match h : nextSegment? place.before place.rest with
  | none => out.reverse
  | some (segment, next) =>
      have : next.rest.length < place.rest.length := length_lt_of_nextSegment? h
      segmentsFrom (segment :: out) next
termination_by place.rest.length

def segments (script : List Char) : List Segment :=
  segmentsFrom [] ⟨none, Mask.cells script⟩

end SchemaReader.Reading

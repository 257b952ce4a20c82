import SchemaReader.Identifier
import SchemaReader.Scan.Quote
import SchemaReader.Schema.Basic
import SchemaReader.Text.Case
import SchemaReader.Text.Character
import SchemaReader.Text.Search

/-!
The clauses of a table body, and their kinds.

A body is cut at the commas outside string literals and outside parentheses.  Clauses are trimmed,
and empty ones are dropped.  A constraint starts with its keywords; anything else that starts with a
name and a blank is a column.
-/

namespace SchemaReader.Clause

open SchemaReader.Scan SchemaReader.Text
open SchemaReader.Schema (ConstraintKind)

/-- Where a scan for commas stands; a body may close parentheses that it did not open. -/
structure Position where
  quote : Quote
  depth : Int
  deriving DecidableEq, Repr

def Position.start : Position := ⟨.outside, 0⟩

/-- One character further.  Only string literals are quoted here. -/
def Position.step (p : Position) (c : Char) : Position :=
  let quote := p.quote.step Delimiter.ofLiteral? c
  if p.quote.isQuoted then ⟨quote, p.depth⟩
  else if c = '(' then ⟨quote, p.depth + 1⟩
  else if c = ')' then ⟨quote, p.depth - 1⟩
  else ⟨quote, p.depth⟩

def Position.separates (p : Position) (c : Char) : Bool :=
  !p.quote.isQuoted && c == ',' && p.depth == 0

def flush (out : List (List Char)) (piece : List Char) : List (List Char) :=
  let clause := trim piece.reverse
  if clause.isEmpty then out else clause :: out

def splitFrom (p : Position) (out : List (List Char)) (piece : List Char) :
    List Char → List (List Char)
  | [] => (flush out piece).reverse
  | c :: rest =>
      if p.separates c then splitFrom p (flush out piece) [] rest
      else splitFrom (p.step c) out (c :: piece) rest

def split (body : List Char) : List (List Char) := splitFrom .start [] [] body

variable {α : Type} [Shown α]

def afterKeyNoun? (letters : Letters) (text : List α) : Option (List α) :=
  ((afterBlanks? text).bind fun rest =>
    (afterPhrase? letters ["KEY"] rest).or (afterPhrase? letters ["INDEX"] rest)).or
  (if isBoundary (headShown text) then some text else none)

def afterUnique? (letters : Letters) (text : List α) : Option (List α) :=
  (afterKeywords? letters ["UNIQUE"] text).bind (afterKeyNoun? letters)

def afterIndex? (letters : Letters) (text : List α) : Option (List α) :=
  ((afterKeywords? letters ["FULLTEXT"] text).bind (afterKeyNoun? letters)).or
  (((afterKeywords? letters ["SPATIAL"] text).bind (afterKeyNoun? letters)).or
  ((afterPhrase? letters ["KEY"] text).or (afterPhrase? letters ["INDEX"] text)))

/-- The kind of constraint that the keywords at the head of a text announce, and the text after
them. -/
def announced? (letters : Letters) (text : List α) : Option (ConstraintKind × List α) :=
  ((afterPhrase? letters ["PRIMARY", "KEY"] text).map (.primaryKey, ·)).or
  (((afterPhrase? letters ["FOREIGN", "KEY"] text).map (.foreignKey, ·)).or
  (((afterUnique? letters text).map (.unique, ·)).or
  (((afterIndex? letters text).map (.index, ·)).or
  ((afterPhrase? letters ["CHECK"] text).map (.check, ·)))))

end SchemaReader.Clause

namespace SchemaReader

inductive ClauseKind where
  | column
  | constraint
  | unrecognized
  deriving DecidableEq, Repr

namespace ClauseKind

open SchemaReader.Text

def name : ClauseKind → String
  | column => "column"
  | constraint => "constraint"
  | unrecognized => "unrecognized"

def startsConstraint (capitals : List Char) : Bool :=
  (Clause.announced? .exact capitals).isSome || (afterPhrase? .exact ["CONSTRAINT"] capitals).isSome

def startsColumn (text : List Char) : Bool :=
  ((Identifier.name? text).bind fun (_, rest) => afterBlanks? rest).isSome

def ofClause (clause : List Char) : ClauseKind :=
  let text := trim clause
  if startsConstraint (upper text) then constraint
  else if startsColumn text then column
  else unrecognized

end ClauseKind

end SchemaReader

import SchemaReader.Clause
import SchemaReader.Scan.Comment
import SchemaReader.Scan.Quote
import SchemaReader.Text.Character

/-!
Constraint clauses: an optional name, the keywords of the constraint, its columns and, for a foreign
key, the table and columns it refers to.
-/

namespace SchemaReader.Reading

open SchemaReader.Schema SchemaReader.Scan SchemaReader.Text

def dropLastKeyword? (keyword : String) (part : List Char) : Option (List Char) :=
  (afterKeyword? .anyCase keyword.toList.reverse part.reverse).bind fun rest =>
    (afterBlanks? rest).map List.reverse

def dropOrder (part : List Char) : List Char :=
  ((dropLastKeyword? "ASC" part).or (dropLastKeyword? "DESC" part)).getD part

def dropLengthReversed? : List Char → Option (List Char)
  | ')' :: rest =>
      let text := trimLeft rest
      match (text.takeWhile isDigit).isEmpty, trimLeft (text.dropWhile isDigit) with
      | false, '(' :: after => some (trimLeft after)
      | _, _ => none
  | _ => none

def dropLength (part : List Char) : List Char :=
  ((dropLengthReversed? part.reverse).map List.reverse).getD part

def keyColumn (part : List Char) : List Char :=
  Identifier.unquote (dropLength (dropOrder part))

def keyColumns (parts : List Char) : List String :=
  ((Clause.split parts).map keyColumn).filterMap fun name =>
    if name.isEmpty then none else some (String.ofList name)

def fromParen (text : List Char) : List Char :=
  Mask.reveal ((Mask.cells text).dropWhile (shown · != '('))

def columnList? (text : List Char) : Option (List String × List Char) :=
  (parenthesised? (fromParen text)).map fun (parts, rest) => (keyColumns parts, rest)

def columnsOf (text : List Char) : List String :=
  ((columnList? text).map (·.1)).getD []

def indexName? (afterKeywords : List Char) : Option String :=
  let head := Mask.reveal ((Mask.cells afterKeywords).takeWhile (shown · != '('))
  match Identifier.name? (trimLeft head) with
  | none => none
  | some (written, _) =>
      if upper written == "USING".toList then none
      else some (String.ofList (Identifier.unquote written))

/-- Keywords that cannot be the name of a constraint. -/
def startsKind (text : List Char) : Bool :=
  ["PRIMARY", "FOREIGN", "UNIQUE", "CHECK"].any fun keyword =>
    (afterPhrase? .anyCase [keyword] text).isSome

def namedConstraint? (text : List Char) : Option (List Char × List Char) :=
  (afterKeywords? .anyCase ["CONSTRAINT"] text).bind fun rest =>
    (afterBlanks? rest).bind fun named =>
      if startsKind named then none
      else (Identifier.name? named).map fun (written, after) => (written, trimLeft after)

def constraintName (text : List Char) : Option String × List Char :=
  match namedConstraint? text with
  | some (written, rest) => (some (String.ofList (Identifier.unquote written)), rest)
  | none =>
      match afterKeywords? .anyCase ["CONSTRAINT"] text with
      | some rest => (none, trimLeft rest)
      | none => (none, text)

def referenceHere? (text : List Cell) : Option (List Cell × List Cell) :=
  (afterKeywords? .anyCase ["REFERENCES"] text).bind fun rest =>
    (afterBlanks? rest).bind fun named =>
      (Identifier.qualified? named).map fun (table, after) => (table, dropBlanks after)

def reference (text : List Char) : Option String × List String :=
  match findWord referenceHere? none (Mask.cells text) with
  | none => (none, [])
  | some (table, rest) =>
      (some (String.ofList (Identifier.lastPart (Mask.reveal table))), columnsOf (Mask.reveal rest))

/-- The constraint of a clause.  What is not recognised is kept as it is written. -/
def readConstraint (clause : List Char) : Constraint :=
  let text := trim clause
  let definition := String.ofList text
  let (name, body) := constraintName text
  match Clause.announced? .anyCase body with
  | some (.primaryKey, _) => ⟨.primaryKey, name, columnsOf body, none, [], definition⟩
  | some (.foreignKey, rest) =>
      let (columns, remainder) := (columnList? body).getD ([], [])
      let (table, referenced) := reference remainder
      ⟨.foreignKey, name.or (indexName? rest), columns, table, referenced, definition⟩
  | some (.check, _) => ⟨.check, name, [], none, [], definition⟩
  | some (kind, rest) =>
      ⟨kind, name.or (indexName? rest), columnsOf body, none, [], definition⟩
  | none => ⟨.other, name, [], none, [], definition⟩

end SchemaReader.Reading

import SchemaReader.Clause
import SchemaReader.Document.Value
import SchemaReader.Files
import SchemaReader.Journal
import SchemaReader.Notice
import SchemaReader.Reading.Column
import SchemaReader.Reading.Constraint
import SchemaReader.Reading.Statement
import SchemaReader.Scan.Balance
import SchemaReader.Scan.Comment
import SchemaReader.Schema.Relation

/-!
Tables and catalogues from scripts, and from the files that hold them.

A script with a defect is noted and read all the same.  Reading fails only when no definition is
found or a definition holds something that cannot be represented.  Line breaks of every kind count
as one in a file.
-/

namespace SchemaReader

structure Reading (α : Type) where
  journal : List Entry
  result : Except Fault α

end SchemaReader

namespace SchemaReader.Reading

open SchemaReader.Schema SchemaReader.Scan

/-- The columns of a body.  The first clause that cannot be represented stops the reading. -/
def readColumns (options : ReadOptions) (clauses : List (List Char)) :
    Except Number.NumeralFault (List Column) :=
  ((clauses.filter fun clause => ClauseKind.ofClause clause = .column).mapM
    (readColumn options)).map (·.filterMap id)

def readConstraints (clauses : List (List Char)) : List Constraint :=
  (clauses.filter fun clause => ClauseKind.ofClause clause = .constraint).map readConstraint

def tableComment (options : List Char) : List Char := readComment options

def nameIssues (name : List Char) : List Document.Issue :=
  if name.isEmpty then [⟨["name"], .stringTooShort⟩] else []

def columnsNote (name : List Char) (columns : List Column) : List Entry :=
  if columns.isEmpty then
    [⟨.warning, s!"Table {String.ofList name} has no parsable column definitions"⟩]
  else []

def readTable (options : ReadOptions) (name body tableOptions : List Char) : Reading Table :=
  let clauses := Clause.split body
  match readColumns options clauses with
  | .error fault => ⟨[], .error (.numeral fault)⟩
  | .ok columns =>
      { journal := columnsNote name columns
        result :=
          if name.isEmpty then .error (.rejected (nameIssues name))
          else .ok
            { name := String.ofList name
              comment := String.ofList (tableComment tableOptions)
              columns := columns
              constraints := readConstraints clauses } }

def unclosedNote (name : List Char) : Entry :=
  ⟨.warning, s!"CREATE TABLE {String.ofList name} has no closing parenthesis, statement skipped"⟩

def readSegmentsFrom (options : ReadOptions) (journal : List Entry) (tables : List Table) :
    List Segment → Reading (List Table)
  | [] => ⟨journal.reverse, .ok tables.reverse⟩
  | .unclosed name :: rest =>
      readSegmentsFrom options (unclosedNote name :: journal) tables rest
  | .table name body tableOptions :: rest =>
      let table := readTable options (Identifier.lastPart name) body tableOptions
      match table.result with
      | .error fault => ⟨(table.journal.reverse ++ journal).reverse, .error fault⟩
      | .ok value =>
          readSegmentsFrom options (table.journal.reverse ++ journal) (value :: tables) rest

def readSegments (options : ReadOptions) (segments : List Segment) : Reading (List Table) :=
  readSegmentsFrom options [] [] segments

def readTables (options : ReadOptions) (cleaned : List Char) : Reading (List Table) :=
  readSegments options (segments cleaned)

def defectNote (text : List Char) : List Entry :=
  match Balance.defect? Balance.defaultLimit text with
  | some defect => [⟨.warning, s!"{defect.message}, parsing continues best-effort"⟩]
  | none => []

def countNames (names : List String) : List (String × Nat) :=
  names.foldl (fun counts name =>
    Catalogue.put name ((counts.lookup name).getD 0 + 1) counts) []

def duplicateNotes (tables : List Table) : List Entry :=
  (countNames (tables.map (lowerName ·.name))).filterMap fun (name, count) =>
    if 1 < count then
      some ⟨.warning, s!"Table {name} is defined {count} times; all definitions are kept"⟩
    else none

def countNote (tables : List Table) : Entry :=
  let summary := Catalogue.summary ⟨tables⟩
  ⟨.info, s!"Parsed {summary.tableCount} table(s) with {summary.totalFields} column(s)"⟩

def readScript (options : ReadOptions) (text : List Char) : Reading Catalogue :=
  let tables := readTables options (Comment.strip text)
  let journal := defectNote text ++ tables.journal
  match tables.result with
  | .error fault => ⟨journal, .error fault⟩
  | .ok [] => ⟨journal, .error .noTable⟩
  | .ok found => ⟨journal ++ duplicateNotes found ++ [countNote found], .ok ⟨found⟩⟩

def readValue (options : ReadOptions) : Document.Value → Reading Catalogue
  | .text script => readScript options script.toList
  | value => ⟨[], .error (.notScript value.kindName)⟩

/-- The verdict on a value as a script: the defect's message, if there is one. -/
def verdict (limit : Int) : Document.Value → Option String
  | .text script => (Balance.defect? limit script.toList).map (·.message)
  | value => some s!"SQL must be a string, got {value.kindName}"

def scriptBytes (files : Files) (path : String) : Except Fault (String × List UInt8) :=
  match files.path? path with
  | none => .error .unknownHome
  | some place =>
      match files.read place with
      | .error .missing => .error (.scriptMissing place.text)
      | .error .nameTooLong => .error .nameTooLong
      | .ok bytes => .ok (place.text, bytes)

/-- The catalogue of the script at a path; `name` is what messages call the encoding. -/
def readScriptAt (options : ReadOptions) (encoding : Text.Encoding) (files : Files)
    (path : String) (name : String := encoding.name) : Reading Catalogue :=
  match scriptBytes files path with
  | .error fault => ⟨[], .error fault⟩
  | .ok (place, bytes) =>
      match encoding.decode bytes with
      | .error fault => ⟨[], .error (.scriptUndecodable place name fault)⟩
      | .ok text => readScript options (Text.unifyLineBreaks text)

/-- The catalogue of the script at a path, in the encoding of that name.  That there is no script is
said before that there is no such encoding. -/
def readScriptIn (options : ReadOptions) (name : String) (files : Files) (path : String) :
    Reading Catalogue :=
  match Text.Encoding.ofName? name with
  | some encoding => readScriptAt options encoding files path name
  | none =>
      match scriptBytes files path with
      | .error fault => ⟨[], .error fault⟩
      | .ok _ => ⟨[], .error (.unknownEncoding name)⟩

end SchemaReader.Reading

import SchemaReader.Reading.Column
import SchemaReader.Schema.Basic

/-!
# Canonical scripts

A canonical script writes every table the same way: names between backticks,
one clause a column, comments and defaults as literals whose backslashes and
delimiters are doubled.  Beside the written form of each part stands what a
reader of scripts should store for it.
-/

namespace SchemaReader.Canonical

open SchemaReader.Number SchemaReader.Reading SchemaReader.Scan SchemaReader.Text

structure Name where
  chars : List Char
  ne_nil : chars ≠ []
  word : chars.all isWordAscii

def Name.write (name : Name) : List Char := '`' :: name.chars ++ ['`']

/-- Any text at all, and the quote that stands on both sides of it. -/
structure Literal where
  delimiter : Delimiter
  escapes : delimiter.escapes
  text : List Char

def escape (quote c : Char) : List Char := if c = '\\' ∨ c = quote then [c, c] else [c]

def Literal.write (literal : Literal) : List Char :=
  let quote := literal.delimiter.char
  quote :: literal.text.flatMap (escape quote) ++ [quote]

structure TypeToken where
  first : Char
  alpha : first.isAlpha
  others : List Char
  word : others.all isWordAscii
  arguments : List (List Char)
  digits : arguments.all (·.all Char.isDigit)

namespace TypeToken

def name (token : TypeToken) : List Char := token.first :: token.others

def length? (token : TypeToken) : Option (List Char) :=
  if token.arguments.isEmpty then none else some ([','].intercalate token.arguments)

def suffix (token : TypeToken) : List Char :=
  token.length?.elim [] fun length => '(' :: length ++ [')']

def write (token : TypeToken) : List Char := token.name ++ token.suffix

def stored (token : TypeToken) : Schema.ColumnType where
  name := String.ofList (token.name.map Char.toUpper)
  length := token.length?.map String.ofList
  written := String.ofList token.write
  family := .ofTypeName (String.ofList (token.name.map Char.toUpper))

end TypeToken

def decimalValue (d : DecimalText) : Schema.DefaultValue :=
  match d.fraction with
  | none => .integer (if d.negative then -(digitsValue d.whole : Int) else digitsValue d.whole)
  | some fraction =>
      .real (.ofDecimal d.negative (digitsValue (d.whole ++ fraction)) (-(fraction.length : Int)))

def storedDefault (text : List Char) : Schema.DefaultValue :=
  if isCurrentTimestamp text then .text "CURRENT_TIMESTAMP"
  else (decimalText? text).elim (.text (String.ofList text)) decimalValue

structure Column where
  name : Name
  type : TypeToken
  notNull : Bool
  autoIncrement : Bool
  primaryKey : Bool
  default : Option Literal
  /-- A default may turn out to be a numeral, and those have at most so many digits. -/
  bounded : ∀ literal ∈ default, literal.text.length ≤ maxDigits
  comment : Literal

namespace Column

def flag (isSet : Bool) (text : String) : List Char := if isSet then text.toList else []

def tail (column : Column) : List Char :=
  flag column.notNull " NOT NULL" ++ flag column.autoIncrement " AUTO_INCREMENT" ++
    flag column.primaryKey " PRIMARY KEY" ++
    column.default.elim [] (" DEFAULT ".toList ++ ·.write) ++
    " COMMENT ".toList ++ column.comment.write

def write (column : Column) : List Char :=
  column.name.write ++ [' '] ++ column.type.write ++ column.tail

def stored (includeComments : Bool) (column : Column) : Schema.Column where
  name := String.ofList column.name.chars
  type := column.type.stored
  nullable := !column.notNull
  default := column.default.map (storedDefault ·.text)
  autoIncrement := column.autoIncrement
  primaryKey := column.primaryKey
  comment := if includeComments then String.ofList column.comment.text else ""
  enumeration := none

end Column

structure Table where
  name : Name
  columns : List Column
  ne_nil : columns ≠ []
  comment : Literal

namespace Table

def body (table : Table) : List Char := ", ".toList.intercalate (table.columns.map Column.write)

def options (table : Table) : List Char := " COMMENT=".toList ++ table.comment.write

def write (table : Table) : List Char :=
  "CREATE TABLE ".toList ++ table.name.write ++ " (".toList ++ table.body ++ [')'] ++
    table.options ++ [';']

def stored (includeComments : Bool) (table : Table) : Schema.Table where
  name := String.ofList table.name.chars
  comment := String.ofList table.comment.text
  columns := table.columns.map (Column.stored includeComments)
  constraints := []

end Table

structure Script where
  tables : List Table
  ne_nil : tables ≠ []

namespace Script

def write (script : Script) : List Char := ['\n'].intercalate (script.tables.map Table.write)

def stored (includeComments : Bool) (script : Script) : Schema.Catalogue :=
  ⟨script.tables.map (Table.stored includeComments)⟩

end Script

end SchemaReader.Canonical

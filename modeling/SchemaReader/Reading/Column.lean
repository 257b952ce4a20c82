import SchemaReader.Document.Checked
import SchemaReader.Enumeration
import SchemaReader.Identifier
import SchemaReader.Scan.Comment
import SchemaReader.Scan.Quote
import SchemaReader.Schema.Basic
import SchemaReader.Text.Case
import SchemaReader.Text.Search

/-!
Columns of a table: a name, a type and a tail.

A type is a word, followed perhaps by a length in parentheses.  Flags, default and comment come from
the tail.  Their keywords are searched where nothing is quoted, so a comment that speaks of
`NOT NULL` changes nothing.

The family of a type is looked up by its word, once the shape of the whole token allows it.  The
table of words stands for the types that sqlglot knows in its MySQL dialect; what is proved of
columns takes the family of a type as it comes.
-/

namespace SchemaReader

structure ReadOptions where
  includeComments : Bool := true
  parseEnums : Bool := true
  deriving DecidableEq, Repr

open SchemaReader.Document

def ReadOptions.read (fields : Fields) : Checked ReadOptions :=
  closed fields ["include_comments", "parse_enums"]
    (ReadOptions.mk <$> optional fields ["include_comments"] true readBool
      <*> optional fields ["parse_enums"] true readBool)

end SchemaReader

namespace SchemaReader.Schema

open SchemaReader.Scan SchemaReader.Text

def TypeFamily.typeNames : TypeFamily → List String
  | integer => ["BIGINT", "BIT", "BYTE", "HUGEINT", "INT", "INT1", "INT128", "INT16", "INT2",
      "INT256", "INT32", "INT4", "INT64", "INT8", "INTEGER", "LONG", "MEDIUMINT", "SHORT", "SIGNED",
      "SMALLINT", "TINYINT", "UHUGEINT", "UINT", "UINT128", "UINT256", "UNSIGNED"]
  | decimal => ["BIGDECIMAL", "BIGNUMERIC", "DEC", "DECIMAL", "FIXED", "NUMBER", "NUMERIC"]
  | float => ["DOUBLE", "FLOAT", "FLOAT4", "FLOAT8", "REAL"]
  | string => ["CHAR", "CHARACTER", "CLOB", "ENUM", "LONGTEXT", "LONGVARCHAR", "MEDIUMTEXT",
      "NCHAR", "NVARCHAR", "NVARCHAR2", "SET", "STR", "STRING", "TEXT", "TINYTEXT", "UUID",
      "VARCHAR", "VARCHAR2"]
  | datetime => ["DATE", "DATETIME", "TIME", "TIMESTAMP", "TIMESTAMPLTZ", "TIMESTAMPNTZ",
      "TIMESTAMPTZ", "TIMESTAMP_LTZ", "TIMESTAMP_NTZ", "TIMETZ", "YEAR"]
  | boolean => ["BOOL", "BOOLEAN"]
  | binary => ["BINARY", "BLOB", "BYTEA", "LONGBLOB", "MEDIUMBLOB", "TINYBLOB", "VARBINARY"]
  | json => ["JSON", "JSONB"]
  | other => []

def TypeFamily.ofTypeName (name : String) : TypeFamily :=
  (all.find? (·.typeNames.contains name)).getD other

def isTypeWordChar (c : Char) : Bool :=
  c.isAlphanum || c == '_' || c == '$' || (128 ≤ c.toNat && !isBlank c)

def afterLength? (text : List Char) : Option (List Char) :=
  if text.head? = some '(' then (parenthesised? text).map (·.2) else some text

def TypeFamily.ofToken (token : List Char) : TypeFamily :=
  if (Quote.outside.after token).isQuoted || !(token.head?.any Char.isAlpha) then other
  else
    let word := token.takeWhile isTypeWordChar
    match afterLength? (trimLeft (token.dropWhile isTypeWordChar)) with
    | none => other
    | some rest =>
        if (trimLeft rest).head? = some '[' then other
        else ofTypeName (String.ofList (upper word))

def isTypeNameChar (c : Char) : Bool := c.isAlphanum || c == '_'

def lengthText? (text : List Char) : Option (List Char) :=
  (parenthesised? text).map fun (length, _) => trim length

/-- The type that a token denotes.  Without a leading letter the whole token is the name. -/
def ColumnType.ofToken (token : List Char) : ColumnType :=
  let text := trim token
  if text.head?.any Char.isAlpha then
    { name := String.ofList (upper (text.takeWhile isTypeNameChar))
      length := (lengthText? (trimLeft (text.dropWhile isTypeNameChar))).map String.ofList
      written := String.ofList token
      family := TypeFamily.ofToken text }
  else
    { name := String.ofList (upper text)
      length := none
      written := String.ofList token
      family := .other }

end SchemaReader.Schema

namespace SchemaReader.Reading

open SchemaReader.Number SchemaReader.Schema SchemaReader.Scan SchemaReader.Text

structure ColumnHead where
  name : List Char
  type : List Char
  tail : List Char
  deriving DecidableEq, Repr

def isTypeChar (c : Char) : Bool := !isBlank c && c != '('

/-- The type at the head of a text, up to the end of its length if that is closed, and the rest. -/
def splitType (text : List Char) : List Char × List Char :=
  let word := text.takeWhile isTypeChar
  let rest := text.dropWhile isTypeChar
  let blanks := rest.takeWhile isBlank
  let after := rest.dropWhile isBlank
  match closing? after with
  | some close => (word ++ blanks ++ after.take (close + 1), after.drop (close + 1))
  | none => (word, rest)

def columnHead? (clause : List Char) : Option ColumnHead :=
  (Identifier.name? (trim clause)).bind fun (written, rest) =>
    (afterBlanks? rest).bind fun text =>
      let name := Identifier.unquote written
      let (type, tail) := splitType text
      if type.head?.all (!isTypeChar ·) || name.isEmpty then none else some ⟨name, type, tail⟩

/-- Nothing follows but perhaps one line break. -/
def atEnd (text : List Char) : Bool := text.isEmpty || text == ['\n']

def afterArgument? : List Char → Option (List Char)
  | '(' :: rest =>
      match trimLeft ((trimLeft rest).dropWhile isDigit) with
      | ')' :: after => some after
      | _ => none
  | _ => none

def isCurrentTimestamp (value : List Char) : Bool :=
  match afterKeyword? .anyCase "CURRENT_TIMESTAMP".toList value with
  | none => false
  | some rest => atEnd rest || (afterArgument? rest).any atEnd

structure DecimalText where
  negative : Bool
  whole : List Char
  fraction : Option (List Char)
  deriving DecidableEq, Repr

def unsignedDecimal? (negative : Bool) (text : List Char) : Option DecimalText :=
  let whole := text.takeWhile isDigit
  let rest := text.dropWhile isDigit
  if whole.isEmpty then none
  else if atEnd rest then some ⟨negative, whole, none⟩
  else match rest with
    | '.' :: after =>
        let fraction := after.takeWhile isDigit
        if !fraction.isEmpty && atEnd (after.dropWhile isDigit) then
          some ⟨negative, whole, some fraction⟩
        else none
    | _ => none

def decimalText? : List Char → Option DecimalText
  | '-' :: text => unsignedDecimal? true text
  | '+' :: text => unsignedDecimal? false text
  | text => unsignedDecimal? false text

def DecimalText.value (d : DecimalText) : Except NumeralFault DefaultValue :=
  match d.fraction with
  | none =>
      (readNatural d.whole).map fun n => .integer (if d.negative then -(n : Int) else n)
  | some fraction =>
      .ok (.real (Binary64.ofDecimal d.negative (digitsValue (d.whole ++ fraction))
        (-(fraction.length : Int))))

def convertDefault (value : List Char) : Except NumeralFault DefaultValue :=
  if isCurrentTimestamp value then .ok (.text "CURRENT_TIMESTAMP")
  else match decimalText? value with
    | some d => d.value
    | none => .ok (.text (String.ofList value))

def tailAfter? (keyword : String) (tail : List Cell) : Option (List Cell) :=
  (afterFirst? [keyword] tail).map dropBlanks

def readDefault (tail : List Char) : Except NumeralFault (Option DefaultValue) :=
  match tailAfter? "DEFAULT" (Mask.cells tail) with
  | none => .ok none
  | some cells =>
      let text := Mask.reveal cells
      match Literal.read? text with
      | some (content, _) => (convertDefault content).map some
      | none =>
          let token := text.takeWhile fun c => !isBlank c && c != ','
          if token.isEmpty || upper token == "NULL".toList then .ok none
          else (convertDefault token).map some

/-- The text after an equals sign and the blanks after it; the sign may be absent. -/
def afterEquals (cells : List Cell) : List Cell :=
  match cells with
  | x :: rest => if shown x = '=' then dropBlanks rest else cells
  | [] => []

def readComment (tail : List Char) : List Char :=
  match tailAfter? "COMMENT" (Mask.cells tail) with
  | none => []
  | some cells =>
      match Literal.read? (Mask.reveal (afterEquals cells)) with
      | some (content, _) => content
      | none => []

/-- The column that a head describes.  The enumeration is read before the default. -/
def ColumnHead.read (options : ReadOptions) (head : ColumnHead) : Except NumeralFault Column := do
  let cells := Mask.cells head.tail
  let comment := readComment head.tail
  let enumeration ← if options.parseEnums then Enumeration.decode comment else pure none
  let default ← readDefault head.tail
  return {
    name := String.ofList head.name
    type := ColumnType.ofToken head.type
    nullable := !mentions ["NOT", "NULL"] cells
    default := default
    autoIncrement := mentions ["AUTO_INCREMENT"] cells || mentions ["AUTOINCREMENT"] cells
    primaryKey := mentions ["PRIMARY", "KEY"] cells
    comment := if options.includeComments then String.ofList comment else ""
    enumeration := enumeration }

def readColumn (options : ReadOptions) (clause : List Char) :
    Except NumeralFault (Option Column) :=
  match columnHead? clause with
  | none => .ok none
  | some head => (head.read options).map some

end SchemaReader.Reading

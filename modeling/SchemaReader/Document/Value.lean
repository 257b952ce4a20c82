import SchemaReader.Number.Binary64
import SchemaReader.Number.Shortest
import SchemaReader.Text.Quoted

/-!
Values of documents whose shape is not known beforehand (requests, settings files, stored schemas),
how they appear in messages, and what can be wrong with one that should be read as a record.
-/

namespace SchemaReader.Document

open SchemaReader.Number (Binary64)
open SchemaReader.Text

inductive Value where
  | null
  | bool (value : Bool)
  | int (value : Int)
  | real (value : Binary64)
  | text (value : String)
  | broken (points : List Text.CodePoint)
  | bytes (content : List UInt8)
  | date (written : String)
  | list (items : List Value)
  | mapping (entries : List (Value × Value))
  deriving Repr

namespace Value

def kindName : Value → String
  | null => "NoneType"
  | bool _ => "bool"
  | int _ => "int"
  | real _ => "float"
  | text _ | broken _ => "str"
  | bytes _ => "bytes"
  | date _ => "date"
  | list _ => "list"
  | mapping _ => "dict"

def isKey (key : String) : Value → Bool
  | text name => name == key
  | _ => false

end Value

abbrev Fields := List (String × Value)

/-- The value under a key; the last of several wins. -/
def Fields.get? (fields : Fields) (key : String) : Option Value :=
  fields.reverse.lookup key

mutual

def Value.inner : Value → String
  | .text value => String.ofList (quoted value.toList)
  | .null => "None"
  | .bool value => if value then "True" else "False"
  | .int value => toString value
  | .real value => value.textWith "inf"
  | .date written => written
  | .broken points => String.ofList (quotedPoints points)
  | .bytes content => "b" ++ String.ofList (quoted (content.map fun b => Char.ofNat b.toNat))
  | .list items => "[" ++ String.intercalate ", " (innerItems items) ++ "]"
  | .mapping entries => "\x7b" ++ String.intercalate ", " (innerEntries entries) ++ "\x7d"

def innerItems : List Value → List String
  | [] => []
  | item :: items => item.inner :: innerItems items

def innerEntries : List (Value × Value) → List String
  | [] => []
  | (key, value) :: entries => (key.inner ++ ": " ++ value.inner) :: innerEntries entries

end

def Value.display : Value → String
  | .text value => value
  | value => value.inner

inductive IssueKind where
  | missing
  | unknownKey
  | boolParsing
  | boolType
  | stringType
  | stringTooShort
  | stringUnicode
  | intParsing
  | intParsingSize
  | intFromFloat
  | intType
  | floatType
  | finiteNumber
  | choice
  | tupleType
  | recordType
  | value
  | frozen
  deriving DecidableEq, Repr

def IssueKind.name : IssueKind → String
  | missing => "missing"
  | unknownKey => "extra_forbidden"
  | boolParsing => "bool_parsing"
  | boolType => "bool_type"
  | stringType => "string_type"
  | stringTooShort => "string_too_short"
  | stringUnicode => "string_unicode"
  | intParsing => "int_parsing"
  | intParsingSize => "int_parsing_size"
  | intFromFloat => "int_from_float"
  | intType => "int_type"
  | floatType => "float_type"
  | finiteNumber => "finite_number"
  | choice => "enum"
  | tupleType => "tuple_type"
  | recordType => "model_type"
  | value => "value_error"
  | frozen => "frozen_instance"

structure Issue where
  path : List String
  kind : IssueKind
  deriving DecidableEq, Repr

def Issue.location (issue : Issue) : String := String.intercalate "." issue.path

def Issue.under (key : String) (issue : Issue) : Issue := { issue with path := key :: issue.path }

end SchemaReader.Document

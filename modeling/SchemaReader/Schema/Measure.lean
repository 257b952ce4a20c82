import SchemaReader.Number.Numeral
import SchemaReader.Text.Character
import SchemaReader.Text.Search

/-!
Column types, with the precision and scale that are read from the text in their parentheses.
-/

namespace SchemaReader.Schema

open SchemaReader.Number SchemaReader.Text

inductive TypeFamily where
  | integer
  | decimal
  | float
  | string
  | datetime
  | boolean
  | binary
  | json
  | other
  deriving DecidableEq, Repr

def TypeFamily.name : TypeFamily → String
  | integer => "integer"
  | decimal => "decimal"
  | float => "float"
  | string => "string"
  | datetime => "datetime"
  | boolean => "boolean"
  | binary => "binary"
  | json => "json"
  | other => "other"

def TypeFamily.all : List TypeFamily :=
  [integer, decimal, float, string, datetime, boolean, binary, json, other]

def TypeFamily.ofName? (name : String) : Option TypeFamily := all.find? (·.name == name)

structure ColumnType where
  name : String
  length : Option String
  written : String
  family : TypeFamily
  deriving DecidableEq, Repr

namespace ColumnType

def readPart (part : List Char) : Except NumeralFault (Option Nat) :=
  let text := trim part
  if !text.isEmpty && text.all isDigitLike then (readNatural text).map some else .ok none

/-- The numbers between the commas of the length.  Every part is read before any is used. -/
def lengthParts (type : ColumnType) : Except NumeralFault (List (Option Nat)) :=
  match type.length with
  | none => .ok []
  | some length =>
      if length.isEmpty then .ok []
      else (splitAtChars (· == ',') length.toList).mapM readPart

def precision (type : ColumnType) : Except NumeralFault (Option Nat) :=
  type.lengthParts.map fun parts => parts[0]?.join

def scale (type : ColumnType) : Except NumeralFault (Option Nat) :=
  type.lengthParts.map fun parts => parts[1]?.join

end ColumnType

end SchemaReader.Schema

import SchemaReader.Number.Binary64
import SchemaReader.Schema.Measure

/-!
Schemas: tables with their columns and constraints.
-/

namespace SchemaReader.Schema

open SchemaReader.Number (Binary64)

structure EnumEntry where
  value : Int
  label : String
  deriving DecidableEq, Repr

inductive DefaultValue where
  | integer (value : Int)
  | real (value : Binary64)
  | text (value : String)
  deriving DecidableEq, Repr

structure Column where
  name : String
  type : ColumnType
  nullable : Bool
  default : Option DefaultValue
  autoIncrement : Bool
  primaryKey : Bool
  comment : String
  enumeration : Option (List EnumEntry)
  deriving DecidableEq, Repr

inductive ConstraintKind where
  | primaryKey
  | foreignKey
  | unique
  | index
  | check
  | other
  deriving DecidableEq, Repr

def ConstraintKind.name : ConstraintKind → String
  | primaryKey => "primary_key"
  | foreignKey => "foreign_key"
  | unique => "unique"
  | index => "index"
  | check => "check"
  | other => "other"

def ConstraintKind.all : List ConstraintKind :=
  [primaryKey, foreignKey, unique, index, check, other]

def ConstraintKind.ofName? (name : String) : Option ConstraintKind := all.find? (·.name == name)

structure Constraint where
  kind : ConstraintKind
  name : Option String
  columns : List String
  referencedTable : Option String
  referencedColumns : List String
  definition : String
  deriving DecidableEq, Repr

structure Table where
  name : String
  comment : String
  columns : List Column
  constraints : List Constraint
  deriving DecidableEq, Repr

structure Catalogue where
  tables : List Table
  deriving DecidableEq, Repr

end SchemaReader.Schema

import SchemaReader.Document.Checked
import SchemaReader.Schema.Basic

/-!
Schemas from documents.  A key may be written in camel case or with underscores.
-/

namespace SchemaReader.Schema

open SchemaReader.Document

def EnumEntry.read (fields : Fields) : Checked EnumEntry :=
  EnumEntry.mk <$> required fields ["value"] readInt <*> required fields ["label"] readText

def ColumnType.read (fields : Fields) : Checked ColumnType :=
  ColumnType.mk <$> required fields ["name"] readText
    <*> optional fields ["length"] none (readNullable readText)
    <*> required fields ["originalType", "original_type"] readText
    <*> optional fields ["category"] .other (readChoice TypeFamily.ofName?)

/-- A number stays what it is, and a boolean becomes a number.  Anything else is refused by each of
the three kinds of default. -/
def DefaultValue.read : Value → Checked DefaultValue
  | .int n => .valid (.integer n)
  | .bool value => .valid (.integer (if value then 1 else 0))
  | .real x => .valid (.real x)
  | .text value => .valid (.text value)
  | _ => .invalid [⟨["int"], .intType⟩, ⟨["float"], .floatType⟩, ⟨["str"], .stringType⟩]

def Column.read (fields : Fields) : Checked Column :=
  Column.mk <$> required fields ["name"] readName
    <*> required fields ["type"] (readRecord ColumnType.read)
    <*> optional fields ["nullable"] true readBool
    <*> optional fields ["defaultValue", "default_value"] none (readNullable DefaultValue.read)
    <*> optional fields ["autoIncrement", "auto_increment"] false readBool
    <*> optional fields ["primaryKey", "primary_key"] false readBool
    <*> optional fields ["comment"] "" readText
    <*> optional fields ["enumValues", "enum_values"] none
      (readNullable (readList (readRecord EnumEntry.read)))

def Constraint.read (fields : Fields) : Checked Constraint :=
  Constraint.mk <$> required fields ["kind"] (readChoice ConstraintKind.ofName?)
    <*> optional fields ["name"] none (readNullable readText)
    <*> optional fields ["columns"] [] (readList readText)
    <*> optional fields ["referencedTable", "referenced_table"] none (readNullable readText)
    <*> optional fields ["referencedColumns", "referenced_columns"] [] (readList readText)
    <*> optional fields ["definition"] "" readText

def Table.read (fields : Fields) : Checked Table :=
  Table.mk <$> required fields ["name"] readName
    <*> optional fields ["comment"] "" readText
    <*> optional fields ["columns"] [] (readList (readRecord Column.read))
    <*> optional fields ["constraints"] [] (readList (readRecord Constraint.read))

def Catalogue.read (fields : Fields) : Checked Catalogue :=
  Catalogue.mk <$> optional fields ["tables"] [] (readList (readRecord Table.read))

def Table.rename (_ : Table) (_ : String) : Checked Table := (Checked.issue .frozen).under "name"

end SchemaReader.Schema

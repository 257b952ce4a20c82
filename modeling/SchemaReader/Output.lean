import SchemaReader.Number.Shortest
import SchemaReader.Schema.Relation
import SchemaReader.Text.Quoted

/-!
Catalogues as JSON documents, and the text of a document, with two spaces for each level.
-/

namespace SchemaReader.Output

open SchemaReader.Schema SchemaReader.Text

inductive Json where
  | null
  | bool (value : Bool)
  | int (value : Int)
  | real (value : Number.Binary64)
  | text (value : String)
  | array (items : List Json)
  | object (entries : List (String × Json))

namespace Json

def escapedChar (c : Char) : List Char :=
  if c = '"' || c = '\\' then ['\\', c]
  else if c = '\n' then ['\\', 'n']
  else if c = '\r' then ['\\', 'r']
  else if c = '\t' then ['\\', 't']
  else if c.toNat = 8 then ['\\', 'b']
  else if c.toNat = 12 then ['\\', 'f']
  else if c.toNat < 32 then '\\' :: 'u' :: hexDigits 4 c.toNat
  else [c]

def quotedText (value : String) : String :=
  "\"" ++ String.ofList (value.toList.flatMap escapedChar) ++ "\""

def newLine (level : Nat) : String := "\n" ++ String.ofList (List.replicate (2 * level) ' ')

mutual

def writeAt (level : Nat) (out : String) : Json → String
  | null => out ++ "null"
  | bool value => out ++ if value then "true" else "false"
  | int value => out ++ toString value
  | real value => out ++ value.textWith "Infinity"
  | text value => out ++ quotedText value
  | array [] => out ++ "[]"
  | array (item :: items) =>
      writeItems (level + 1) (writeAt (level + 1) (out ++ "[" ++ newLine (level + 1)) item) items
        ++ newLine level ++ "]"
  | object [] => out ++ "\x7b\x7d"
  | object ((key, value) :: entries) =>
      writeEntries (level + 1)
          (writeAt (level + 1) (out ++ "\x7b" ++ newLine (level + 1) ++ quotedText key ++ ": ")
            value) entries
        ++ newLine level ++ "\x7d"

def writeItems (level : Nat) (out : String) : List Json → String
  | [] => out
  | item :: items => writeItems level (writeAt level (out ++ "," ++ newLine level) item) items

def writeEntries (level : Nat) (out : String) : List (String × Json) → String
  | [] => out
  | (key, value) :: entries =>
      writeEntries level
        (writeAt level (out ++ "," ++ newLine level ++ quotedText key ++ ": ") value) entries

end

def render (json : Json) : String := json.writeAt 0 ""

end Json

def nullable (value : Option String) : Json := (value.map .text).getD .null

def texts (values : List String) : Json := .array (values.map .text)

def ofType (type : ColumnType) : Json :=
  .object [("name", .text type.name), ("length", nullable type.length),
    ("originalType", .text type.written), ("category", .text type.family.name)]

def ofDefault : Option DefaultValue → Json
  | none => .null
  | some (.integer value) => .int value
  | some (.real value) => .real value
  | some (.text value) => .text value

def ofEntry (entry : EnumEntry) : Json :=
  .object [("value", .int entry.value), ("label", .text entry.label)]

def ofEnumeration : Option (List EnumEntry) → Json
  | none => .null
  | some entries => .array (entries.map ofEntry)

def ofColumn (column : Column) : Json :=
  .object [("name", .text column.name), ("type", ofType column.type),
    ("nullable", .bool column.nullable), ("defaultValue", ofDefault column.default),
    ("autoIncrement", .bool column.autoIncrement), ("primaryKey", .bool column.primaryKey),
    ("comment", .text column.comment), ("enumValues", ofEnumeration column.enumeration)]

def ofConstraint (constraint : Constraint) : Json :=
  .object [("kind", .text constraint.kind.name), ("name", nullable constraint.name),
    ("columns", texts constraint.columns), ("referencedTable", nullable constraint.referencedTable),
    ("referencedColumns", texts constraint.referencedColumns),
    ("definition", .text constraint.definition)]

def ofTable (table : Table) : Json :=
  .object [("name", .text table.name), ("comment", .text table.comment),
    ("columns", .array (table.columns.map ofColumn)),
    ("constraints", .array (table.constraints.map ofConstraint))]

def ofOutlineField (field : OutlineField) : Json :=
  .object [("name", .text field.name), ("type", .text field.type), ("comment", .text field.comment)]

def ofOutlineTable (table : OutlineTable) : Json :=
  .object [("comment", .text table.comment), ("fields", .array (table.fields.map ofOutlineField))]

def ofRelation (relation : Relation) : Json :=
  .object [("fromTable", .text relation.fromTable), ("fromColumn", .text relation.fromColumn),
    ("toTable", .text relation.toTable), ("toColumn", .text relation.toColumn),
    ("type", .text Relation.kindName), ("explicit", .bool relation.explicit)]

def ofSummary (summary : Summary) : Json :=
  .object [("tableCount", .int summary.tableCount), ("totalFields", .int summary.totalFields)]

structure Content where
  simplified : Bool
  relations : Bool
  inferRelations : Bool
  deriving DecidableEq, Repr

def mainPart (content : Content) (catalogue : Catalogue) : String × Json :=
  if content.simplified then
    ("schema", .object (catalogue.outline.map fun (name, table) => (name, ofOutlineTable table)))
  else ("tables", .array (catalogue.tables.map ofTable))

def relationsPart (content : Content) (catalogue : Catalogue) : List (String × Json) :=
  if content.relations then
    [("relations", .array ((catalogue.relations content.inferRelations).map ofRelation))]
  else []

def payload (content : Content) (catalogue : Catalogue) : Json :=
  .object (mainPart content catalogue :: relationsPart content catalogue ++
    [("summary", ofSummary catalogue.summary)])

end SchemaReader.Output

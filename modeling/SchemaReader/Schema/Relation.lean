import SchemaReader.Schema.Basic
import SchemaReader.Text.Case

/-!
Questions about tables and catalogues, and many-to-one relations between tables.

Names are compared without regard to case.  A foreign key relates each of its columns to a column of
the table it refers to.  Besides, a column named `<entity>_id` points at the table of that entity,
unless a foreign key covers it.
-/

namespace SchemaReader.Schema

def sameName (a b : String) : Bool := lowerName a == lowerName b

namespace Table

def findColumn? (table : Table) (name : String) : Option Column :=
  table.columns.find? (sameName name ·.name)

def dedupNames (seen out : List String) : List String → List String
  | [] => out.reverse
  | name :: names =>
      if seen.contains (lowerName name) then dedupNames seen out names
      else dedupNames (lowerName name :: seen) (name :: out) names

def declaredKeys (table : Table) : List String :=
  (table.columns.filter (·.primaryKey)).map (·.name) ++
    ((table.constraints.filter (·.kind = .primaryKey)).flatMap (·.columns))

/-- The primary key: every declared name once, in the spelling of its first declaration. -/
def primaryKeyColumns (table : Table) : List String := dedupNames [] [] table.declaredKeys

end Table

structure Summary where
  tableCount : Nat
  totalFields : Nat
  deriving DecidableEq, Repr

structure OutlineField where
  name : String
  type : String
  comment : String
  deriving DecidableEq, Repr

structure OutlineTable where
  comment : String
  fields : List OutlineField
  deriving DecidableEq, Repr

def Table.outline (table : Table) : OutlineTable where
  comment := table.comment
  fields := table.columns.map fun column => ⟨column.name, column.type.written, column.comment⟩

namespace Catalogue

def size (catalogue : Catalogue) : Nat := catalogue.tables.length

def names (catalogue : Catalogue) : List String := catalogue.tables.map (·.name)

inductive IndexFault where
  | outOfRange
  deriving DecidableEq, Repr

def IndexFault.message : IndexFault → String
  | .outOfRange => "tuple index out of range"

/-- The table at an index; a negative index counts from the end. -/
def tableAt (catalogue : Catalogue) (index : Int) : Except IndexFault Table :=
  let position := if index < 0 then index + catalogue.size else index
  if position < 0 then .error .outOfRange
  else match catalogue.tables[position.toNat]? with
    | some table => .ok table
    | none => .error .outOfRange

def tablesNamed (catalogue : Catalogue) (name : String) : List Table :=
  catalogue.tables.filter (sameName name ·.name)

def summary (catalogue : Catalogue) : Summary where
  tableCount := catalogue.size
  totalFields := catalogue.tables.foldl (fun n table => n + table.columns.length) 0

def put {β : Type} (key : String) (value : β) : List (String × β) → List (String × β)
  | [] => [(key, value)]
  | (k, v) :: rest => if k = key then (key, value) :: rest else (k, v) :: put key value rest

/-- Tables by name.  A later table of the same name takes the place of an earlier one. -/
def outline (catalogue : Catalogue) : List (String × OutlineTable) :=
  catalogue.tables.foldl (fun outline table => put table.name table.outline outline) []

end Catalogue

structure Relation where
  fromTable : String
  fromColumn : String
  toTable : String
  toColumn : String
  explicit : Bool
  deriving DecidableEq, Repr

namespace Relation

def kindName : String := "many-to-one"

def idColumn : String := "id"

def idSuffix : String := "_id"

abbrev NameIndex := List (String × Table)

def indexOf (catalogue : Catalogue) : NameIndex :=
  catalogue.tables.map fun table => (lowerName table.name, table)

def tableOf? (index : NameIndex) (lowered : String) : Option Table := index.lookup lowered

/-- The columns that a foreign key refers to; without a list, the primary key of its table. -/
def targets (index : NameIndex) (key : Constraint) (table : String) : List String :=
  if key.referencedColumns.isEmpty then
    ((tableOf? index (lowerName table)).map (·.primaryKeyColumns)).getD []
  else key.referencedColumns

/-- The relations of a foreign key: columns without a counterpart refer to `id`. -/
def ofKey (index : NameIndex) (table : Table) (key : Constraint) : List Relation :=
  match key.kind, key.referencedTable with
  | .foreignKey, some target =>
      if target.isEmpty then []
      else
        let columns := targets index key target
        key.columns.mapIdx fun i column =>
          ⟨table.name, column, target, columns[i]?.getD idColumn, true⟩
  | _, _ => []

def explicitOf (index : NameIndex) (table : Table) : List Relation :=
  table.constraints.flatMap (ofKey index table)

def entity? (lowered : String) : Option String :=
  if lowered.endsWith idSuffix then
    let entity := String.ofList (lowered.toList.take (lowered.length - idSuffix.length))
    if entity.isEmpty then none else some entity
  else none

def entityTable? (index : NameIndex) (entity : String) : Option Table :=
  (tableOf? index (entity ++ "s")).or (tableOf? index entity)

def inferredFrom? (index : NameIndex) (table : Table) (covered : List String)
    (column : Column) : Option Relation :=
  if covered.contains (lowerName column.name) then none
  else
    (entity? (lowerName column.name)).bind fun entity =>
      (entityTable? index entity).map fun target =>
        ⟨table.name, column.name, target.name, idColumn, false⟩

def inferredOf (index : NameIndex) (table : Table) : List Relation :=
  let covered := (explicitOf index table).map fun relation => lowerName relation.fromColumn
  table.columns.filterMap (inferredFrom? index table covered)

end Relation

/-- The relations in the order of the tables, for each table the explicit ones first. -/
def Catalogue.relations (catalogue : Catalogue) (infer : Bool) : List Relation :=
  let index := Relation.indexOf catalogue
  catalogue.tables.flatMap fun table =>
    Relation.explicitOf index table ++
      if infer then Relation.inferredOf index table else []

end SchemaReader.Schema

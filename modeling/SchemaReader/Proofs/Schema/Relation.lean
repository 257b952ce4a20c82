import Mathlib.Data.List.Forall2
import SchemaReader.Proofs.Text.Case
import SchemaReader.Schema.Relation

/-!
# Relations of a catalogue

The relations stand in one block for each table: first those of its foreign keys,
one for each column of a key, then those that its column names suggest.  The rules
for both are stated over the catalogue itself, by the first table of a name, and
the relations are the ones that the rules allow, in this order and no others.
-/

namespace SchemaReader.Schema

def Catalogue.firstNamed? (catalogue : Catalogue) (name : String) : Option Table :=
  catalogue.tables.find? (sameName name ·.name)

namespace Relation

section Rules

variable (catalogue : Catalogue) (table : Table)

def referred (key : Constraint) (target : String) : List String :=
  if key.referencedColumns = [] then
    ((catalogue.firstNamed? target).map (·.primaryKeyColumns)).getD []
  else key.referencedColumns

/-- Each column of a foreign key is related to the column in the same place, or else to `id`.  Other
constraints relate nothing. -/
inductive KeyRelates : Constraint → List Relation → Prop
  | foreign {key : Constraint} {target : String} {relations : List Relation}
      (hkind : key.kind = .foreignKey) (htarget : key.referencedTable = some target)
      (hne : target ≠ "") (hlength : relations.length = key.columns.length)
      (hentry : ∀ (i : Nat) (column : String), key.columns[i]? = some column →
        relations[i]? =
          some ⟨table.name, column, target, (referred catalogue key target)[i]?.getD "id", true⟩) :
      KeyRelates key relations
  | other {key : Constraint} (h : key.kind = .foreignKey →
        ∀ target, key.referencedTable = some target → target = "") : KeyRelates key []

def Explicit (relations : List Relation) : Prop :=
  ∃ parts, relations = parts.flatten ∧
    List.Forall₂ (KeyRelates catalogue table) table.constraints parts

/-- The column is named after the entity of `target`, and none of the relations starts there. -/
structure Suggests (explicit : List Relation) (column : Column) (target : Table) : Prop where
  uncovered : ∀ relation ∈ explicit, ¬ sameName relation.fromColumn column.name
  entity : ∃ entity, entity ≠ "" ∧ lowerName column.name = entity ++ "_id" ∧
    (catalogue.firstNamed? (entity ++ "s")).or (catalogue.firstNamed? entity) = some target

inductive Inferred (explicit : List Relation) : List Column → List Relation → Prop
  | nil : Inferred explicit [] []
  | skip {column : Column} {columns : List Column} {relations : List Relation}
      (h : ∀ target, ¬ Suggests catalogue explicit column target)
      (hrest : Inferred explicit columns relations) :
      Inferred explicit (column :: columns) relations
  | link {column : Column} {columns : List Column} {relations : List Relation} {target : Table}
      (h : Suggests catalogue explicit column target)
      (hrest : Inferred explicit columns relations) :
      Inferred explicit (column :: columns)
        (⟨table.name, column.name, target.name, "id", false⟩ :: relations)

/-- The block of a table, with the relations that its column names suggest or without. -/
inductive Block : Bool → Table → List Relation → Prop
  | keys {table : Table} {explicit : List Relation} (h : Explicit catalogue table explicit) :
      Block false table explicit
  | names {table : Table} {explicit inferred : List Relation}
      (h : Explicit catalogue table explicit)
      (hinferred : Inferred catalogue table explicit table.columns inferred) :
      Block true table (explicit ++ inferred)

end Rules

theorem tableOf?_indexOf (catalogue : Catalogue) (name : String) :
    tableOf? (indexOf catalogue) (lowerName name) = catalogue.firstNamed? name := by
  obtain ⟨tables⟩ := catalogue
  induction tables with
  | nil => rfl
  | cons table tables ih =>
      simp only [tableOf?, indexOf, Catalogue.firstNamed?, sameName] at ih ⊢
      rw [List.map_cons, List.lookup_cons, List.find?_cons, ih]

theorem targets_indexOf (catalogue : Catalogue) (key : Constraint) (target : String) :
    targets (indexOf catalogue) key target = referred catalogue key target := by
  simp only [targets, referred, tableOf?_indexOf, List.isEmpty_iff]

theorem entityTable?_indexOf (catalogue : Catalogue) {name entity : String}
    (h : lowerName name = entity ++ "_id") :
    entityTable? (indexOf catalogue) entity =
      (catalogue.firstNamed? (entity ++ "s")).or (catalogue.firstNamed? entity) := by
  have hentity : ∀ c ∈ entity.toList, Text.Lowered c := by
    intro c hc
    have hname : c ∈ (lowerName name).toList := by
      rw [h, String.toList_append]
      exact List.mem_append_left _ hc
    exact lowered_of_mem_lowerName hname
  have hplural : ∀ c ∈ (entity ++ "s").toList, Text.Lowered c := by
    intro c hc
    rw [String.toList_append, List.mem_append] at hc
    rcases hc with hc | hc
    · exact hentity c hc
    · obtain rfl : c = 's' := by simpa using hc
      decide +kernel
  rw [entityTable?, ← tableOf?_indexOf, ← tableOf?_indexOf, lowerName_eq_self hplural,
    lowerName_eq_self hentity]

theorem keyRelates_ofKey (catalogue : Catalogue) (table : Table) (key : Constraint) :
    KeyRelates catalogue table key (ofKey (indexOf catalogue) table key) := by
  unfold ofKey
  split
  · rename_i target hkind htarget
    split
    · rename_i hempty
      refine .other fun _ other hother => ?_
      rw [htarget, Option.some.injEq] at hother
      rwa [← hother, ← String.isEmpty_iff]
    · rename_i hne
      rw [String.isEmpty_iff] at hne
      refine .foreign hkind htarget hne (by simp) fun i column hcolumn => ?_
      rw [List.getElem?_mapIdx, hcolumn, targets_indexOf]
      rfl
  · rename_i hother
    exact .other fun hkind target htarget => absurd htarget (hother target hkind)

theorem explicit_explicitOf (catalogue : Catalogue) (table : Table) :
    Explicit catalogue table (explicitOf (indexOf catalogue) table) := by
  refine ⟨table.constraints.map (ofKey (indexOf catalogue) table), List.flatMap_def, ?_⟩
  rw [List.forall₂_map_right_iff, List.forall₂_same]
  exact fun key _ => keyRelates_ofKey catalogue table key

theorem explicit_of_mem_explicitOf {index : NameIndex} {table : Table} {relation : Relation}
    (h : relation ∈ explicitOf index table) : relation.explicit = true := by
  obtain ⟨key, -, hrelation⟩ := List.mem_flatMap.1 h
  unfold ofKey at hrelation
  split at hrelation
  · split at hrelation
    · cases hrelation
    · obtain ⟨i, hi, rfl⟩ := List.mem_mapIdx.1 hrelation
      rfl
  · cases hrelation

theorem endsWith_idSuffix (name : String) :
    name.endsWith idSuffix ↔ ∃ front, name = front ++ idSuffix := by
  rw [String.endsWith_eq_endsWith_toSlice, String.Slice.endsWith_string_iff, String.copy_toSlice]
  constructor
  · rintro ⟨front, hfront⟩
    exact ⟨String.ofList front, String.toList_injective (by simp [← hfront])⟩
  · rintro ⟨front, rfl⟩
    exact ⟨front.toList, by simp⟩

theorem take_idSuffix (front : String) :
    String.ofList ((front ++ idSuffix).toList.take
      ((front ++ idSuffix).length - idSuffix.length)) = front := by
  have hlength : (front ++ idSuffix).length - idSuffix.length = front.toList.length := by
    rw [String.length_append, Nat.add_sub_cancel, String.length_toList]
  rw [hlength, String.toList_append, List.take_left, String.ofList_toList]

theorem entity?_eq_some {lowered entity : String} :
    entity? lowered = some entity ↔ entity ≠ "" ∧ lowered = entity ++ idSuffix := by
  by_cases hends : lowered.endsWith idSuffix
  · obtain ⟨front, rfl⟩ := (endsWith_idSuffix lowered).1 hends
    rw [entity?, if_pos hends, take_idSuffix, String.append_left_inj]
    by_cases hempty : front.isEmpty
    · rw [if_pos hempty]
      rw [String.isEmpty_iff] at hempty
      simp [hempty, eq_comm]
    · rw [if_neg hempty, Option.some.injEq]
      rw [String.isEmpty_iff] at hempty
      constructor
      · rintro rfl
        exact ⟨hempty, rfl⟩
      · exact fun h => h.2
  · rw [entity?, if_neg hends]
    constructor
    · intro h
      cases h
    · rintro ⟨-, hname⟩
      exact absurd ((endsWith_idSuffix lowered).2 ⟨entity, hname⟩) hends

theorem not_mem_covered {explicit : List Relation} {column : Column} :
    ¬ (explicit.map (lowerName ·.fromColumn)).contains (lowerName column.name) ↔
      ∀ relation ∈ explicit, ¬ sameName relation.fromColumn column.name := by
  simp [sameName]

theorem inferredFrom?_eq_some {catalogue : Catalogue} (table : Table) {explicit : List Relation}
    {column : Column} {relation : Relation} :
    inferredFrom? (indexOf catalogue) table (explicit.map (lowerName ·.fromColumn)) column =
        some relation ↔
      ∃ target, Suggests catalogue explicit column target ∧
        relation = ⟨table.name, column.name, target.name, "id", false⟩ := by
  constructor
  · intro h
    unfold inferredFrom? at h
    split at h
    · cases h
    · rename_i huncovered
      obtain ⟨entity, hentity, h⟩ := Option.bind_eq_some_iff.1 h
      obtain ⟨target, htarget, rfl⟩ := Option.map_eq_some_iff.1 h
      obtain ⟨hne, hname⟩ := entity?_eq_some.1 hentity
      rw [entityTable?_indexOf catalogue hname] at htarget
      exact ⟨target, ⟨not_mem_covered.1 huncovered, entity, hne, hname, htarget⟩, rfl⟩
  · rintro ⟨target, ⟨huncovered, entity, hne, hname, htarget⟩, rfl⟩
    rw [inferredFrom?, if_neg (not_mem_covered.2 huncovered), entity?_eq_some.2 ⟨hne, hname⟩,
      Option.bind_some, entityTable?_indexOf catalogue hname, htarget]
    rfl

theorem inferred_inferredOf (catalogue : Catalogue) (table : Table) :
    Inferred catalogue table (explicitOf (indexOf catalogue) table) table.columns
      (inferredOf (indexOf catalogue) table) := by
  unfold inferredOf
  dsimp only
  generalize explicitOf (indexOf catalogue) table = explicit
  induction table.columns with
  | nil => exact .nil
  | cons column columns ih =>
      rw [List.filterMap_cons]
      split
      · rename_i hnone
        refine .skip (fun target htarget => ?_) ih
        have hsome := (inferredFrom?_eq_some table).2 ⟨target, htarget, rfl⟩
        rw [hnone] at hsome
        cases hsome
      · rename_i relation hsome
        obtain ⟨target, htarget, rfl⟩ := (inferredFrom?_eq_some table).1 hsome
        exact .link htarget ih

theorem not_explicit_of_mem_inferredOf {index : NameIndex} {table : Table} {relation : Relation}
    (h : relation ∈ inferredOf index table) : relation.explicit = false := by
  obtain ⟨column, -, hcolumn⟩ := List.mem_filterMap.1 h
  unfold inferredFrom? at hcolumn
  split at hcolumn
  · cases hcolumn
  · obtain ⟨entity, -, hentity⟩ := Option.bind_eq_some_iff.1 hcolumn
    obtain ⟨target, -, rfl⟩ := Option.map_eq_some_iff.1 hentity
    rfl

theorem filter_explicit_block (index : NameIndex) (table : Table) :
    (explicitOf index table ++ inferredOf index table).filter (·.explicit) =
      explicitOf index table := by
  have hkeys : (explicitOf index table).filter (·.explicit) = explicitOf index table :=
    List.filter_eq_self.2 fun _ h => explicit_of_mem_explicitOf h
  have hnames : (inferredOf index table).filter (·.explicit) = [] :=
    List.filter_eq_nil_iff.2 fun _ h => by simp [not_explicit_of_mem_inferredOf h]
  rw [List.filter_append, hkeys, hnames, List.append_nil]

theorem block_explicitOf_append (catalogue : Catalogue) (infer : Bool) (table : Table) :
    Block catalogue infer table (explicitOf (indexOf catalogue) table ++
      if infer then inferredOf (indexOf catalogue) table else []) := by
  have hexplicit := explicit_explicitOf catalogue table
  cases infer with
  | false =>
      rw [if_neg (by simp), List.append_nil]
      exact .keys hexplicit
  | true =>
      rw [if_pos rfl]
      exact .names hexplicit (inferred_inferredOf catalogue table)

/-- The relations of a catalogue are the blocks of its tables in their order.  Those that column
names suggest are added behind the ones of the foreign keys and change none of them. -/
theorem relations_blocks (catalogue : Catalogue) :
    catalogue.relations false = (catalogue.relations true).filter (·.explicit) ∧
      ∀ infer, ∃ blocks, catalogue.relations infer = blocks.flatten ∧
        List.Forall₂ (Block catalogue infer) catalogue.tables blocks := by
  constructor
  · rw [Catalogue.relations, Catalogue.relations, List.filter_flatMap]
    refine List.flatMap_congr fun table _ => ?_
    rw [if_neg (by simp), List.append_nil, if_pos rfl, filter_explicit_block]
  · intro infer
    refine ⟨_, List.flatMap_def, ?_⟩
    rw [List.forall₂_map_right_iff, List.forall₂_same]
    exact fun table _ => block_explicitOf_append catalogue infer table

end Relation

end SchemaReader.Schema

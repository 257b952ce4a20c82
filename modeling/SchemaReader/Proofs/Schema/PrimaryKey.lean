import Mathlib.Data.List.Nodup
import SchemaReader.Schema.Relation

/-!
# The primary key of a table

Columns and constraints both declare names of the primary key.  The key lists the
names in the order of their declarations, and of names that differ in case at most
it keeps the first.
-/

namespace SchemaReader.Schema.Table

/-- The name is in the list, and no name before it is the same in lower case. -/
def IsFirst (name : String) (names : List String) : Prop :=
  ∃ before after, names = before ++ name :: after ∧
    ∀ other ∈ before, lowerName other ≠ lowerName name

theorem IsFirst.cons {name first : String} {names : List String} (h : IsFirst name names)
    (hne : lowerName first ≠ lowerName name) : IsFirst name (first :: names) := by
  obtain ⟨before, after, rfl, hbefore⟩ := h
  exact ⟨first :: before, after, rfl, List.forall_mem_cons.2 ⟨hne, hbefore⟩⟩

theorem dedupNames_eq_append (seen out names : List String) :
    dedupNames seen out names = out.reverse ++ dedupNames seen [] names := by
  induction names generalizing seen out with
  | nil => simp [dedupNames]
  | cons name names ih =>
      rw [dedupNames, dedupNames]
      split
      · exact ih seen out
      · rw [ih, ih _ [name]]
        simp

variable {seen : List String} {name : String}

theorem dedupNames_cons_of_mem (h : lowerName name ∈ seen) (names : List String) :
    dedupNames seen [] (name :: names) = dedupNames seen [] names := by
  rw [dedupNames, if_pos (by simpa using h)]

theorem dedupNames_cons_of_not_mem (h : lowerName name ∉ seen) (names : List String) :
    dedupNames seen [] (name :: names) = name :: dedupNames (lowerName name :: seen) [] names := by
  rw [dedupNames, if_neg (by simpa using h), dedupNames_eq_append]
  rfl

theorem mem_map_dedupNames {key : String} {names : List String} :
    key ∈ (dedupNames seen [] names).map lowerName ↔ key ∉ seen ∧ key ∈ names.map lowerName := by
  induction names generalizing seen with
  | nil => simp [dedupNames]
  | cons name names ih =>
      by_cases h : lowerName name ∈ seen
      · rw [dedupNames_cons_of_mem h, ih, List.map_cons, List.mem_cons]
        refine and_congr_right fun hkey => ?_
        have hne : key ≠ lowerName name := fun heq => hkey (heq ▸ h)
        rw [or_iff_right hne]
      · rw [dedupNames_cons_of_not_mem h, List.map_cons, List.map_cons, List.mem_cons, ih,
          List.mem_cons, List.mem_cons]
        by_cases heq : key = lowerName name
        · simp [heq, h]
        · simp [heq]

theorem sublist_dedupNames (seen names : List String) :
    (dedupNames seen [] names).Sublist names := by
  induction names generalizing seen with
  | nil => simp [dedupNames]
  | cons name names ih =>
      by_cases h : lowerName name ∈ seen
      · rw [dedupNames_cons_of_mem h]
        exact (ih seen).cons name
      · rw [dedupNames_cons_of_not_mem h]
        exact (ih _).cons_cons name

theorem nodup_dedupNames (seen names : List String) :
    ((dedupNames seen [] names).map lowerName).Nodup := by
  induction names generalizing seen with
  | nil => simp [dedupNames]
  | cons name names ih =>
      by_cases h : lowerName name ∈ seen
      · rw [dedupNames_cons_of_mem h]
        exact ih seen
      · rw [dedupNames_cons_of_not_mem h, List.map_cons, List.nodup_cons, mem_map_dedupNames]
        exact ⟨fun hlater => hlater.1 List.mem_cons_self, ih _⟩

theorem isFirst_of_mem_dedupNames {names : List String} (h : name ∈ dedupNames seen [] names) :
    IsFirst name names := by
  induction names generalizing seen with
  | nil => simp [dedupNames] at h
  | cons first names ih =>
      have hkey : lowerName name ∉ seen := (mem_map_dedupNames.1 (List.mem_map_of_mem h)).1
      by_cases hfirst : lowerName first ∈ seen
      · rw [dedupNames_cons_of_mem hfirst] at h
        exact (ih h).cons fun heq => hkey (heq ▸ hfirst)
      · rw [dedupNames_cons_of_not_mem hfirst] at h
        rcases List.mem_cons.1 h with rfl | h
        · exact ⟨[], names, rfl, by simp⟩
        · have hlater := (mem_map_dedupNames.1 (List.mem_map_of_mem h)).1
          exact (ih h).cons fun heq => hlater (heq ▸ List.mem_cons_self)

theorem mem_map_declaredKeys {table : Table} {key : String} :
    key ∈ table.declaredKeys.map lowerName ↔
      (∃ column ∈ table.columns, column.primaryKey ∧ lowerName column.name = key) ∨
        ∃ constraint ∈ table.constraints, constraint.kind = .primaryKey ∧
          ∃ name ∈ constraint.columns, lowerName name = key := by
  simp only [declaredKeys, List.map_append, List.mem_append, List.map_map, List.map_flatMap,
    List.mem_map, List.mem_flatMap, List.mem_filter, Function.comp_apply, decide_eq_true_eq]
  simp only [and_assoc]

/-- The primary key holds every declared name once, whatever its case, in the order of the
declarations and in the spelling of the first. -/
theorem primaryKeyColumns_firsts (table : Table) :
    (table.primaryKeyColumns.map lowerName).Nodup ∧
      (∀ key, key ∈ table.primaryKeyColumns.map lowerName ↔
        (∃ column ∈ table.columns, column.primaryKey ∧ lowerName column.name = key) ∨
          ∃ constraint ∈ table.constraints, constraint.kind = .primaryKey ∧
            ∃ name ∈ constraint.columns, lowerName name = key) ∧
      table.primaryKeyColumns.Sublist
        ((table.columns.filter (·.primaryKey)).map (·.name) ++
          (table.constraints.filter (·.kind = .primaryKey)).flatMap (·.columns)) ∧
      ∀ name ∈ table.primaryKeyColumns, IsFirst name
        ((table.columns.filter (·.primaryKey)).map (·.name) ++
          (table.constraints.filter (·.kind = .primaryKey)).flatMap (·.columns)) := by
  refine ⟨nodup_dedupNames [] _, fun key => ?_, sublist_dedupNames [] _,
    fun name hname => isFirst_of_mem_dedupNames hname⟩
  rw [primaryKeyColumns, mem_map_dedupNames, mem_map_declaredKeys]
  simp

end SchemaReader.Schema.Table

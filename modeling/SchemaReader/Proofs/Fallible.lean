import Mathlib.Control.Monad.Basic

/-!
# Readers that may fail

What a chain of readers gives, it gives step by step; and if each step fails only
with certain faults, so does the chain.
-/

namespace SchemaReader

variable {α β ε : Type}

theorem exists_of_bind_ok {read : Except ε α} {next : α → Except ε β} {y : β}
    (h : read >>= next = .ok y) : ∃ x, read = .ok x ∧ next x = .ok y := by
  cases read with
  | error fault => cases h
  | ok x => exact ⟨x, rfl, h⟩

theorem exists_of_map_ok {read : Except ε α} {f : α → β} {y : β} (h : read.map f = .ok y) :
    ∃ x, read = .ok x ∧ f x = y := by
  cases read with
  | error fault => cases h
  | ok x =>
      cases h
      exact ⟨x, rfl, rfl⟩

theorem exists_of_mapM_ok {f : α → Except ε β} {xs : List α} {ys : List β}
    (h : xs.mapM f = .ok ys) : ∀ y ∈ ys, ∃ x ∈ xs, f x = .ok y := by
  induction xs generalizing ys with
  | nil =>
      cases h
      simp
  | cons x xs ih =>
      rw [List.mapM_cons] at h
      obtain ⟨first, hfirst, h⟩ := exists_of_bind_ok h
      obtain ⟨rest, hrest, h⟩ := exists_of_bind_ok h
      cases h
      intro y hy
      rcases List.mem_cons.1 hy with rfl | hy
      · exact ⟨x, List.mem_cons_self, hfirst⟩
      · obtain ⟨x', hx', hfx'⟩ := ih hrest y hy
        exact ⟨x', List.mem_cons_of_mem _ hx', hfx'⟩

theorem mapM_eq_ok {f : α → Except ε β} {g : α → β} {xs : List α} (h : ∀ x ∈ xs, f x = .ok (g x)) :
    xs.mapM f = .ok (xs.map g) := by
  induction xs with
  | nil => rfl
  | cons x xs ih =>
      have hrest := ih fun y hy => h y (List.mem_cons_of_mem x hy)
      rw [List.mapM_cons, h x List.mem_cons_self, hrest]
      rfl

theorem mapM_eq_error {f : α → Except ε β} {g : α → β} {before : List α} {x : α} {fault : ε}
    (h : ∀ y ∈ before, f y = .ok (g y)) (hx : f x = .error fault) (after : List α) :
    (before ++ x :: after).mapM f = .error fault := by
  rw [List.mapM_append, mapM_eq_ok h, List.mapM_cons, hx]
  rfl

/-- If the reader fails, then with such a fault. -/
def FailsOnly (P : ε → Prop) (read : Except ε α) : Prop :=
  ∀ fault, read = .error fault → P fault

variable {P : ε → Prop}

theorem FailsOnly.ok (x : α) : FailsOnly P (.ok x : Except ε α) := by
  intro fault h
  contradiction

theorem FailsOnly.bind {read : Except ε α} (h : FailsOnly P read) {next : α → Except ε β}
    (hnext : ∀ x, FailsOnly P (next x)) : FailsOnly P (read >>= next) := by
  cases read with
  | error fault =>
      intro other hother
      cases hother
      exact h fault rfl
  | ok x => exact hnext x

theorem FailsOnly.map {read : Except ε α} (h : FailsOnly P read) (f : α → β) :
    FailsOnly P (read.map f) := by
  cases read with
  | error fault =>
      intro other hother
      cases hother
      exact h fault rfl
  | ok x => exact FailsOnly.ok _

theorem FailsOnly.mapM {f : α → Except ε β} {xs : List α} (h : ∀ x ∈ xs, FailsOnly P (f x)) :
    FailsOnly P (xs.mapM f) := by
  induction xs with
  | nil => exact FailsOnly.ok []
  | cons x xs ih =>
      rw [List.mapM_cons]
      have hrest := ih fun y hy => h y (List.mem_cons_of_mem x hy)
      exact (h x List.mem_cons_self).bind fun y => hrest.bind fun ys => FailsOnly.ok (y :: ys)

end SchemaReader

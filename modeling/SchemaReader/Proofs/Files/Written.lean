import Mathlib.Data.List.Basic
import Mathlib.Tactic.Tauto
import SchemaReader.Files

/-!
# What a write leaves

A write that succeeds makes the directories on the way to its file and puts the file
there.  The file can then be read at the same path, and every other file is as it was.
-/

namespace SchemaReader.Files

variable {files made after : Files} {location next directory : Location} {names : List String}
  {first last : String} {path : Path} {bytes : List UInt8}

theorem isDirectory_start (files : Files) (path : Path) :
    files.isDirectory (start path) = true := by
  unfold isDirectory start
  split <;> simp

theorem isDirectory_append (files : Files) (location other : Location) :
    ({ files with directories := files.directories ++ [location] } : Files).isDirectory other ↔
      files.isDirectory other ∨ other = location := by
  simp only [isDirectory, Bool.or_eq_true, List.contains_eq_mem, decide_eq_true_eq,
    List.mem_append, List.mem_singleton, or_assoc]

theorem mem_passed_self : location ∈ passed location (names ++ [last]) := by
  cases names <;> exact List.mem_cons_self

theorem walk_eq_ok (hpassed : ∀ other ∈ passed location names, files.isDirectory other)
    (hshort : ∀ name ∈ names, isLongName name = false) :
    files.walk location names = .ok (names.foldl step location) := by
  induction names generalizing location with
  | nil => rfl
  | cons name names ih =>
      rw [passed, List.forall_mem_cons] at hpassed
      rw [List.forall_mem_cons] at hshort
      rw [walk, hpassed.1, hshort.1]
      exact ih hpassed.2 hshort.2

/-- Directories were made along the names, so that one name more, the last, leads to a place in
them. -/
structure Reached (files : Files) (location : Location) (names : List String) (last : String)
    (made : Files) (directory : Location) : Prop where
  directory_eq : directory = names.foldl step location
  short : ∀ name ∈ names, isLongName name = false
  files_eq : made.files = files.files
  home_eq : made.home = files.home
  isDirectory_iff : ∀ other, made.isDirectory other ↔
    files.isDirectory other ∨ other ∈ passed location (names ++ [last])

theorem Reached.nil (hlocation : files.isDirectory location) :
    Reached files location [] last files location where
  directory_eq := rfl
  short := by simp
  files_eq := rfl
  home_eq := rfl
  isDirectory_iff := by
    intro other
    refine (or_iff_left_of_imp fun hother => ?_).symm
    rwa [List.mem_singleton.1 hother]

theorem Reached.cons (h : Reached after (step location first) names last made directory)
    (hshort : isLongName first = false) (hfiles : after.files = files.files)
    (hhome : after.home = files.home) (hlocation : files.isDirectory location)
    (hafter : ∀ other, after.isDirectory other ↔
      files.isDirectory other ∨ other = step location first) :
    Reached files location (first :: names) last made directory where
  directory_eq := h.directory_eq
  short := List.forall_mem_cons.2 ⟨hshort, h.short⟩
  files_eq := h.files_eq.trans hfiles
  home_eq := h.home_eq.trans hhome
  isDirectory_iff := by
    intro other
    rw [h.isDirectory_iff, hafter, List.cons_append, passed, List.mem_cons, or_assoc]
    refine or_congr_right' fun hother => ?_
    have hne : other ≠ location := fun heq => hother (heq ▸ hlocation)
    have hnext : other = step location first →
        other ∈ passed (step location first) (names ++ [last]) := fun heq => heq ▸ mem_passed_self
    rw [or_iff_right hne]
    exact or_iff_right_of_imp hnext

theorem reached_of_makeDirectories (last : String) (hlocation : files.isDirectory location)
    (h : files.makeDirectories location names = (made, .ok directory)) :
    Reached files location names last made directory := by
  induction names generalizing files location with
  | nil =>
      cases h
      exact .nil hlocation
  | cons first names ih =>
      rw [makeDirectories] at h
      split at h
      · cases h
      · rename_i hlong
        have hshort : isLongName first = false := by simpa using hlong
        split at h
        · cases h
        · -- A directory that is there serves like one that was just made.
          split at h
          · rename_i hnext
            refine (ih hnext h).cons hshort rfl rfl hlocation fun other => ?_
            exact (or_iff_left_of_imp fun heq => heq ▸ hnext).symm
          · have hnext := (isDirectory_append files (step location first) _).2 (.inr rfl)
            exact (ih hnext h).cons hshort rfl rfl hlocation (isDirectory_append files _)

theorem reached_of_makeParent (last : String)
    (h : files.makeParent path = (made, .ok directory)) :
    Reached files (start path) path.names.dropLast last made directory := by
  unfold makeParent at h
  dsimp only at h
  split at h
  · cases h
  · exact reached_of_makeDirectories last (isDirectory_start files path) h

theorem Reached.walk_eq (h : Reached files location names last made directory)
    (hlast : isLongName last = false) {after : Files}
    (hafter : after.directories = made.directories) :
    after.walk location (names ++ [last]) = .ok (step directory last) := by
  have hpassed : ∀ other ∈ passed location (names ++ [last]), after.isDirectory other := by
    intro other hother
    have hmade := (h.isDirectory_iff other).2 (.inr hother)
    rwa [isDirectory, ← hafter] at hmade
  have hshort : ∀ name ∈ names ++ [last], isLongName name = false := by
    simp only [List.mem_append, List.mem_singleton]
    rintro name (hname | rfl)
    · exact h.short name hname
    · exact hlast
  rw [walk_eq_ok hpassed hshort, List.foldl_append, ← h.directory_eq]
  rfl

theorem lookup_put (location other : Location) (bytes : List UInt8)
    (entries : List (Location × List UInt8)) :
    (put location bytes entries).lookup other =
      if other = location then some bytes else entries.lookup other := by
  induction entries with
  | nil =>
      by_cases h : other = location
      · simp [put, h]
      · simp [put, h, List.lookup_cons, beq_false_of_ne h]
  | cons entry entries ih =>
      obtain ⟨found, content⟩ := entry
      by_cases hfound : found = location
      · subst hfound
        by_cases h : other = found
        · simp [put, h]
        · simp [put, h, List.lookup_cons, beq_false_of_ne h]
      · rw [put, if_neg hfound, List.lookup_cons, List.lookup_cons, ih]
        by_cases h : other = found
        · simp [h, hfound]
        · rw [beq_false_of_ne h]

theorem exists_last_of_target (h : files.target directory path = .ok location) :
    ∃ last, path.names = path.names.dropLast ++ [last] ∧ location = step directory last ∧
      isLongName last = false ∧ isLongPath path = false := by
  unfold target at h
  split at h
  · cases h
  · cases h
  · rename_i last hrefusal hlast
    have hnames : path.names = path.names.dropLast ++ [last] :=
      (List.dropLast_append_getLast? last hlast).symm
    have hpath : isLongPath path = false := by
      unfold refusal? at hrefusal
      grind
    split at h
    · cases h
    · rename_i hlong
      split at h
      · cases h
      · cases h
        exact ⟨last, hnames, rfl, by simpa using hlong, hpath⟩

/-- What holds after bytes were written to a path. -/
structure Written (before : Files) (path : Path) (bytes : List UInt8) (after : Files) : Prop where
  read_eq : after.read path = .ok bytes
  content?_eq : ∀ location ≠ locationOf path, after.content? location = before.content? location
  isDirectory_iff : ∀ location, after.isDirectory location ↔
    before.isDirectory location ∨ location ∈ passed (start path) path.names
  home_eq : after.home = before.home

theorem Reached.written (h : Reached files (start path) path.names.dropLast last made directory)
    (hnames : path.names = path.names.dropLast ++ [last]) (hlast : isLongName last = false)
    (hpath : isLongPath path = false) (bytes : List UInt8) :
    Written files path bytes
      { made with files := put (step directory last) bytes made.files } where
  read_eq := by
    have hwalk : ({ made with files := put (step directory last) bytes made.files } : Files).walk
        (start path) path.names = .ok (step directory last) := by
      rw [hnames]
      exact h.walk_eq hlast rfl
    have hput := lookup_put (step directory last) (step directory last) bytes made.files
    rw [if_pos rfl] at hput
    rw [read, if_neg (by simp [hpath]), hwalk]
    simp only [content?, hput]
  content?_eq := by
    intro location hne
    have hlocation : locationOf path = step directory last := by
      rw [locationOf, hnames, List.foldl_append, ← h.directory_eq]
      rfl
    unfold content?
    rw [lookup_put, if_neg (hlocation ▸ hne), h.files_eq]
  isDirectory_iff := by
    intro location
    have hmade := h.isDirectory_iff location
    rwa [← hnames] at hmade
  home_eq := h.home_eq

theorem written_of_write (h : files.write path bytes = (after, .ok ())) :
    Written files path bytes after := by
  unfold write at h
  split at h
  · cases h
  · rename_i made directory hparent
    split at h
    · cases h
    · rename_i location htarget
      cases h
      obtain ⟨last, hnames, rfl, hlast, hpath⟩ := exists_last_of_target htarget
      exact (reached_of_makeParent last hparent).written hnames hlast hpath bytes

end SchemaReader.Files

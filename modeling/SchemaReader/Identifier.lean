import SchemaReader.Text.Search

/-!
Names of tables, columns and keys.

A name is a run of word characters and dollar signs, or any text between backticks, double quotes or
square brackets.  A qualified name is a sequence of names with dots, and possibly blanks, between
them.
-/

namespace SchemaReader.Identifier

open SchemaReader.Text

variable {α : Type} [Shown α]

/-- The character that ends a name which starts with `c`. -/
def closer? (c : Char) : Option Char :=
  if c = '`' then some '`'
  else if c = '"' then some '"'
  else if c = '[' then some ']'
  else none

def isNameChar (c : Char) : Bool := isWord c || c == '$'

def delimited? : List α → Option (List α × List α)
  | [] => none
  | x :: rest =>
      match closer? (shown x) with
      | none => none
      | some closer =>
          let content := rest.takeWhile (shown · != closer)
          match rest.dropWhile (shown · != closer) with
          | y :: after => if content.isEmpty then none else some (x :: content ++ [y], after)
          | [] => none

def bare? (text : List α) : Option (List α × List α) :=
  let name := text.takeWhile (isNameChar <| shown ·)
  if name.isEmpty then none else some (name, text.dropWhile (isNameChar <| shown ·))

def name? (text : List α) : Option (List α × List α) :=
  (delimited? text).or (bare? text)

theorem append_of_delimited? {text name rest : List α} (h : delimited? text = some (name, rest)) :
    name ++ rest = text := by
  unfold delimited? at h
  split at h
  · simp at h
  · rename_i x tail
    split at h
    · simp at h
    · rename_i closer _
      have htail := List.takeWhile_append_dropWhile (p := fun y => shown y != closer) (l := tail)
      split at h
      · rename_i y after hdrop
        dsimp only at h
        split at h
        · simp at h
        · simp only [Option.some.injEq, Prod.mk.injEq] at h
          obtain ⟨rfl, rfl⟩ := h
          rw [hdrop] at htail
          simpa using htail
      · simp at h

theorem ne_nil_of_delimited? {text name rest : List α}
    (h : delimited? text = some (name, rest)) : name ≠ [] := by
  unfold delimited? at h
  split at h
  · simp at h
  · split at h
    · simp at h
    · split at h
      · dsimp only at h
        split at h <;> simp at h
        simp [← h.1]
      · simp at h

theorem append_of_bare? {text name rest : List α} (h : bare? text = some (name, rest)) :
    name ++ rest = text := by
  simp only [bare?] at h
  split at h
  · simp at h
  · simp only [Option.some.injEq, Prod.mk.injEq] at h
    obtain ⟨rfl, rfl⟩ := h
    exact List.takeWhile_append_dropWhile

theorem append_of_name? {text name rest : List α} (h : name? text = some (name, rest)) :
    name ++ rest = text := by
  simp only [name?, Option.or_eq_some_iff] at h
  rcases h with h | ⟨_, h⟩
  · exact append_of_delimited? h
  · exact append_of_bare? h

theorem length_lt_of_delimited? {text name rest : List α}
    (h : delimited? text = some (name, rest)) : rest.length < text.length := by
  have := List.length_pos_iff.2 (ne_nil_of_delimited? h)
  rw [← append_of_delimited? h, List.length_append]
  omega

def dotName? (text : List α) : Option (List α × List α) :=
  match dropBlanks text with
  | [] => none
  | x :: rest =>
      if shown x = '.' then
        (name? (dropBlanks rest)).map fun (name, after) =>
          (text.takeWhile isBlankAt ++ x :: rest.takeWhile isBlankAt ++ name, after)
      else none

theorem append_of_dotName? {text part rest : List α} (h : dotName? text = some (part, rest)) :
    part ++ rest = text := by
  unfold dotName? at h
  split at h
  · simp at h
  · rename_i x tail htail
    split at h
    · simp only [Option.map_eq_some_iff, Prod.mk.injEq, Prod.exists] at h
      obtain ⟨name, after, hname, rfl, rfl⟩ := h
      have hrest := List.takeWhile_append_dropWhile (p := isBlankAt) (l := tail)
      have htext := List.takeWhile_append_dropWhile (p := isBlankAt) (l := text)
      rw [show text.dropWhile isBlankAt = x :: tail from htail] at htext
      rw [show tail.dropWhile isBlankAt = name ++ after from (append_of_name? hname).symm] at hrest
      refine Eq.trans ?_ htext
      simp [hrest]
    · simp at h

theorem length_lt_of_dotName? {text part rest : List α} (h : dotName? text = some (part, rest)) :
    rest.length < text.length := by
  have hpart : part ≠ [] := by
    unfold dotName? at h
    split at h
    · simp at h
    · split at h
      · simp only [Option.map_eq_some_iff, Prod.mk.injEq, Prod.exists] at h
        obtain ⟨name, after, hname, rfl, rfl⟩ := h
        simp
      · simp at h
  have := List.length_pos_iff.2 hpart
  rw [← append_of_dotName? h, List.length_append]
  omega

def dotNames (parts : List (List α)) (text : List α) : List (List α) × List α :=
  match h : dotName? text with
  | some (part, rest) =>
      have : rest.length < text.length := length_lt_of_dotName? h
      dotNames (part :: parts) rest
  | none => (parts.reverse, text)
termination_by text.length

def qualified? (text : List α) : Option (List α × List α) :=
  (name? text).map fun (name, rest) =>
    let (parts, after) := dotNames [] rest
    (name ++ parts.flatten, after)

theorem append_of_dotNames (parts : List (List α)) (text : List α) :
    (dotNames parts text).1.flatten ++ (dotNames parts text).2 = parts.reverse.flatten ++ text := by
  fun_induction dotNames parts text with
  | case1 parts text part rest h _ ih =>
      rw [ih]
      simp [append_of_dotName? h]
  | case2 parts text h => rfl

theorem append_of_qualified? {text name rest : List α} (h : qualified? text = some (name, rest)) :
    name ++ rest = text := by
  simp only [qualified?, Option.map_eq_some_iff, Prod.mk.injEq, Prod.exists] at h
  obtain ⟨first, after, hfirst, rfl, rfl⟩ := h
  rw [List.append_assoc, append_of_dotNames]
  simpa using append_of_name? hfirst

def between? (text : List Char) : Option (List Char) :=
  match text with
  | [] | [_] => none
  | c :: rest => if closer? c = rest.getLast? then some rest.dropLast else none

def unquote (text : List Char) : List Char :=
  let name := trim text
  (between? name).getD name

/-- The last part of a name; a part is a delimited name or a run without dots. -/
def lastPartFrom (last : Option (List Char)) : List Char → Option (List Char)
  | [] => last
  | c :: rest =>
      match h : delimited? (c :: rest) with
      | some (part, after) =>
          have : after.length < (c :: rest).length := length_lt_of_delimited? h
          lastPartFrom (some part) after
      | none =>
          if c = '.' then lastPartFrom last rest
          else
            have : (rest.dropWhile (· != '.')).length < (c :: rest).length := by
              have := (List.dropWhile_sublist (l := rest) (· != '.')).length_le
              simp only [List.length_cons]
              omega
            lastPartFrom (some (c :: rest.takeWhile (· != '.'))) (rest.dropWhile (· != '.'))
termination_by text => text.length
decreasing_by
  · exact this
  · simp
  · exact this

def lastPart (qualified : List Char) : List Char :=
  unquote ((lastPartFrom none (trim qualified)).getD qualified)

end SchemaReader.Identifier

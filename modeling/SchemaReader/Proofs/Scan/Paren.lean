import SchemaReader.Proofs.Scan.Veil
import SchemaReader.Scan.Quote

/-!
# Matching parentheses

What the search for a closing parenthesis depends on: only what its elements
show, and only the text up to the answer.  A text that closes the quotes and the
parentheses it opens is passed over.
-/

namespace SchemaReader.Scan

open SchemaReader.Text (Shown isBlank shown)

variable {α : Type} [Shown α]

theorem exists_of_closingFrom {quote : Quote} {depth index : Nat} {text : List α} {close : Nat}
    (h : closingFrom quote depth index text = some close) :
    ∃ before x after, text = before ++ x :: after ∧ close = index + before.length ∧
      shown x = ')' ∧ ∀ rest, closingFrom quote depth index (before ++ x :: rest) = some close := by
  induction text generalizing quote depth index with
  | nil => simp [closingFrom] at h
  | cons x text ih =>
      have hlater : ∀ {next : Quote} {deeper : Nat},
          closingFrom next deeper (index + 1) text = some close →
          (∀ later, closingFrom quote depth index (x :: later) =
            closingFrom next deeper (index + 1) later) →
          ∃ before y after, x :: text = before ++ y :: after ∧ close = index + before.length ∧
            shown y = ')' ∧
            ∀ rest, closingFrom quote depth index (before ++ y :: rest) = some close := by
        intro next deeper hclose hstep
        obtain ⟨before, y, after, rfl, rfl, hy, hrest⟩ := ih hclose
        exact ⟨x :: before, y, after, rfl, by simp; omega, hy,
          fun rest => (hstep _).trans (hrest rest)⟩
      simp only [closingFrom] at h hlater
      split at h
      · exact hlater h fun later => if_pos ‹_›
      · rename_i hcovers
        split at h
        · exact hlater h fun later => (if_neg hcovers).trans (if_pos ‹_›)
        · rename_i hopen
          split at h
          · rename_i hx
            split at h
            · rename_i hdepth
              cases h
              refine ⟨[], x, text, rfl, rfl, hx, fun rest => ?_⟩
              simp only [List.nil_append, closingFrom]
              rw [if_neg hcovers, if_neg hopen, if_pos hx, if_pos hdepth]
            · rename_i hdepth
              refine hlater h fun later => ?_
              rw [if_neg hcovers, if_neg hopen, if_pos hx, if_neg hdepth]
          · rename_i hx
            refine hlater h fun later => ?_
            rw [if_neg hcovers, if_neg hopen, if_neg hx]

theorem closingFrom_append {quote : Quote} {depth index : Nat} {text : List α} {close : Nat}
    (h : closingFrom quote depth index text = some close) (rest : List α) :
    closingFrom quote depth index (text ++ rest) = some close := by
  obtain ⟨before, x, after, rfl, -, -, hlocal⟩ := exists_of_closingFrom h
  rw [List.append_assoc, List.cons_append, hlocal]

theorem closingFrom_map_shown (quote : Quote) (depth index : Nat) (text : List α) :
    closingFrom quote depth index (text.map shown) = closingFrom quote depth index text := by
  induction text generalizing quote depth index with
  | nil => rfl
  | cons x text ih => simp [closingFrom, ih]

theorem head?_of_closing? {text : List α} {close : Nat} (h : closing? text = some close) :
    text.head?.map shown = some '(' := by
  unfold closing? at h
  split at h
  · assumption
  · cases h

theorem closing?_eq_some {text : List α} {close : Nat} (h : closing? text = some close) :
    ∃ before x after, text = before ++ x :: after ∧ close = before.length ∧ shown x = ')' := by
  rw [closing?, if_pos (head?_of_closing? h)] at h
  obtain ⟨before, x, after, htext, hclose, hx, -⟩ := exists_of_closingFrom h
  exact ⟨before, x, after, htext, by omega, hx⟩

theorem exists_of_closing? {text : List α} {close : Nat} (h : closing? text = some close) :
    ∃ x inner y, text.take (close + 1) = x :: inner ++ [y] ∧ shown x = '(' ∧ shown y = ')' ∧
      close = inner.length + 1 ∧ closing? (x :: inner ++ [y]) = some close := by
  have hopen := head?_of_closing? h
  rw [closing?, if_pos hopen] at h
  obtain ⟨before, y, after, rfl, rfl, hy, hlocal⟩ := exists_of_closingFrom h
  cases before with
  | nil => simp [hy] at hopen
  | cons x inner =>
      have hx : shown x = '(' := by simpa using hopen
      refine ⟨x, inner, y, ?_, hx, hy, by simp, ?_⟩
      · rw [Nat.zero_add, List.take_length_add_append]
        rfl
      · rw [closing?, if_pos (by simpa using hx)]
        exact hlocal []

theorem closing?_append {text : List α} {close : Nat} (h : closing? text = some close)
    (rest : List α) : closing? (text ++ rest) = some close := by
  cases text with
  | nil => simp [closing?] at h
  | cons x text =>
      unfold closing? at h ⊢
      split at h
      · rename_i hopen
        rw [if_pos (by simpa using hopen)]
        exact closingFrom_append h rest
      · cases h

theorem closing?_map_shown (text : List α) : closing? (text.map shown) = closing? text := by
  simp only [closing?, closingFrom_map_shown, List.head?_map, Option.map_map]
  rfl

theorem matchingParen?_natCast (text : List Char) (start : Nat) :
    matchingParen? text start = (closing? (text.drop start)).map (start + ·) := by
  rw [matchingParen?, if_neg (by omega), Int.toNat_natCast]

/-- The search passes over the text with as many parentheses open after it as before. -/
def Level (text : List α) : Prop :=
  ∀ depth index rest, 1 ≤ depth →
    closingFrom .outside depth index (text ++ rest) =
      closingFrom .outside depth (index + text.length) rest

theorem Level.nil : Level ([] : List α) := fun _ _ _ _ => rfl

theorem Level.append {first second : List α} (hfirst : Level first) (hsecond : Level second) :
    Level (first ++ second) := by
  intro depth index rest hdepth
  rw [List.append_assoc, hfirst depth index _ hdepth, hsecond depth _ rest hdepth,
    List.length_append, Nat.add_assoc]

theorem closingFrom_open {x : α} (h : shown x = '(') (depth index : Nat) (rest : List α) :
    closingFrom .outside depth index (x :: rest) =
      closingFrom .outside (depth + 1) (index + 1) rest := by
  rw [closingFrom, h]
  rfl

theorem closingFrom_close {x : α} (h : shown x = ')') (depth index : Nat) (rest : List α) :
    closingFrom .outside depth index (x :: rest) =
      if depth = 1 then some index else closingFrom .outside (depth - 1) (index + 1) rest := by
  rw [closingFrom, h]
  rfl

def isLevel (c : Char) : Bool := (Delimiter.ofChar? c).isNone && c != '(' && c != ')'

theorem isBlank_delimiter (d : Delimiter) : isBlank d.char = false := by
  cases d <;> rfl

theorem isLevel_of_isBlank {c : Char} (h : isBlank c) : isLevel c := by
  have hopen : c ≠ '(' := by
    rintro rfl
    cases h
  have hclose : c ≠ ')' := by
    rintro rfl
    cases h
  have hquote : Delimiter.ofChar? c = none := by
    refine Option.eq_none_iff_forall_ne_some.2 fun d hd => ?_
    rw [Delimiter.ofChar?_eq_some.1 hd, isBlank_delimiter] at h
    cases h
  simp [isLevel, hopen, hclose, hquote]

theorem level_of_isLevel {text : List α} (h : ∀ x ∈ text, isLevel (shown x)) : Level text := by
  induction text with
  | nil => exact Level.nil
  | cons x text ih =>
      have hx : (Delimiter.ofChar? (shown x) = none ∧ shown x ≠ '(') ∧ shown x ≠ ')' := by
        simpa [isLevel] using h x (by simp)
      have hhead : Level [x] := by
        intro depth index rest hdepth
        simp [closingFrom, Quote.covers, Quote.feed_outside, Quote.isQuoted, hx]
      exact hhead.append (ih fun y hy => h y (by simp [hy]))

theorem Level.parens {inner : List α} {x y : α} (h : Level inner) (hx : shown x = '(')
    (hy : shown y = ')') : Level (x :: inner ++ [y]) := by
  intro depth index rest hdepth
  have hdeeper : depth + 1 ≠ 1 := by omega
  rw [List.append_assoc, List.cons_append, closingFrom_open hx, h (depth + 1) _ _ (by omega),
    List.cons_append, closingFrom_close hy, if_neg hdeeper]
  simp [Nat.add_comm, Nat.add_left_comm]

theorem closing?_of_level {inner : List α} {x y : α} (h : Level inner) (hx : shown x = '(')
    (hy : shown y = ')') (rest : List α) :
    closing? (x :: inner ++ y :: rest) = some (inner.length + 1) := by
  have hopen : ((x :: inner ++ y :: rest).head?.map shown) = some '(' := by simp [hx]
  rw [closing?, if_pos hopen, List.cons_append, closingFrom_open hx, h 1 1 _ (by omega),
    closingFrom_close hy, if_pos rfl, Nat.add_comm]

theorem parenthesised?_of_level {inner : List α} {x y : α} (h : Level inner) (hx : shown x = '(')
    (hy : shown y = ')') (rest : List α) :
    parenthesised? (x :: inner ++ y :: rest) = some (inner, rest) := by
  rw [parenthesised?, closing?_of_level h hx hy]
  simp

theorem closingFrom_quoted {quote : Quote} (h : quote.isQuoted) (depth index : Nat) (x : α)
    (rest : List α) :
    closingFrom quote depth index (x :: rest) =
      closingFrom (quote.feed (shown x)) depth (index + 1) rest := by
  simp [closingFrom, Quote.covers, h]

/-- Inside a section, the search passes over the text and is inside the section again. -/
def Sealed (d : Delimiter) (text : List α) : Prop :=
  ∀ depth index rest,
    closingFrom (.inside d) depth index (text ++ rest) =
      closingFrom (.inside d) depth (index + text.length) rest

theorem Sealed.nil {d : Delimiter} : Sealed d ([] : List α) := fun _ _ _ => rfl

theorem Sealed.append {d : Delimiter} {first second : List α} (hfirst : Sealed d first)
    (hsecond : Sealed d second) : Sealed d (first ++ second) := by
  intro depth index rest
  rw [List.append_assoc, hfirst, hsecond, List.length_append, Nat.add_assoc]

theorem sealed_of_feed {d : Delimiter} {text : List α}
    (h : ∀ x ∈ text, (Quote.inside d).feed (shown x) = .inside d) : Sealed d text := by
  induction text with
  | nil => exact Sealed.nil
  | cons x text ih =>
      have hhead : Sealed d [x] := by
        intro depth index rest
        rw [List.singleton_append, closingFrom_quoted rfl, h x (by simp)]
        rfl
      exact hhead.append (ih fun y hy => h y (by simp [hy]))

theorem closingFrom_delimiter {d : Delimiter} {x : α} (h : shown x = d.char) (depth index : Nat)
    (rest : List α) :
    closingFrom .outside depth index (x :: rest) =
      closingFrom (.inside d) depth (index + 1) rest := by
  simp [closingFrom, h, Quote.covers, Quote.feed_delimiter, Quote.isQuoted]

theorem closingFrom_inside_delimiter {d : Delimiter} {x : α} (h : shown x = d.char)
    (depth index : Nat) (rest : List α) :
    closingFrom (.inside d) depth index (x :: rest) =
      closingFrom .outside depth (index + 1) rest := by
  rw [closingFrom_quoted rfl, h, Quote.feed_inside_delimiter]

theorem closingFrom_blank {x : α} (h : shown x = ' ') (d : Delimiter) (depth index : Nat)
    (rest : List α) :
    closingFrom (.inside d) depth index (x :: rest) =
      closingFrom (.inside d) depth (index + 1) rest := by
  have hfeed : (Quote.inside d).feed ' ' = .inside d := by cases d <;> rfl
  rw [closingFrom_quoted rfl, h, hfeed]

def quoteOf (quote : Option Delimiter) : Quote := quote.elim .outside .inside

theorem sealed_doubled {d : Delimiter} {x y : α} (hx : shown x = d.char) (hy : shown y = d.char) :
    Sealed d [x, y] := by
  intro depth index rest
  rw [List.cons_append, List.singleton_append, closingFrom_inside_delimiter hx,
    closingFrom_delimiter hy]
  rfl

theorem Sealed.level {d : Delimiter} {inner : List α} {x y : α} (h : Sealed d inner)
    (hx : shown x = d.char) (hy : shown y = d.char) : Level (x :: inner ++ [y]) := by
  intro depth index rest hdepth
  rw [List.append_assoc, List.cons_append, closingFrom_delimiter hx, h, List.cons_append,
    closingFrom_inside_delimiter hy]
  simp [Nat.add_comm, Nat.add_left_comm]

end SchemaReader.Scan

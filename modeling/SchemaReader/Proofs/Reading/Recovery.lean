import Mathlib.Data.List.Infix
import SchemaReader.Proofs.Reading.Balanced

/-!
# Scripts after a broken statement

A definition whose parenthesis is never closed is passed over, and the search goes
on behind it.  What comes after the end of the broken statement is read as if it
stood alone, as long as it closes no parenthesis that it has not opened: then the
parenthesis that was left open is not closed there either.
-/

namespace SchemaReader.Scan.Comment

open SchemaReader.Text (Cell)

def Mode.atDepth (depth : Nat) : Mode → Mode
  | .code quote _ => .code quote depth
  | .opening _ => .opening depth
  | .block _ => .block depth
  | .closing _ => .closing depth
  | .line _ comment => .line depth comment

def Mode.isLine : Mode → Bool
  | .line .. => true
  | _ => false

section Step

variable {next : Option Char} {mode after : Mode} {c : Char}
  {cells : (Nat → List Char → Bool) → List Cell}

theorem Step.atDepth (h : Step next mode c after cells) (hline : mode.isLine = false)
    (depth : Nat) : ∃ deep, Step next (mode.atDepth depth) c (after.atDepth deep) cells := by
  cases h with
  | opens hstar => exact ⟨depth, .opens hstar⟩
  | opened => exact ⟨depth, .opened⟩
  | within hopen => exact ⟨depth, .within hopen⟩
  | closes hslash => exact ⟨depth, .closes hslash⟩
  | closed => exact ⟨depth, .closed⟩
  | dashes hdash => exact ⟨depth, .dashes hdash⟩
  | code hplain => exact ⟨_, .code hplain⟩
  | line => cases hline
  | ends => cases hline

theorem Step.isLine_after (h : Step next mode c after cells) (hline : mode.isLine = false)
    (hdashes : ¬ (c = '-' ∧ next = some '-')) : after.isLine = false := by
  cases h with
  | dashes hdash => exact absurd ⟨rfl, hdash⟩ hdashes
  | line => cases hline
  | _ => rfl

end Step

/-- Only line comments are treated by their depth, so a scan that meets none does not see it. -/
theorem run_veil_atDepth (keeps : Nat → List Char → Bool) {mode : Mode} (h : mode.isLine = false)
    (depth : Nat) {text : List Char} (hdashes : ¬ ['-', '-'] <:+: text) :
    (veil keeps).run (mode.atDepth depth) text = (veil keeps).run mode text := by
  induction text generalizing mode depth with
  | nil =>
      cases mode with
      | line old comment => cases h
      | _ => rfl
  | cons c text ih =>
      have hrest : ¬ ['-', '-'] <:+: text := fun hin => hdashes (List.infix_cons hin)
      have hhere : ¬ (c = '-' ∧ text.head? = some '-') := by
        rintro ⟨rfl, hhead⟩
        obtain ⟨tail, rfl⟩ := List.head?_eq_some_iff.1 hhead
        exact hdashes (List.prefix_append ['-', '-'] tail).isInfix
      obtain ⟨after, cells, hstep⟩ := exists_step mode c text.head?
      obtain ⟨deep, hdeep⟩ := hstep.atDepth h depth
      rw [hstep.run_veil, hdeep.run_veil, ih (hstep.isLine_after h hhere) deep hrest]

theorem run_veil_code (keeps : Nat → List Char → Bool) (depth : Nat) {text : List Char}
    (hdashes : ¬ ['-', '-'] <:+: text) :
    (veil keeps).run (.code .outside depth) text = (veil keeps).run (.code .outside 0) text := by
  have hcode : (Mode.code .outside 0).isLine = false := rfl
  exact run_veil_atDepth keeps hcode depth hdashes

end SchemaReader.Scan.Comment

namespace SchemaReader.Reading

open SchemaReader.Scan SchemaReader.Text

/-- The scan of `front` stands outside quotes and comments before a semicolon; parentheses may be
open. -/
def EndsBroken (front : List Char) : Prop :=
  ∃ depth, (Comment.stripper Comment.isDescription).state (some ';') (.code .outside 0) front =
    .code .outside depth

/-- Behind a statement that was left open, a script that closes nothing of it gives the tables that
it gives alone. -/
theorem readTables_append_broken (options : ReadOptions) (front later : List Char)
    (hbracket : '[' ∉ front) (hend : EndsBroken front) (hdashes : ¬ ['-', '-'] <:+: later)
    (hbelow : ∀ start, start <+: Mask.mask (Comment.strip later) → 0 ≤ nesting start) :
    (readTables options (Comment.strip (front ++ [';', '\n'] ++ later))).result =
      (do
        let before ← (readTables options (Comment.strip (front ++ [';', '\n']))).result
        let after ← (readTables options (Comment.strip later)).result
        return before ++ after) := by
  obtain ⟨depth, hstate⟩ := hend
  have hcells : Mask.cells (Comment.strip later) =
      (Comment.veil Comment.isDescription).run (.code .outside 0) later :=
    Comment.cells_stripWith _ later
  have hsections : Sectioned none (Mask.cells (Comment.strip later)) := by
    rw [hcells]
    exact Comment.sectioned_run Comment.isDescription (.code .outside 0) later
  have hfinished : Finished (Mask.cells (Comment.strip later)) (veiled front) := by
    refine ⟨⟨none, tidy_veiled hstate⟩, shown_ne_bracket_of_mem_veiled hbracket, ?_⟩
    intro body _ hopen htidy
    refine closing?_append_of_neverBelow htidy hopen hsections fun start hstart => ?_
    rw [Int.zero_add]
    exact hbelow start hstart
  -- The scan comes to the later script at another depth, which only line comments would see.
  have hsegments := segments_append_of_finished hstate
    ((Comment.run_veil_code _ depth hdashes).trans hcells.symm) hfinished
  rw [readTables, readTables, readTables, hsegments]
  exact result_readSegments_append options _ _

theorem readTables_append_broken_open_definition :
    '[' ∉ "CREATE TABLE a (b INT, (".toList ∧ EndsBroken "CREATE TABLE a (b INT, (".toList ∧
      ¬ ['-', '-'] <:+: "CREATE TABLE c (d INT)".toList ∧
      (∀ start, start <+: Mask.mask (Comment.strip "CREATE TABLE c (d INT)".toList) →
        0 ≤ nesting start) ∧
      (readTables {} (Comment.strip ("CREATE TABLE a (b INT, (".toList ++ [';', '\n'] ++
        "CREATE TABLE c (d INT)".toList))).result =
      (do
        let before ← (readTables {} (Comment.strip
          ("CREATE TABLE a (b INT, (".toList ++ [';', '\n']))).result
        let after ← (readTables {} (Comment.strip "CREATE TABLE c (d INT)".toList)).result
        return before ++ after) :=
  have hbelow : ∀ start, start <+: Mask.mask (Comment.strip "CREATE TABLE c (d INT)".toList) →
      0 ≤ nesting start := by
    intro start hstart
    rw [← List.mem_inits] at hstart
    revert start
    decide +kernel
  have hdashes : ¬ ['-', '-'] <:+: "CREATE TABLE c (d INT)".toList := by decide +kernel
  ⟨by decide, ⟨2, rfl⟩, hdashes, hbelow,
    readTables_append_broken {} _ _ (by decide) ⟨2, rfl⟩ hdashes hbelow⟩

end SchemaReader.Reading

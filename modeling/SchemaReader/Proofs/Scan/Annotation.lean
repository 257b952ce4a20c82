import Mathlib.Data.List.Chain
import SchemaReader.Proofs.Scan.Veil

/-!
# Scripts with and without the descriptions of their tables

The stripped script keeps the descriptions of tables, hidden from searches; the
blanked script has no comments at all.  A `Passage` walks over the masked texts
of both in step.  The two differ only by hidden line comments outside quotes and
parentheses, each of which stands before a line break or at the end of the
script.  Blanking a piece of the first text gives the piece of the second that
was passed with it.
-/

namespace SchemaReader.Scan

open SchemaReader.Text (Cell shown)

namespace Comment

/-- From `mode` to `after`, `plain` is what `text` becomes without the descriptions in it. -/
inductive Passage : Mode → List Cell → List Cell → Mode → Prop
  | nil {mode : Mode} : Passage mode [] [] mode
  | cell {quote : Quote} {depth : Nat} {c : Char} {text plain : List Cell} {after : Mode}
      (h : Passage (.code (quote.feed c) (depthBehind quote depth c)) text plain after) :
      Passage (.code quote depth) (cellAt quote c :: text) (cellAt quote c :: plain) after
  | line {comment : List Char} {text plain : List Cell} {after : Mode} (hline : IsLine comment)
      (h : Passage (.code .outside 0) text plain after) :
      Passage (.code .outside 0) (hide comment ++ ⟨'\n', false⟩ :: text) (⟨'\n', false⟩ :: plain)
        after
  | last {comment : List Char} (hline : IsLine comment) :
      Passage (.code .outside 0) (hide comment) [] (.line 0 comment.reverse)

namespace Passage

variable {mode between after : Mode} {text plain : List Cell}

theorem append {text' plain' : List Cell} (h : Passage mode text plain between)
    (h' : Passage between text' plain' after) :
    Passage mode (text ++ text') (plain ++ plain') after := by
  induction h with
  | nil => exact h'
  | cell _ ih => exact .cell (ih h')
  | line hline _ ih =>
      rw [List.append_assoc]
      exact .line hline (ih h')
  | last hline =>
      cases h'
      rw [List.append_nil]
      exact .last hline

theorem refl_plain (h : Passage mode text plain after) :
    ∃ after, Passage mode plain plain after := by
  induction h with
  | nil => exact ⟨_, .nil⟩
  | cell _ ih =>
      obtain ⟨after, ih⟩ := ih
      exact ⟨after, .cell ih⟩
  | line _ _ ih =>
      obtain ⟨after, ih⟩ := ih
      exact ⟨after, .cell ih⟩
  | last => exact ⟨_, .nil⟩

theorem eq_nil_iff {quote : Quote} {depth : Nat}
    (h : Passage mode text plain (.code quote depth)) : text = [] ↔ plain = [] := by
  cases h <;> simp

end Passage

theorem depth_of_isDescription {depth : Nat} {comment : List Char}
    (h : isDescription depth comment = true) : depth = 0 := by
  simp only [isDescription, Bool.and_eq_true, beq_iff_eq] at h
  exact h.1

theorem Passage.keptLine {depth : Nat} {comment : List Char} {text plain : List Cell}
    {after : Mode} (hline : IsLine comment.reverse)
    (h : Passage (.code .outside depth) text plain after) :
    Passage (.code .outside depth)
      (hide (Comment.keptLine isDescription depth comment) ++ ⟨'\n', false⟩ :: text)
      (⟨'\n', false⟩ :: plain) after := by
  unfold Comment.keptLine
  split
  · rename_i hkept
    obtain rfl := depth_of_isDescription hkept
    exact .line hline h
  · exact .cell h

theorem passage_veil (mode : Mode) (text : List Char) (h : mode.Begun text) :
    ∃ after, Passage (.code mode.quote mode.depth) ((veil isDescription).run mode text)
      ((veil fun _ _ => false).run mode text) after := by
  -- In a line comment nothing is written before the line ends; the mode holds what was read of it.
  induction text generalizing mode with
  | nil =>
      cases mode with
      | line depth comment =>
          rw [Transducer.run_nil, Transducer.run_nil, veil_finish, veil_finish]
          simp only [finish, Comment.keptLine, Bool.false_eq_true, if_false]
          split
          · rename_i hkept
            obtain rfl := depth_of_isDescription hkept
            exact ⟨_, .last (h.isLine (by simp))⟩
          · exact ⟨_, .nil⟩
      | _ => exact ⟨_, .nil⟩
  | cons c rest ih =>
      obtain ⟨next, cells, hstep⟩ := exists_step mode c rest.head?
      obtain ⟨after, hafter⟩ := ih next (hstep.begun h)
      refine ⟨after, ?_⟩
      rw [hstep.run_veil, hstep.run_veil]
      cases hstep with
      | opens => exact .cell hafter
      | code => exact .cell hafter
      | ends =>
          rw [List.append_assoc]
          exact hafter.keptLine (h.isLine (by simp))
      | _ => exact hafter

theorem passage_cells (text : List Char) :
    ∃ after, Passage (.code .outside 0) (Mask.cells (strip text)) (Mask.cells (blank text))
      after := by
  rw [strip, blank, cells_stripWith, cells_stripWith]
  exact passage_veil (.code .outside 0) text trivial

def Apart (x y : Cell) : Prop :=
  x.hidden = false → ¬ (x.char = '-' ∧ y.char = '-') ∧ ¬ (x.char = '/' ∧ y.char = '*')

/-- Of comments, the text holds at most hidden ones. -/
def Unmarked (text : List Cell) : Prop := text.IsChain Apart

theorem Unmarked.tail {x : Cell} {text : List Cell} (h : Unmarked (x :: text)) : Unmarked text :=
  (List.isChain_cons.1 h).2

theorem Unmarked.of_isInfix {text rest : List Cell} (h : Unmarked text) (hrest : rest <:+: text) :
    Unmarked rest :=
  h.infix hrest

theorem apart_of_ne {x y : Cell} (hdash : x.char ≠ '-') (hslash : x.char ≠ '/') : Apart x y :=
  fun _ => ⟨fun h => hdash h.1, fun h => hslash h.1⟩

theorem unmarked_hide_append {text : List Cell} (comment : List Char) (h : Unmarked text) :
    Unmarked (hide comment ++ text) := by
  induction comment with
  | nil => exact h
  | cons c comment ih =>
      refine List.isChain_cons.2 ⟨?_, ih⟩
      intro y _ hvisible
      cases hvisible

theorem unmarked_hide (comment : List Char) : Unmarked (hide comment) := by
  simpa using unmarked_hide_append comment List.isChain_nil

theorem apart_run_veil (keeps : Nat → List Char → Bool) {quote : Quote} {depth : Nat} {c : Char}
    {rest : List Char} {y : Cell} (hplain : quote = .outside → ¬ BeginsComment c rest.head?)
    (hy : y ∈ ((veil keeps).run (.code (quote.feed c) depth) rest).head?) :
    Apart (cellAt quote c) y := by
  intro hvisible
  have hhead : ((stripper keeps).run (.code (quote.feed c) depth) rest).head? = some y.char := by
    rw [← reveal_veil, Mask.reveal, List.head?_map]
    exact congrArg _ hy
  have hrun : quote = .outside → ¬ BeginsComment c (some y.char) := by
    rw [← hhead]
    exact fun hquote => not_beginsComment_run keeps (hplain hquote) _ _
  constructor
  · rintro ⟨rfl, hdash⟩
    exact hrun (outside_of_visible hvisible rfl) (.inl ⟨rfl, congrArg some hdash⟩)
  · rintro ⟨rfl, hstar⟩
    exact hrun (outside_of_visible hvisible rfl) (.inr ⟨rfl, congrArg some hstar⟩)

theorem unmarked_veil (keeps : Nat → List Char → Bool) (mode : Mode) (text : List Char)
    (h : mode.Begun text) : Unmarked ((veil keeps).run mode text) := by
  induction text generalizing mode with
  | nil => exact unmarked_hide _
  | cons c rest ih =>
      obtain ⟨after, cells, hstep⟩ := exists_step mode c rest.head?
      have hrest := ih after (hstep.begun h)
      rw [hstep.run_veil]
      cases hstep with
      | opens =>
          refine List.isChain_cons.2 ⟨fun y _ => ?_, hrest⟩
          exact apart_of_ne (by decide) (by decide)
      | code hplain =>
          refine List.isChain_cons.2 ⟨fun y hy => ?_, hrest⟩
          exact apart_run_veil keeps hplain hy
      | ends =>
          rw [List.append_assoc]
          refine unmarked_hide_append _ (List.isChain_cons.2 ⟨fun y _ => ?_, hrest⟩)
          exact apart_of_ne (by decide) (by decide)
      | _ => exact hrest

theorem Unmarked.not_beginsComment {c : Char} {text : List Cell}
    (h : Unmarked (cellAt .outside c :: text)) : ¬ BeginsComment c (Mask.reveal text).head? := by
  have happart := (List.isChain_cons.1 h).1
  have hnext : ∀ d, (Mask.reveal text).head? = some d → ∃ y ∈ text.head?, y.char = d := by
    intro d hd
    rw [Mask.reveal, List.head?_map] at hd
    exact Option.map_eq_some_iff.1 hd
  rintro (⟨hc, hdash⟩ | ⟨hc, hstar⟩)
  · obtain ⟨y, hy, hchar⟩ := hnext _ hdash
    exact (happart y hy rfl).1 ⟨hc, hchar⟩
  · obtain ⟨y, hy, hchar⟩ := hnext _ hstar
    exact (happart y hy rfl).2 ⟨hc, hchar⟩

theorem run_code_of_unmarked (keeps : Nat → List Char → Bool) (quote : Quote) (depth : Nat)
    {c : Char} {text : List Cell} (h : Unmarked (cellAt quote c :: text)) :
    (stripper keeps).run (.code quote depth) (c :: Mask.reveal text) =
      c :: (stripper keeps).run (.code (quote.feed c) (depthBehind quote depth c))
        (Mask.reveal text) := by
  have hplain : quote = .outside → ¬ BeginsComment c (Mask.reveal text).head? := by
    rintro rfl
    exact h.not_beginsComment
  exact (Step.code hplain).run_stripper keeps

theorem run_line_append (keeps : Nat → List Char → Bool) {rest : List Char} (depth : Nat)
    (read comment : List Char) (hbreak : '\n' ∉ comment) (hrest : ∀ c ∈ rest.head?, c = '\n') :
    (stripper keeps).run (.line depth read) (comment ++ rest) =
      keptLine keeps depth (comment.reverse ++ read) ++
        (stripper keeps).run (.code .outside depth) rest := by
  induction comment generalizing read with
  | nil =>
      cases rest with
      | nil => simp [finish]
      | cons c rest =>
          obtain rfl : c = '\n' := hrest c (by simp)
          have hends : step keeps (.line depth read) '\n' rest.head? =
              (.code .outside depth, keptLine keeps depth read ++ ['\n']) := rfl
          rw [List.nil_append, Transducer.run_cons, Transducer.run_cons, stripper_step, hends,
            List.append_assoc]
          rfl
  | cons c comment ih =>
      obtain ⟨hc, hcomment⟩ : c ≠ '\n' ∧ '\n' ∉ comment := by grind
      rw [List.cons_append, Transducer.run_cons]
      simp only [stripper_step, step, if_neg hc]
      simpa using ih (c :: read) hcomment

theorem IsLine.run {comment rest : List Char} (h : IsLine comment)
    (keeps : Nat → List Char → Bool) (depth : Nat) (hrest : ∀ c ∈ rest.head?, c = '\n') :
    (stripper keeps).run (.code .outside depth) (comment ++ rest) =
      keptLine keeps depth comment.reverse ++ (stripper keeps).run (.code .outside depth) rest := by
  obtain ⟨tail, rfl⟩ := h.dashes
  have hbreak : '\n' ∉ '-' :: tail := fun hmem => h.noBreak (List.mem_cons_of_mem _ hmem)
  have hline := run_line_append keeps depth ['-'] ('-' :: tail) hbreak hrest
  rw [List.reverse_cons, ← hline, List.cons_append, Transducer.run_cons]
  rfl

namespace Passage

variable {mode after : Mode} {text plain : List Cell}

theorem run_never (h : Passage mode text plain after) (htext : Unmarked text) (depth : Nat) :
    (stripper fun _ _ => false).run (.code mode.quote depth) (Mask.reveal text) =
      Mask.reveal plain := by
  induction h generalizing depth with
  | nil => rfl
  | cell _ ih =>
      refine (run_code_of_unmarked _ _ depth htext).trans ?_
      exact congrArg _ (ih htext.tail _)
  | @line comment text plain _ hline _ ih =>
      rw [Mask.reveal_append, Mask.reveal_hide]
      refine (hline.run _ depth (by simp [Mask.reveal])).trans ?_
      have hbreak : Unmarked (⟨'\n', false⟩ :: text) :=
        htext.of_isInfix (List.suffix_append _ _).isInfix
      refine (run_code_of_unmarked _ .outside depth hbreak).trans ?_
      exact congrArg _ (ih hbreak.tail _)
  | @last comment hline =>
      rw [Mask.reveal_hide, ← List.append_nil comment]
      exact hline.run _ depth (by simp)

theorem head?_plain (h : Passage mode text plain after) :
    ∀ x ∈ plain.head?, x ∈ text.head? ∨ x = ⟨'\n', false⟩ := by
  cases h with
  | line =>
      intro x hx
      cases hx
      exact .inr rfl
  | last => simp
  | _ => exact fun x hx => .inl hx

theorem unmarked_plain (h : Passage mode text plain after) (htext : Unmarked text) :
    Unmarked plain := by
  induction h with
  | nil => exact htext
  | cell h ih =>
      refine List.isChain_cons.2 ⟨fun y hy => ?_, ih htext.tail⟩
      rcases h.head?_plain y hy with hy | rfl
      · exact (List.isChain_cons.1 htext).1 y hy
      · exact fun _ => ⟨fun h => absurd h.2 (by decide), fun h => absurd h.2 (by decide)⟩
  | @line _ text plain _ _ _ ih =>
      have hbreak : Unmarked (⟨'\n', false⟩ :: text) :=
        htext.of_isInfix (List.suffix_append _ _).isInfix
      exact List.isChain_cons.2 ⟨fun y _ => apart_of_ne (by decide) (by decide), ih hbreak.tail⟩
  | last => exact List.isChain_nil

theorem run_plain (keeps : Nat → List Char → Bool) (h : Passage mode text plain after)
    (hplain : Unmarked plain) (depth : Nat) :
    (stripper keeps).run (.code mode.quote depth) (Mask.reveal plain) = Mask.reveal plain := by
  induction h generalizing depth with
  | nil => rfl
  | cell _ ih =>
      refine (run_code_of_unmarked _ _ depth hplain).trans ?_
      exact congrArg _ (ih hplain.tail _)
  | line _ _ ih =>
      refine (run_code_of_unmarked _ .outside depth hplain).trans ?_
      exact congrArg _ (ih hplain.tail _)
  | last => rfl

theorem run_mask (h : Passage mode text plain after) (htext : Unmarked text) :
    Mask.masker.run (.code mode.quote) (Mask.reveal text) = text := by
  have hcode : ∀ (quote : Quote) (c : Char) (rest : List Cell),
      Unmarked (cellAt quote c :: rest) →
      Mask.masker.run (.code quote) (c :: Mask.reveal rest) =
        cellAt quote c :: Mask.masker.run (.code (quote.feed c)) (Mask.reveal rest) := by
    intro quote c rest hrest
    apply Mask.run_code
    rintro rfl rfl hdash
    exact hrest.not_beginsComment (.inl ⟨rfl, hdash⟩)
  induction h with
  | nil => rfl
  | cell _ ih => exact (hcode _ _ _ htext).trans (congrArg _ (ih htext.tail))
  | @line comment text plain _ hline _ ih =>
      obtain ⟨tail, rfl⟩ := hline.dashes
      have htail : '\n' ∉ tail := fun hmem => hline.noBreak (by simp [hmem])
      have hbreak : Unmarked (cellAt .outside '\n' :: text) :=
        htext.of_isInfix (List.suffix_append _ _).isInfix
      rw [Mask.reveal_append, Mask.reveal_hide]
      refine (Mask.run_comment tail _ htail (by simp [Mask.reveal])).trans ?_
      refine congrArg _ ((hcode _ _ _ hbreak).trans ?_)
      exact congrArg _ (ih hbreak.tail)
  | last hline =>
      obtain ⟨tail, rfl⟩ := hline.dashes
      have htail : '\n' ∉ tail := fun hmem => hline.noBreak (by simp [hmem])
      rw [Mask.reveal_hide]
      have hcomment := Mask.run_comment tail [] htail (by simp)
      rw [List.append_nil] at hcomment
      exact hcomment.trans (List.append_nil _)

end Passage

theorem unmarked_cells (keeps : Nat → List Char → Bool) (text : List Char) :
    Unmarked (Mask.cells (stripWith keeps text)) := by
  rw [cells_stripWith]
  exact unmarked_veil keeps (.code .outside 0) text trivial

theorem strip_blank (text : List Char) : strip (blank text) = blank text := by
  obtain ⟨after, hpassage⟩ := passage_cells text
  rw [← Mask.reveal_cells (blank text)]
  exact hpassage.run_plain isDescription (unmarked_cells _ text) 0

end Comment

end SchemaReader.Scan

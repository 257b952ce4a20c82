import SchemaReader.Proofs.Scan.Annotation
import SchemaReader.Proofs.Text.Pieces

/-!
# Scripts that were stripped

A stripped script holds no comment but the lines that the rule keeps, each at a
depth at which it keeps them.  `Stripped` says so along the scan.  Taking text out
brings no new mark together, and the depth is that of the script, since comments
do not count for it.  So a second pass meets the lines that were kept and keeps
them again.
-/

namespace SchemaReader.Scan

open SchemaReader.Text

namespace Comment

/-- From the state `quote` at `depth` on, the comments of the text are lines that the rule keeps. -/
inductive Stripped (keeps : Nat → List Char → Bool) : Quote → Nat → List Char → Prop
  | nil {quote : Quote} {depth : Nat} : Stripped keeps quote depth []
  | code {quote : Quote} {depth : Nat} {c : Char} {text : List Char}
      (hplain : quote = .outside → ¬ BeginsComment c text.head?)
      (h : Stripped keeps (quote.feed c) (depthBehind quote depth c) text) :
      Stripped keeps quote depth (c :: text)
  | line {depth : Nat} {comment text : List Char} (hline : IsLine comment)
      (hkept : keeps depth comment) (htext : ∀ c ∈ text.head?, c = '\n')
      (h : Stripped keeps .outside depth text) : Stripped keeps .outside depth (comment ++ text)

/-- What the scan meets at `c` with `after` behind it is in quotes or in a line that was kept, or it
is code that begins no comment but a line for which `keeps` holds. -/
def Mode.Passes (keeps : Nat → List Char → Prop) (c : Char) (after : List Char) : Mode → Prop
  | .code quote depth =>
      quote = .outside → ¬ (c = '/' ∧ after.head? = some '*') ∧
        (c = '-' ∧ after.head? = some '-' → keeps depth (c :: after.takeWhile (· != '\n')))
  | .line _ _ => True
  | _ => False

variable {keeps : Nat → List Char → Bool}

theorem Stripped.keptLine {depth : Nat} {comment text : List Char} (hline : IsLine comment.reverse)
    (htext : ∀ c ∈ text.head?, c = '\n') (h : Stripped keeps .outside depth text) :
    Stripped keeps .outside depth (Comment.keptLine keeps depth comment ++ text) := by
  unfold Comment.keptLine
  split
  · exact .line hline ‹_› htext h
  · exact h

theorem stripped_run (mode : Mode) (text : List Char) (h : mode.Begun text) :
    Stripped keeps mode.quote mode.depth ((stripper keeps).run mode text) := by
  induction text generalizing mode with
  | nil =>
      cases mode with
      | line depth comment =>
          have hkept : Stripped keeps .outside depth (Comment.keptLine keeps depth comment ++ []) :=
            Stripped.nil.keptLine (h.isLine (by simp)) (by simp)
          rwa [List.append_nil] at hkept
      | _ => exact .nil
  | cons c rest ih =>
      obtain ⟨after, cells, hstep⟩ := exists_step mode c rest.head?
      have hrest := ih after (hstep.begun h)
      rw [hstep.run_stripper]
      cases hstep with
      | opens =>
          exact .code (fun _ => not_beginsComment_of_ne (by decide) (by decide) _) hrest
      | code hplain =>
          exact .code (fun hquote => not_beginsComment_run keeps (hplain hquote) _ _) hrest
      | ends =>
          rw [Mask.reveal_append, Mask.reveal_hide, List.append_assoc]
          refine Stripped.keptLine (h.isLine (by simp)) (by simp [Mask.reveal]) ?_
          exact .code (fun _ => not_beginsComment_of_ne (by decide) (by decide) _) hrest
      | _ => exact hrest

theorem stripped_stripWith (keeps : Nat → List Char → Bool) (text : List Char) :
    Stripped keeps .outside 0 (stripWith keeps text) :=
  stripped_run (.code .outside 0) text trivial

theorem Stripped.run_eq {quote : Quote} {depth : Nat} {text : List Char}
    (h : Stripped keeps quote depth text) :
    (stripper keeps).run (.code quote depth) text = text := by
  induction h with
  | nil => rfl
  | code hplain h ih =>
      rw [(Step.code hplain).run_stripper, ih]
      rfl
  | line hline hkept htext h ih =>
      rw [hline.run keeps _ htext, ih, Comment.keptLine, List.reverse_reverse, if_pos hkept]

theorem stripWith_stripWith (keeps : Nat → List Char → Bool) (text : List Char) :
    stripWith keeps (stripWith keeps text) = stripWith keeps text :=
  (stripped_stripWith keeps text).run_eq

theorem state_line (depth : Nat) (read : List Char) {text : List Char} (h : '\n' ∉ text)
    (next : Option Char) :
    (stripper keeps).state next (.line depth read) text = .line depth (text.reverse ++ read) := by
  induction text generalizing read with
  | nil => rfl
  | cons c text ih =>
      obtain ⟨hc, htext⟩ : c ≠ '\n' ∧ '\n' ∉ text := by grind
      rw [Transducer.state_cons, stripper_step, step, if_neg hc, ih _ htext]
      simp

theorem IsLine.state (keeps : Nat → List Char → Bool) {before more : List Char}
    (h : IsLine (before ++ more)) (hne : before ≠ []) (depth : Nat) (next : Option Char) :
    (stripper keeps).state (more.head?.or next) (.code .outside depth) before =
      .line depth before.reverse := by
  obtain ⟨c, before, rfl⟩ := List.exists_cons_of_ne_nil hne
  obtain ⟨tail, htail⟩ := h.dashes
  rw [List.cons_append, List.cons.injEq] at htail
  obtain ⟨rfl, htail⟩ := htail
  have hnext : before.head?.or (more.head?.or next) = some '-' := by
    rw [← Option.or_assoc, ← List.head?_append, htail]
    rfl
  have hbreak : '\n' ∉ before := fun hmem => h.noBreak (by simp [hmem])
  have hstep : step keeps (.code .outside depth) '-' (some '-') = (.line depth ['-'], []) := rfl
  rw [Transducer.state_cons, hnext, stripper_step, hstep, state_line depth ['-'] hbreak]
  simp

theorem IsLine.state_end (keeps : Nat → List Char → Bool) {comment : List Char}
    (h : IsLine comment) (depth : Nat) (next : Option Char) :
    (stripper keeps).state next (.code .outside depth) comment = .line depth comment.reverse := by
  obtain ⟨tail, rfl⟩ := h.dashes
  rw [← List.append_nil ('-' :: '-' :: tail)] at h
  have hstate := h.state keeps (by simp) depth next
  rwa [List.head?_nil, Option.none_or] at hstate

theorem IsLine.state_append (keeps : Nat → List Char → Bool) {comment : List Char}
    (h : IsLine comment) (depth : Nat) (next : Option Char) (more : List Char) :
    (stripper keeps).state next (.code .outside depth) (comment ++ '\n' :: more) =
      (stripper keeps).state next (.code .outside depth) ('\n' :: more) := by
  rw [Transducer.state_append, h.state_end, Transducer.state_cons, Transducer.state_cons]
  rfl

theorem takeWhile_line {line text : List Char} (hline : '\n' ∉ line)
    (htext : ∀ c ∈ text.head?, c = '\n') : (line ++ text).takeWhile (· != '\n') = line := by
  have hall : ∀ c ∈ line, c != '\n' := by
    intro c hc
    simpa using fun heq : c = '\n' => hline (heq ▸ hc)
  have hend : text.takeWhile (· != '\n') = [] := by
    cases text with
    | nil => rfl
    | cons c text => simp [htext c rfl]
  rw [List.takeWhile_append_of_pos hall, hend, List.append_nil]

theorem IsLine.passes {depth : Nat} {before more text after : List Char} {c : Char}
    (h : IsLine (before ++ more)) (hkept : keeps depth (before ++ more))
    (hbreak : ∀ c ∈ text.head?, c = '\n') (hafter : c :: after = more ++ text) :
    ((stripper keeps).state (some c) (.code .outside depth) before).Passes (keeps · ·) c after := by
  rcases before with _ | ⟨x, before⟩
  · obtain ⟨tail, htail⟩ := h.dashes
    obtain rfl : more = '-' :: '-' :: tail := htail
    obtain ⟨rfl, rfl⟩ : c = '-' ∧ after = '-' :: tail ++ text := by simpa using hafter
    intro _
    refine ⟨fun hstar => absurd hstar.1 (by decide), fun _ => ?_⟩
    rwa [takeWhile_line (fun hmem => h.noBreak (by simp [hmem])) hbreak]
  · have hnext : more.head?.or text.head? = some c := by
      rw [← List.head?_append, ← hafter, List.head?_cons]
    rw [← hnext, h.state keeps (by simp)]
    trivial

theorem Stripped.passes {quote : Quote} {depth : Nat} {text : List Char}
    (h : Stripped keeps quote depth text) {before after : List Char} {c : Char}
    (htext : text = before ++ c :: after) :
    ((stripper keeps).state (some c) (.code quote depth) before).Passes (keeps · ·) c after := by
  induction h generalizing before with
  | nil => simp at htext
  | @code quote depth x text hplain h ih =>
      rcases before with _ | ⟨y, before⟩
      · cases htext
        intro hquote
        exact ⟨fun hstar => hplain hquote (.inr hstar),
          fun hdash => absurd (.inl hdash) (hplain hquote)⟩
      · rw [List.cons_append, List.cons.injEq] at htext
        obtain ⟨rfl, rfl⟩ := htext
        rw [List.head?_append, List.head?_cons] at hplain
        rw [Transducer.state_cons, stripper_step, ((Step.code hplain).eq keeps).1]
        exact ih rfl
  | @line depth comment text hline hkept hbreak h ih =>
      rcases List.append_eq_append_iff.1 htext with ⟨more, rfl, rfl⟩ | ⟨more, rfl, hafter⟩
      · rcases more with _ | ⟨x, more⟩
        · rw [List.append_nil, hline.state_end]
          trivial
        · obtain rfl : x = '\n' := hbreak x (by simp)
          rw [hline.state_append]
          exact ih rfl
      · exact hline.passes hkept hbreak hafter

def SpeaksOfTable (comment : List Char) : Prop :=
  ['表'] <:+: lower comment ∨ "table".toList <:+: lower comment

theorem isDescription_iff {depth : Nat} {comment : List Char} :
    isDescription depth comment ↔ depth = 0 ∧ SpeaksOfTable comment := by
  simp only [isDescription, mentionsTable, SpeaksOfTable, Bool.and_eq_true, Bool.or_eq_true,
    beq_iff_eq, List.isInfixOf_internal_iff_isInfix]

end Comment

end SchemaReader.Scan

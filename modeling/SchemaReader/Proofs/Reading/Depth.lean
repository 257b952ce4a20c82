import SchemaReader.Proofs.Reading.Locality
import SchemaReader.Proofs.Scan.Nesting

/-!
# Sections and depth of a masked text

A masked text shows blanks inside its sections, and its visible parentheses are
those that the scan of the script counts.  So whether a search closes what stands
open is a matter of counting: it fails exactly if the text behind never goes below
the depth at which it starts.
-/

namespace SchemaReader.Scan

open SchemaReader.Text SchemaReader.Reading

namespace Comment

theorem sections_hide (text : List Char) : Sections none (hide text) none := by
  induction text with
  | nil => exact .nil
  | cons c text ih => exact .code ih

theorem Step.sections {next : Option Char} {mode after : Mode} {c : Char}
    {cells : (Nat → List Char → Bool) → List Cell} (h : Step next mode c after cells)
    (keeps : Nat → List Char → Bool) : Sections mode.section? (cells keeps) after.section? := by
  cases h with
  | opens => exact .code .nil
  | ends => exact (sections_hide _).append (.code .nil)
  | @code quote depth c hplain =>
      rw [Mode.section?_code, Mode.section?_code]
      rcases cellAt_cases quote c with
        ⟨rfl, hfeed, hplain, hcell⟩ | ⟨d, rfl, hfeed, rfl, hcell⟩ |
        ⟨d, hquote, hfeed, hcell⟩ | ⟨d, hquote, hfeed, rfl, hcell⟩
      · rw [hcell, hfeed]
        exact .code (hplain ▸ .nil)
      · rw [hcell, hfeed]
        exact .code (Delimiter.ofChar?_eq_some.2 rfl ▸ .nil)
      · rw [hcell, hquote, hfeed]
        exact .blank rfl .nil
      · rw [hcell, hquote, hfeed]
        exact .close rfl .nil
  | _ => exact .nil

theorem sections_written (keeps : Nat → List Char → Bool) (next : Option Char) (mode : Mode)
    (text : List Char) :
    Sections mode.section? ((veil keeps).written next mode text)
      ((stripper keeps).state next mode text).section? := by
  induction text generalizing mode with
  | nil => exact .nil
  | cons c text ih =>
      obtain ⟨after, cells, hstep⟩ := exists_step mode c (text.head?.or next)
      rw [hstep.written_veil, hstep.state_stripper]
      exact (hstep.sections keeps).append (ih after)

theorem sectioned_run (keeps : Nat → List Char → Bool) (mode : Mode) (text : List Char) :
    Sectioned mode.section? ((veil keeps).run mode text) := by
  have hfinish : ∀ mode : Mode, Sectioned mode.section? (hide (finish keeps mode)) := by
    intro mode
    cases mode with
    | line depth comment =>
        have hline : Sections none (hide (keptLine keeps depth comment)) none := sections_hide _
        exact hline.sectioned
    | code quote depth => cases quote <;> trivial
    | _ => trivial
  rw [Transducer.run_eq_written, veil_state]
  exact (sections_written keeps none mode text).sectioned_append (hfinish _)

theorem Step.shown_of_mem {next : Option Char} {mode after : Mode} {c : Char}
    {cells : (Nat → List Char → Bool) → List Cell} (h : Step next mode c after cells)
    {keeps : Nat → List Char → Bool} {x : Cell} (hx : x ∈ cells keeps) :
    shown x = ' ' ∨ shown x = c := by
  cases h with
  | opens =>
      rw [List.mem_singleton.1 hx]
      exact .inl rfl
  | @code quote depth c hplain =>
      rw [List.mem_singleton.1 hx]
      cases hhidden : (cellAt quote c).hidden with
      | true => exact .inl (if_pos hhidden)
      | false => exact .inr (if_neg (ne_true_of_eq_false hhidden))
  | ends =>
      rcases List.mem_append.1 hx with hx | hx
      · exact .inl (shown_hide hx)
      · rw [List.mem_singleton.1 hx]
        exact .inr rfl
  | _ => cases hx

theorem shown_of_mem_written {keeps : Nat → List Char → Bool} {next : Option Char} {mode : Mode}
    {text : List Char} {x : Cell} (h : x ∈ (veil keeps).written next mode text) :
    shown x = ' ' ∨ shown x ∈ text := by
  induction text generalizing mode with
  | nil => cases h
  | cons c text ih =>
      obtain ⟨after, cells, hstep⟩ := exists_step mode c (text.head?.or next)
      rw [hstep.written_veil] at h
      rcases List.mem_append.1 h with h | h
      · exact (hstep.shown_of_mem h).imp_right fun hx => List.mem_cons.2 (.inl hx)
      · exact (ih h).imp_right (List.mem_cons_of_mem _)

def depthOver (depth : Nat) (cells : List Cell) : Nat :=
  cells.foldl (fun depth x => depthAfter depth (shown x)) depth

theorem depthOver_append (depth : Nat) (first second : List Cell) :
    depthOver depth (first ++ second) = depthOver (depthOver depth first) second :=
  List.foldl_append

theorem depthOver_hide (depth : Nat) (text : List Char) : depthOver depth (hide text) = depth := by
  induction text with
  | nil => rfl
  | cons c text ih => exact ih

theorem depthAfter_shown_cellAt (quote : Quote) (depth : Nat) (c : Char) :
    depthAfter depth (shown (cellAt quote c)) = depthBehind quote depth c := by
  rcases cellAt_cases quote c with
    ⟨rfl, -, -, hcell⟩ | ⟨d, rfl, -, rfl, hcell⟩ | ⟨d, hquote, -, hcell⟩ |
      ⟨d, hquote, -, rfl, hcell⟩
  · rw [hcell, depthBehind_outside]
    rfl
  · rw [hcell, depthBehind_outside]
    rfl
  · rw [hcell, depthBehind_of_section? hquote]
    rfl
  · rw [hcell, depthBehind_of_section? hquote]
    exact depthAfter_delimiter depth d

theorem Step.depthOver_eq {next : Option Char} {mode after : Mode} {c : Char}
    {cells : (Nat → List Char → Bool) → List Cell} (h : Step next mode c after cells)
    (keeps : Nat → List Char → Bool) : depthOver mode.depth (cells keeps) = after.depth := by
  cases h with
  | code => exact depthAfter_shown_cellAt _ _ _
  | ends =>
      rw [depthOver_append, depthOver_hide]
      rfl
  | _ => rfl

theorem depthOver_written (keeps : Nat → List Char → Bool) (next : Option Char) (mode : Mode)
    (text : List Char) :
    depthOver mode.depth ((veil keeps).written next mode text) =
      ((stripper keeps).state next mode text).depth := by
  induction text generalizing mode with
  | nil => rfl
  | cons c text ih =>
      obtain ⟨after, cells, hstep⟩ := exists_step mode c (text.head?.or next)
      rw [hstep.written_veil, hstep.state_stripper, depthOver_append, hstep.depthOver_eq, ih]

theorem depthAfter_eq {depth : Nat} {c : Char} (h : 0 ≤ (depth : Int) + nesting [c]) :
    (depthAfter depth c : Int) = depth + nesting [c] := by
  unfold depthAfter
  by_cases hopen : c = '('
  · simp [hopen]
  · by_cases hclose : c = ')'
    · subst hclose
      simp at h ⊢
      omega
    · simp [hopen, hclose, nesting_plain hopen hclose]

/-- Where no parenthesis closes too much, the clamped depth is the true one. -/
theorem depthOver_eq_of_neverBelow {depth : Nat} {cells : List Cell}
    (h : NeverBelow depth (cells.map shown)) :
    (depthOver depth cells : Int) = depth + nesting (cells.map shown) := by
  induction cells generalizing depth with
  | nil => simp [depthOver]
  | cons x cells ih =>
      have hcons : ∀ rest, nesting (shown x :: rest) = nesting rest + nesting [shown x] := by
        intro rest
        rw [Int.add_comm, ← nesting_append]
        rfl
      rw [List.map_cons, neverBelow_cons _ hcons] at h
      have hafter := depthAfter_eq h.2.nonneg
      rw [← hafter] at h
      have hrest := ih h.2
      rw [List.map_cons, hcons, depthOver, List.foldl_cons]
      rw [depthOver] at hrest
      omega

theorem depthOver_of_wellNested {depth : Nat} {cells : List Cell}
    (h : WellNestedFrom depth (Balance.parensOf cells)) : depthOver depth cells = 0 := by
  have hdepth := depthOver_eq_of_neverBelow h.neverBelow
  have hclosed : depth + nesting (cells.map shown) = 0 := by
    rw [← nesting_filter]
    exact h.closed
  omega

end Comment

theorem sectioned_cons_cases {quote : Option Delimiter} {x : Cell} {rest : List Cell}
    (h : Sectioned quote (x :: rest)) :
    (quote = none ∧ (shown x = '(' ∨ shown x = ')') ∧ Sectioned none rest) ∨
      ((shown x ≠ '(' ∧ shown x ≠ ')') ∧ ∃ after, Sectioned after rest ∧
        ∀ opened index, closingFrom (quoteOf quote) opened index (x :: rest) =
          closingFrom (quoteOf after) opened (index + 1) rest) := by
  cases quote with
  | none =>
      rw [Sectioned] at h
      by_cases hparen : shown x = '(' ∨ shown x = ')'
      · refine .inl ⟨rfl, hparen, ?_⟩
        rcases hparen with hx | hx <;> rwa [hx] at h
      · rw [not_or] at hparen
        refine .inr ⟨hparen, _, h, fun opened index => ?_⟩
        simp [closingFrom, quoteOf, Quote.feed_outside, hparen]
  | some d =>
      right
      rcases h with ⟨hx, h⟩ | ⟨hx, h⟩
      · refine ⟨by rw [hx]; cases d <;> decide, none, h, fun opened index => ?_⟩
        exact closingFrom_inside_delimiter hx opened index rest
      · refine ⟨by rw [hx]; decide, some d, h, fun opened index => ?_⟩
        exact closingFrom_blank hx d opened index rest

/-- Among sections that show nothing but blanks the search counts the visible parentheses, and it
fails exactly if they never close the last one that is open. -/
theorem closingFrom_eq_none_iff {quote : Option Delimiter} {opened : Nat} (index : Nat)
    {text : List Cell} (hsections : Sectioned quote text) (hopened : 1 ≤ opened) :
    closingFrom (quoteOf quote) opened index text = none ↔
      NeverBelow (opened - 1) (text.map shown) := by
  induction text generalizing quote opened index with
  | nil =>
      have hdepth : 0 ≤ (opened : Int) - 1 := by omega
      simpa [closingFrom, NeverBelow] using hdepth
  | cons x rest ih =>
      have hdepth : 0 ≤ (opened : Int) - 1 := by omega
      rw [List.map_cons]
      rcases sectioned_cons_cases hsections with
        ⟨rfl, hparen, hrest⟩ | ⟨hplain, after, hrest, hstep⟩
      · rcases hparen with hx | hx
        · have hmore : 1 ≤ opened + 1 := by omega
          have hinner := ih (index + 1) hrest hmore
          rw [show ((opened + 1 : Nat) : Int) - 1 = opened - 1 + 1 by omega] at hinner
          rw [hx, neverBelow_cons 1 nesting_open, and_iff_right hdepth, ← hinner]
          simp [quoteOf, closingFrom_open hx]
        · rw [hx, neverBelow_cons (-1) (fun rest => by simp; omega), and_iff_right hdepth, quoteOf,
            Option.elim_none, closingFrom_close hx]
          by_cases hone : opened = 1
          · -- The last parenthesis that is open is closed here.
            have hbelow : ¬ NeverBelow (-1) (rest.map shown) := by
              intro h
              have := h [] List.nil_prefix
              simp at this
            simp [hone, hbelow]
          · have hless : 1 ≤ opened - 1 := by omega
            have hinner := ih (index + 1) hrest hless
            rw [show ((opened - 1 : Nat) : Int) - 1 = opened - 1 + -1 by omega] at hinner
            rw [if_neg hone, ← hinner]
            rfl
      · rw [hstep, ih _ hrest hopened, neverBelow_cons 0 (nesting_plain hplain.1 hplain.2),
          and_iff_right hdepth, Int.add_zero]

theorem closing?_eq_none_iff {x : Cell} {rest : List Cell} (hx : shown x = '(')
    (hsections : Sectioned none rest) :
    closing? (x :: rest) = none ↔ NeverBelow 0 (rest.map shown) := by
  have hhead : (x :: rest).head?.map shown = some '(' := congrArg some hx
  rw [closing?, if_pos hhead, closingFrom_open hx]
  exact closingFrom_eq_none_iff 1 hsections (Nat.le_refl 1)

theorem isSome_closing? {body : List Cell} {depth : Nat} (hsections : Sectioned none body)
    (hopen : headShown body = some '(') (hdepth : Comment.depthOver depth body = 0) :
    (closing? body).isSome := by
  obtain ⟨x, rest, rfl⟩ : ∃ x rest, body = x :: rest := by
    cases body with
    | nil => cases hopen
    | cons x rest => exact ⟨x, rest, rfl⟩
  have hx : shown x = '(' := by simpa [headShown] using hopen
  have hrest : Sectioned none rest := by
    rwa [Sectioned, hx] at hsections
  rw [Option.isSome_iff_ne_none, Ne, closing?_eq_none_iff hx hrest]
  intro hbelow
  have hdeeper : NeverBelow (depth + 1 : Nat) (rest.map shown) := hbelow.mono (by omega)
  have hall := hbelow _ (List.prefix_refl _)
  have hover := Comment.depthOver_eq_of_neverBelow hdeeper
  rw [Comment.depthOver, List.foldl_cons, hx] at hdepth
  change Comment.depthOver (depth + 1) rest = 0 at hdepth
  omega

theorem closing?_append_of_neverBelow {body later : List Cell} (htidy : Tidy none body)
    (hopen : headShown body = some '(') (hlater : Sectioned none later)
    (hbelow : NeverBelow 0 (later.map shown)) : closing? (body ++ later) = closing? body := by
  cases hclose : closing? body with
  | some close => exact closing?_append hclose later
  | none =>
      obtain ⟨x, rest, rfl⟩ : ∃ x rest, body = x :: rest := by
        cases body with
        | nil => cases hopen
        | cons x rest => exact ⟨x, rest, rfl⟩
      have hx : shown x = '(' := by simpa [headShown] using hopen
      have hrest : Tidy none rest := by
        rwa [Tidy, hx] at htidy
      rw [closing?_eq_none_iff hx hrest.sectioned] at hclose
      rw [List.cons_append,
        closing?_eq_none_iff hx (hrest.sections.sectioned_append hlater), List.map_append]
      exact hclose.append hbelow

end SchemaReader.Scan

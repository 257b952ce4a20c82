import SchemaReader.Proofs.Scan.Veil
import SchemaReader.Reading.File

/-!
# Parentheses of a script

The check of a script and the search for definitions follow quotes and comments
in different ways: the check remembers the last character and reads the script as
it stands, while the search looks one character ahead, strips comments and masks
what is left.  Both see the same parentheses, and the verdict on a script is a
statement about how deep these are nested.
-/

namespace SchemaReader.Scan

open SchemaReader.Text (Cell)

def isParen (c : Char) : Bool := c == '(' || c == ')'

def nesting (parens : List Char) : Int := parens.count '(' - parens.count ')'

@[simp] theorem nesting_nil : nesting [] = 0 := rfl

@[simp] theorem nesting_open (parens : List Char) :
    nesting ('(' :: parens) = nesting parens + 1 := by
  simp [nesting]
  omega

@[simp] theorem nesting_close (parens : List Char) :
    nesting (')' :: parens) = nesting parens - 1 := by
  simp [nesting]
  omega

theorem nesting_append (first second : List Char) :
    nesting (first ++ second) = nesting first + nesting second := by
  simp only [nesting, List.count_append]
  omega

theorem nesting_plain {c : Char} (hopen : c ≠ '(') (hclose : c ≠ ')') (text : List Char) :
    nesting (c :: text) = nesting text + 0 := by
  simp [nesting, hopen, hclose]

/-- From `depth` on, no prefix closes too much or nests too deep, and all is closed at the end. -/
structure WellNestedFrom (depth : Int) (parens : List Char) : Prop where
  within : ∀ start, start <+: parens →
    0 ≤ depth + nesting start ∧ depth + nesting start ≤ Balance.maxDepth
  closed : depth + nesting parens = 0

def WellNested (parens : List Char) : Prop := WellNestedFrom 0 parens

/-- From `depth` on, some prefix nests too deep before any closes too much. -/
def OverflowsFrom (depth : Int) (parens : List Char) : Prop :=
  ∃ start, start <+: parens ∧ Balance.maxDepth < depth + nesting start ∧
    ∀ before, before <+: start → 0 ≤ depth + nesting before

def Overflows (parens : List Char) : Prop := OverflowsFrom 0 parens

theorem forall_prefix_cons {α : Type} {P : List α → Prop} {x : α} {rest : List α} :
    (∀ start, start <+: x :: rest → P start) ↔
      P [] ∧ ∀ start, start <+: rest → P (x :: start) := by
  constructor
  · intro h
    exact ⟨h [] List.nil_prefix, fun start hstart => h _ (List.cons_prefix_cons.2 ⟨rfl, hstart⟩)⟩
  · rintro ⟨hnil, hcons⟩ start hstart
    rcases List.prefix_cons_iff.1 hstart with rfl | ⟨tail, rfl, htail⟩
    · exact hnil
    · exact hcons tail htail

theorem exists_prefix_cons {α : Type} {P : List α → Prop} {x : α} {rest : List α} :
    (∃ start, start <+: x :: rest ∧ P start) ↔
      P [] ∨ ∃ start, start <+: rest ∧ P (x :: start) := by
  constructor
  · rintro ⟨start, hstart, h⟩
    rcases List.prefix_cons_iff.1 hstart with rfl | ⟨tail, rfl, htail⟩
    · exact .inl h
    · exact .inr ⟨tail, htail, h⟩
  · rintro (h | ⟨start, hstart, h⟩)
    · exact ⟨[], List.nil_prefix, h⟩
    · exact ⟨x :: start, List.cons_prefix_cons.2 ⟨rfl, hstart⟩, h⟩

theorem wellNestedFrom_nil {depth : Int} : WellNestedFrom depth [] ↔ depth = 0 := by
  constructor
  · intro h
    simpa using h.closed
  · rintro rfl
    exact ⟨by simp [Balance.maxDepth], rfl⟩

theorem wellNestedFrom_cons {depth : Int} {c : Char} {parens : List Char} (shift : Int)
    (hc : ∀ rest, nesting (c :: rest) = nesting rest + shift) :
    WellNestedFrom depth (c :: parens) ↔
      (0 ≤ depth ∧ depth ≤ Balance.maxDepth) ∧ WellNestedFrom (depth + shift) parens := by
  have hshift : ∀ rest, depth + nesting (c :: rest) = depth + shift + nesting rest := by
    intro rest
    rw [hc]
    omega
  constructor
  · rintro ⟨hwithin, hclosed⟩
    obtain ⟨hnil, hcons⟩ := forall_prefix_cons.1 hwithin
    refine ⟨by simpa using hnil, ?_, by rw [← hshift, hclosed]⟩
    intro start hstart
    rw [← hshift]
    exact hcons start hstart
  · rintro ⟨hdepth, hwithin, hclosed⟩
    refine ⟨forall_prefix_cons.2 ⟨by simpa using hdepth, ?_⟩, by rw [hshift, hclosed]⟩
    intro start hstart
    rw [hshift]
    exact hwithin start hstart

theorem overflowsFrom_nil (depth : Int) (h : depth ≤ Balance.maxDepth) :
    ¬ OverflowsFrom depth [] := by
  rintro ⟨start, hstart, hdeep, -⟩
  rw [List.prefix_nil.1 hstart] at hdeep
  simp only [nesting_nil] at hdeep
  omega

theorem overflowsFrom_cons {depth : Int} {c : Char} {parens : List Char} (shift : Int)
    (hc : ∀ rest, nesting (c :: rest) = nesting rest + shift)
    (hdepth : depth ≤ Balance.maxDepth) :
    OverflowsFrom depth (c :: parens) ↔ 0 ≤ depth ∧ OverflowsFrom (depth + shift) parens := by
  have hshift : ∀ rest, depth + nesting (c :: rest) = depth + shift + nesting rest := by
    intro rest
    rw [hc]
    omega
  unfold OverflowsFrom
  rw [exists_prefix_cons]
  constructor
  · rintro (⟨hdeep, -⟩ | ⟨start, hstart, hdeep, hbefore⟩)
    · simp only [nesting_nil] at hdeep
      omega
    · obtain ⟨hnil, hcons⟩ := forall_prefix_cons.1 hbefore
      refine ⟨by simpa using hnil, start, hstart, by rw [← hshift]; exact hdeep, ?_⟩
      intro before hprefix
      rw [← hshift]
      exact hcons before hprefix
  · rintro ⟨hnonneg, start, hstart, hdeep, hbefore⟩
    refine .inr ⟨start, hstart, by rw [hshift]; exact hdeep, forall_prefix_cons.2
      ⟨by simpa using hnonneg, ?_⟩⟩
    intro before hprefix
    rw [hshift]
    exact hbefore before hprefix

theorem not_overflowsFrom_of_neg {depth : Int} {parens : List Char} (h : depth < 0) :
    ¬ OverflowsFrom depth parens := by
  rintro ⟨start, -, -, hbefore⟩
  have := hbefore [] List.nil_prefix
  simp only [nesting_nil] at this
  omega

theorem not_wellNestedFrom_of_outside {depth : Int} {parens : List Char}
    (h : depth < 0 ∨ Balance.maxDepth < depth) : ¬ WellNestedFrom depth parens := by
  rintro ⟨hwithin, -⟩
  have := hwithin [] List.nil_prefix
  simp only [nesting_nil] at this
  omega

def NeverBelow (depth : Int) (text : List Char) : Prop :=
  ∀ start, start <+: text → 0 ≤ depth + nesting start

theorem neverBelow_cons {depth : Int} {c : Char} {text : List Char} (shift : Int)
    (hc : ∀ rest, nesting (c :: rest) = nesting rest + shift) :
    NeverBelow depth (c :: text) ↔ 0 ≤ depth ∧ NeverBelow (depth + shift) text := by
  simp only [NeverBelow, forall_prefix_cons, nesting_nil, Int.add_zero, hc, ← Int.add_assoc,
    Int.add_right_comm depth]

theorem NeverBelow.nonneg {depth : Int} {text : List Char} (h : NeverBelow depth text) :
    0 ≤ depth := by
  simpa using h [] List.nil_prefix

theorem NeverBelow.append {depth : Int} {first second : List Char} (h : NeverBelow depth first)
    (hsecond : NeverBelow 0 second) : NeverBelow depth (first ++ second) := by
  rintro start ⟨rest, hrest⟩
  rcases List.append_eq_append_iff.1 hrest with ⟨more, rfl, -⟩ | ⟨more, rfl, hmore⟩
  · exact h start (List.prefix_append start more)
  · have hall := h first (List.prefix_refl first)
    have hmore := hsecond more ⟨rest, hmore.symm⟩
    rw [nesting_append]
    omega

theorem NeverBelow.mono {depth deeper : Int} {text : List Char} (h : NeverBelow depth text)
    (hdepth : depth ≤ deeper) : NeverBelow deeper text := by
  intro start hstart
  have := h start hstart
  omega

theorem nesting_filter (text : List Char) : nesting (text.filter isParen) = nesting text := by
  rw [nesting, List.count_filter rfl, List.count_filter rfl, nesting]

theorem WellNestedFrom.neverBelow {depth : Int} {text : List Char}
    (h : WellNestedFrom depth (text.filter isParen)) : NeverBelow depth text := by
  intro start hstart
  rw [← nesting_filter]
  exact (h.within _ (hstart.filter isParen)).1

/-! ## The check of a run of parentheses -/

namespace Balance

def nestingDefect? (depth : Nat) : List Char → Option Defect
  | [] => if depth = 0 then none else some .unbalanced
  | c :: rest =>
      if c = '(' then
        if maxDepth < depth + 1 then some (.tooDeep (depth + 1))
        else nestingDefect? (depth + 1) rest
      else if depth = 0 then some .unbalanced
      else nestingDefect? (depth - 1) rest

theorem nestingDefect?_spec (depth : Nat) (parens : List Char) (hdepth : depth ≤ maxDepth)
    (hparens : ∀ c ∈ parens, isParen c) :
    (nestingDefect? depth parens = none ↔ WellNestedFrom depth parens) ∧
      (OverflowsFrom depth parens → nestingDefect? depth parens = some (.tooDeep 101)) ∧
      (¬ WellNestedFrom depth parens → ¬ OverflowsFrom depth parens →
        nestingDefect? depth parens = some .unbalanced) := by
  induction parens generalizing depth with
  | nil =>
      have hnone := overflowsFrom_nil depth (by exact_mod_cast hdepth)
      rw [wellNestedFrom_nil]
      simp only [nestingDefect?]
      refine ⟨by simp, fun h => absurd h hnone, fun h _ => ?_⟩
      rw [if_neg (by omega)]
  | cons c parens ih =>
      have hrest : ∀ d ∈ parens, isParen d := fun d hd => hparens d (by simp [hd])
      have hbound : (depth : Int) ≤ maxDepth := by exact_mod_cast hdepth
      rcases (by simpa [isParen] using hparens c (by simp) : c = '(' ∨ c = ')') with rfl | rfl
      · rw [wellNestedFrom_cons 1 nesting_open,
          overflowsFrom_cons 1 nesting_open hbound]
        simp only [nestingDefect?, if_true]
        by_cases hdeep : maxDepth < depth + 1
        · -- The depth is the greatest one allowed, so the next prefix is the one that overflows.
          have hmax : depth = 100 := by
            simp only [maxDepth] at hdepth hdeep
            omega
          subst hmax
          have hwell : ¬ WellNestedFrom 101 parens :=
            not_wellNestedFrom_of_outside (.inr (by simp [maxDepth]))
          have hover : OverflowsFrom 101 parens := by
            refine ⟨[], List.nil_prefix, by simp [maxDepth], ?_⟩
            intro before hbefore
            simp [List.prefix_nil.1 hbefore]
          simp [maxDepth, hwell, hover]
        · have ih := ih (depth + 1) (by omega) hrest
          rw [if_neg hdeep]
          push_cast at ih
          simpa [hbound] using ih
      · rw [wellNestedFrom_cons (-1) (fun rest => by simp; omega),
          overflowsFrom_cons (-1) (fun rest => by simp; omega) hbound]
        simp only [nestingDefect?]
        rw [if_neg (by decide)]
        by_cases hzero : depth = 0
        · subst hzero
          have hwell : ¬ WellNestedFrom (-1) parens :=
            not_wellNestedFrom_of_outside (.inl (by simp))
          have hover : ¬ OverflowsFrom (-1) parens :=
            not_overflowsFrom_of_neg (by simp)
          simp [hwell, hover]
        · have ih := ih (depth - 1) (by omega) hrest
          rw [if_neg hzero]
          rw [show ((depth - 1 : Nat) : Int) = depth + -1 by omega] at ih
          simpa [hbound] using ih

/-! ## Two scans in step -/

def parensOf (cells : List Cell) : List Char := (cells.map Cell.shown).filter isParen

@[simp] theorem parensOf_append (first second : List Cell) :
    parensOf (first ++ second) = parensOf first ++ parensOf second := by
  simp [parensOf]

@[simp] theorem parensOf_hide (text : List Char) : parensOf (hide text) = [] := by
  induction text with
  | nil => rfl
  | cons c rest ih => exact ih

/-- The region of the check that belongs to a mode of the stripper, before the character `next`. -/
def Agrees (next : Option Char) : Comment.Mode → Region → Prop
  | .code .outside _, .code last =>
      ¬ (last = some '-' ∧ next = some '-') ∧ ¬ (last = some '/' ∧ next = some '*')
  | .code (.inside d) _, .quoted d' => d = d'
  | .code (.escaped d) _, .escaped d' => d = d'
  -- Stripping knows a comment by its first character, the check only by its second.
  | .opening _, .code last => last = some '/' ∧ next = some '*'
  | .line _ _, .code last => last = some '-' ∧ next = some '-'
  | .line _ _, .line => True
  | .block _, .block starred => ¬ (starred ∧ next = some '/')
  | .closing _, .block starred => starred ∧ next = some '/'
  | _, _ => False

theorem stepCode_of_isParen {c : Char} (h : isParen c) (last : Option Char) (depth : Nat) :
    stepCode last depth c =
      if c = '(' then
        if maxDepth < depth + 1 then .error (.tooDeep (depth + 1))
        else .ok (.code (some c), depth + 1)
      else if depth = 0 then .error .unbalanced
      else .ok (.code (some c), depth - 1) := by
  rcases (by simpa [isParen] using h : c = '(' ∨ c = ')') with rfl | rfl <;>
    simp [stepCode, Delimiter.ofChar?]

theorem stepCode_of_plain {last : Option Char} {c : Char} (depth : Nat) (hparen : ¬ isParen c)
    (hquote : Delimiter.ofChar? c = none)
    (h : ¬ (last = some '-' ∧ c = '-') ∧ ¬ (last = some '/' ∧ c = '*')) :
    stepCode last depth c = .ok (.code (some c), depth) := by
  simp only [isParen, Bool.or_eq_true, beq_iff_eq, not_or] at hparen
  simp [stepCode, h.1, h.2, hquote, hparen.1, hparen.2]

private theorem parensOf_singleton (c : Char) (hidden : Bool) :
    parensOf [⟨c, hidden⟩] = if hidden = false ∧ isParen c then [c] else [] := by
  cases hidden
  · cases h : isParen c <;> simp [parensOf, Cell.shown, h]
  · rfl

/-- A character either is no parenthesis for both scans, or a parenthesis of code for both. -/
def StepAgrees (keeps : Nat → List Char → Bool) (mode : Comment.Mode) (region : Region) (c : Char)
    (next : Option Char) (depth : Nat) : Prop :=
  (parensOf (Comment.veilAt keeps mode c next) = [] ∧
    ∃ after, step region depth c = .ok (after, depth) ∧
      Agrees next (Comment.step keeps mode c next).1 after) ∨
  (parensOf (Comment.veilAt keeps mode c next) = [c] ∧ isParen c ∧
    (∃ last, region = .code last) ∧
      Agrees next (Comment.step keeps mode c next).1 (.code (some c)))

theorem isParen_delimiter (d : Delimiter) : isParen d.char = false := by
  cases d <;> rfl

theorem stepAgrees_outside (keeps : Nat → List Char → Bool) {last next : Option Char} {c : Char}
    (strip depth : Nat) (hlast : ¬ (last = some '-' ∧ c = '-') ∧ ¬ (last = some '/' ∧ c = '*'))
    (hplain : ¬ Comment.BeginsComment c next) :
    StepAgrees keeps (.code .outside strip) (.code last) c next depth := by
  have hstep : Comment.Step next (.code .outside strip) c _ _ := .code fun _ => hplain
  rw [StepAgrees, (hstep.eq keeps).1, (hstep.eq keeps).2, Quote.feed_outside]
  have hcell : parensOf [Comment.cellAt .outside c] = if isParen c then [c] else [] := by
    simp [Comment.cellAt, Quote.isQuoted, parensOf_singleton]
  cases hquote : Delimiter.ofChar? c with
  | some d =>
      have hparen : isParen c = false := by
        rw [Delimiter.ofChar?_eq_some.1 hquote, isParen_delimiter]
      refine .inl ⟨by simp [hcell, hparen], .quoted d, ?_, rfl⟩
      simp [step, stepCode, hlast.1, hlast.2, hquote]
  | none =>
      have hafter : ∀ after, Agrees next (.code .outside after) (.code (some c)) := by
        intro after
        exact ⟨fun h => hplain (.inl ⟨Option.some.inj h.1, h.2⟩),
          fun h => hplain (.inr ⟨Option.some.inj h.1, h.2⟩)⟩
      by_cases hparen : isParen c
      · exact .inr ⟨by simp [hcell, hparen], hparen, ⟨last, rfl⟩, hafter _⟩
      · exact .inl ⟨by simp [hcell, hparen], .code (some c),
          stepCode_of_plain depth hparen hquote hlast, hafter _⟩

theorem stepAgrees_inside (keeps : Nat → List Char → Bool) (d : Delimiter) (c : Char)
    (strip : Nat) (next : Option Char) (depth : Nat) :
    StepAgrees keeps (.code (.inside d) strip) (.quoted d) c next depth := by
  have hstep : Comment.Step next (.code (.inside d) strip) c _ _ := .code (by simp)
  rw [StepAgrees, (hstep.eq keeps).1, (hstep.eq keeps).2, Comment.cellAt, parensOf_singleton]
  simp only [step, Quote.feed, Quote.step]
  by_cases hescape : d.escapes && c == '\\'
  · exact .inl ⟨by simp [hescape, Quote.isQuoted], _, rfl, by simp [hescape, Agrees]⟩
  · by_cases hclose : c = d.char
    · have hparen : isParen c = false := by rw [hclose, isParen_delimiter]
      refine .inl ⟨by simp [hparen], _, rfl, ?_⟩
      rw [if_neg hescape, if_pos hclose, if_neg hescape, if_pos hclose]
      cases d <;> simp_all [Agrees, Delimiter.char]
    · exact .inl ⟨by simp [hescape, hclose, Quote.isQuoted], _, rfl,
        by simp [hescape, hclose, Agrees]⟩

theorem stepAgrees_code (keeps : Nat → List Char → Bool) {quote : Quote} {region : Region}
    {c : Char} {next : Option Char} (strip depth : Nat)
    (hplain : quote = .outside → ¬ Comment.BeginsComment c next)
    (h : Agrees (some c) (.code quote strip) region) :
    StepAgrees keeps (.code quote strip) region c next depth := by
  cases quote with
  | outside =>
      cases region with
      | code last =>
          exact stepAgrees_outside keeps strip depth (by simpa [Agrees] using h) (hplain rfl)
      | _ => exact h.elim
  | inside d =>
      cases region with
      | quoted d' =>
          obtain rfl : d = d' := h
          exact stepAgrees_inside keeps d c strip next depth
      | _ => exact h.elim
  | escaped d =>
      cases region with
      | escaped d' =>
          obtain rfl : d = d' := h
          exact .inl ⟨rfl, .quoted d, rfl, rfl⟩
      | _ => exact h.elim

theorem agrees_step (keeps : Nat → List Char → Bool) {mode : Comment.Mode} {region : Region}
    {c : Char} (next : Option Char) (depth : Nat) (h : Agrees (some c) mode region) :
    StepAgrees keeps mode region c next depth := by
  obtain ⟨after, cells, hstep⟩ := Comment.exists_step mode c next
  -- Comments show no parenthesis, so in them only the regions have to go on together.
  have hquiet : ∀ later, parensOf (cells keeps) = [] → step region depth c = .ok (later, depth) →
      Agrees next after later → StepAgrees keeps mode region c next depth := by
    intro later hparens hlater hafter
    rw [StepAgrees, (hstep.eq keeps).1, (hstep.eq keeps).2]
    exact .inl ⟨hparens, later, hlater, hafter⟩
  cases hstep with
  | code hplain => exact stepAgrees_code keeps _ depth hplain h
  | opens hstar =>
      cases region with
      | code last =>
          have hlast : ¬ (last = some '-' ∧ '/' = '-') ∧ ¬ (last = some '/' ∧ '/' = '*') := by simp
          exact hquiet _ rfl (stepCode_of_plain depth (by decide) rfl hlast) ⟨rfl, hstar⟩
      | _ => exact h.elim
  | dashes hdash =>
      cases region with
      | code last =>
          have hlast : ¬ (last = some '-' ∧ '-' = '-') ∧ ¬ (last = some '/' ∧ '-' = '*') := by
            simpa [Agrees] using h
          exact hquiet _ rfl (stepCode_of_plain depth (by decide) rfl hlast) ⟨rfl, hdash⟩
      | _ => exact h.elim
  | opened =>
      cases region with
      | code last =>
          obtain ⟨rfl, hc⟩ := h
          cases hc
          exact hquiet (.block false) rfl rfl (by simp [Agrees])
      | _ => exact h.elim
  | within hopen =>
      cases region with
      | block starred =>
          have hstay : (starred && c == '/') = false := by simpa [Agrees] using h
          exact hquiet (.block (c == '*')) rfl (by simp [step, hstay])
            (by simpa [Agrees] using hopen)
      | _ => exact h.elim
  | closes hslash =>
      cases region with
      | block starred => exact hquiet (.block true) rfl (by simp [step]) ⟨rfl, hslash⟩
      | _ => exact h.elim
  | closed =>
      cases region with
      | block starred =>
          obtain ⟨hstarred, hc⟩ := h
          cases hc
          exact hquiet (.code none) rfl (by simp [step, hstarred]) (by simp [Agrees])
      | _ => exact h.elim
  | line hc =>
      cases region with
      | code last =>
          obtain ⟨rfl, hdash⟩ := h
          cases hdash
          exact hquiet .line rfl rfl trivial
      | line => exact hquiet .line rfl (by simp [step, hc]) trivial
      | _ => exact h.elim
  | ends =>
      cases region with
      | code last => cases h.2
      | line =>
          exact hquiet (.code (some '\n')) (by simp [parensOf_singleton, isParen]) rfl
            (by simp [Agrees])
      | _ => exact h.elim

theorem parenDefect?_eq (keeps : Nat → List Char → Bool) (mode : Comment.Mode) (region : Region)
    (depth : Nat) (text : List Char) (h : ∀ c ∈ text.head?, Agrees (some c) mode region) :
    parenDefect? region depth text =
      nestingDefect? depth (parensOf ((Comment.veil keeps).run mode text)) := by
  induction text generalizing mode region depth with
  | nil =>
      have hfinish : parensOf ((Comment.veil keeps).run mode []) = [] := by simp
      rw [hfinish]
      rfl
  | cons c rest ih =>
      rw [Transducer.run_cons, parensOf_append, Comment.veil_step, parenDefect?]
      rcases agrees_step keeps rest.head? depth (h c (by simp)) with
        ⟨hparens, after, hstep, hafter⟩ | ⟨hparens, hparen, ⟨last, rfl⟩, hafter⟩
      · have hrest := ih (Comment.step keeps mode c rest.head?).1 after depth fun d hd => by
          rw [← Option.mem_def.1 hd]
          exact hafter
        rw [hstep, hparens]
        exact hrest
      · have hrest := fun depth =>
          ih (Comment.step keeps mode c rest.head?).1 (.code (some c)) depth fun d hd => by
            rw [← Option.mem_def.1 hd]
            exact hafter
        rw [hparens, List.cons_append, List.nil_append, nestingDefect?, step,
          stepCode_of_isParen hparen]
        by_cases hopen : c = '('
        · rw [if_pos hopen, if_pos hopen]
          by_cases hdeep : maxDepth < depth + 1
          · rw [if_pos hdeep, if_pos hdeep]
          · rw [if_neg hdeep, if_neg hdeep]
            exact hrest (depth + 1)
        · rw [if_neg hopen, if_neg hopen]
          by_cases hzero : depth = 0
          · rw [if_pos hzero, if_pos hzero]
          · rw [if_neg hzero, if_neg hzero]
            exact hrest (depth - 1)

def visibleParens (text : List Char) : List Char :=
  (Mask.mask (Comment.strip text)).filter isParen

theorem visibleParens_eq (text : List Char) :
    visibleParens text =
      parensOf ((Comment.veil Comment.isDescription).run (.code .outside 0) text) := by
  rw [← Comment.cells_stripWith]
  rfl

end Balance

end SchemaReader.Scan

namespace SchemaReader.Reading

open SchemaReader.Scan

/-- The verdict on a script of allowed length without NUL says how the parentheses that a search
sees in it are nested. -/
theorem verdict_eq_nesting (limit : Int) (script : String) (hlimit : script.length ≤ limit)
    (hnul : '\x00' ∉ script.toList) :
    (verdict limit (.text script) = none ↔ WellNested (Balance.visibleParens script.toList)) ∧
      (Overflows (Balance.visibleParens script.toList) →
        verdict limit (.text script) = some "Excessive nested parentheses (depth 101)") ∧
      (¬ WellNested (Balance.visibleParens script.toList) →
        ¬ Overflows (Balance.visibleParens script.toList) →
        verdict limit (.text script) = some "Unbalanced parentheses in SQL") := by
  have hverdict : verdict limit (.text script) =
      (Balance.nestingDefect? 0 (Balance.visibleParens script.toList)).map (·.message) := by
    have hlength : ¬ limit < script.toList.length := by
      rw [String.length_toList]
      omega
    have hcontains : ¬ script.toList.contains '\x00' = true := by simpa using hnul
    rw [verdict, Balance.defect?, if_neg hlength, if_neg hcontains, Balance.visibleParens_eq]
    rw [Balance.parenDefect?_eq Comment.isDescription (.code .outside 0) (.code none) 0]
    simp [Balance.Agrees]
  have hspec := Balance.nestingDefect?_spec 0 (Balance.visibleParens script.toList)
    (by simp) (fun c hc => (List.mem_filter.1 hc).2)
  obtain ⟨hnone, hdeep, hunbalanced⟩ := hspec
  rw [hverdict]
  refine ⟨by simpa [WellNested] using hnone, ?_, ?_⟩
  · intro h
    rw [hdeep h]
    rfl
  · intro hwell hover
    rw [hunbalanced hwell hover]
    rfl

theorem verdict_eq_nesting_quoted_paren :
    "(a ')' /*/ ( */ --(\n))".length ≤ (100 : Int) ∧ '\x00' ∉ "(a ')' /*/ ( */ --(\n))".toList ∧
      Balance.visibleParens "(a ')' /*/ ( */ --(\n))".toList = ['(', ')', ')'] ∧
      (verdict 100 (.text "(a ')' /*/ ( */ --(\n))") = none ↔
        WellNested (Balance.visibleParens "(a ')' /*/ ( */ --(\n))".toList)) ∧
      (¬ WellNested (Balance.visibleParens "(a ')' /*/ ( */ --(\n))".toList) →
        ¬ Overflows (Balance.visibleParens "(a ')' /*/ ( */ --(\n))".toList) →
        verdict 100 (.text "(a ')' /*/ ( */ --(\n))") = some "Unbalanced parentheses in SQL") :=
  have h := verdict_eq_nesting 100 "(a ')' /*/ ( */ --(\n))" (by decide) (by decide)
  ⟨by decide, by decide, by decide, h.1, h.2.2⟩

end SchemaReader.Reading

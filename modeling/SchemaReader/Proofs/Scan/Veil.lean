import SchemaReader.Scan.Comment

/-!
# What a search sees of a script

Comments are stripped first, and the result is masked.  The two scans amount to
a single one over the script itself: `veil` writes, at each character, the cells
that masking the stripped script leaves there.  Facts about the masked text are
proved by one induction over the script instead of one over each intermediate
text.
-/

namespace SchemaReader.Scan

open SchemaReader.Text (Cell shown)

namespace Transducer

variable {σ β : Type}

def written (t : Transducer σ β) (next : Option Char) (s : σ) : List Char → List β
  | [] => []
  | c :: rest =>
      (t.step s c (rest.head?.or next)).2 ++
        t.written next (t.step s c (rest.head?.or next)).1 rest

theorem state_cons (t : Transducer σ β) (next : Option Char) (s : σ) (c : Char)
    (rest : List Char) :
    t.state next s (c :: rest) =
      t.state next (t.step s c (rest.head?.or next)).1 rest := by
  cases rest <;> simp [state]

theorem state_append (t : Transducer σ β) (next : Option Char) (s : σ)
    (first second : List Char) :
    t.state next s (first ++ second) =
      t.state next (t.state (second.head?.or next) s first) second := by
  induction first generalizing s with
  | nil => rfl
  | cons c first ih =>
      rw [List.cons_append, state_cons, ih, state_cons, List.head?_append, Option.or_assoc]

theorem run_append (t : Transducer σ β) (s : σ) (first second : List Char) :
    t.run s (first ++ second) =
      t.written second.head? s first ++ t.run (t.state second.head? s first) second := by
  induction first generalizing s with
  | nil => simp [written, state]
  | cons c rest ih =>
      rw [List.cons_append, run_cons, List.head?_append, ih, state_cons]
      simp [written]

theorem run_eq_written (t : Transducer σ β) (s : σ) (text : List Char) :
    t.run s text = t.written none s text ++ t.finish (t.state none s text) := by
  simpa using t.run_append s text []

end Transducer

theorem Delimiter.ofChar?_eq_some {c : Char} {d : Delimiter} :
    Delimiter.ofChar? c = some d ↔ c = d.char := by
  constructor
  · intro h
    unfold Delimiter.ofChar? at h
    split at h
    · cases h
      assumption
    · split at h
      · cases h
        assumption
      · split at h
        · cases h
          assumption
        · cases h
  · rintro rfl
    cases d <;> rfl

theorem Quote.feed_outside (c : Char) :
    Quote.outside.feed c = (Delimiter.ofChar? c).elim .outside .inside := by
  cases h : Delimiter.ofChar? c <;> simp [Quote.feed, Quote.step, h]

theorem Quote.feed_delimiter (d : Delimiter) : Quote.outside.feed d.char = .inside d := by
  cases d <;> rfl

theorem Quote.feed_inside_delimiter (d : Delimiter) :
    (Quote.inside d).feed d.char = .outside := by
  cases d <;> rfl

theorem Quote.feed_escape {d : Delimiter} (hd : d.escapes) :
    (Quote.inside d).feed '\\' = .escaped d := by
  simp [Quote.feed, Quote.step, hd]

theorem Quote.feed_inside {d : Delimiter} {c : Char} (hescape : ¬ (d.escapes && c == '\\'))
    (hclose : c ≠ d.char) : (Quote.inside d).feed c = .inside d := by
  simp only [Quote.feed, Quote.step, if_neg hescape, if_neg hclose]

theorem Quote.eq_outside_of_covers {quote : Quote} {c : Char} (h : quote.covers c = false) :
    quote = .outside := by
  cases quote with
  | outside => rfl
  | _ => cases h

def Quote.section? : Quote → Option Delimiter
  | outside => none
  | inside d | escaped d => some d

def hide (text : List Char) : List Cell := text.map fun c => ⟨c, true⟩

theorem shown_hide {x : Cell} {text : List Char} (h : x ∈ hide text) : shown x = ' ' := by
  obtain ⟨c, -, rfl⟩ := List.mem_map.1 h
  rfl

namespace Mask

@[simp] theorem reveal_append (first second : List Cell) :
    reveal (first ++ second) = reveal first ++ reveal second := List.map_append

@[simp] theorem reveal_hide (text : List Char) : reveal (hide text) = text := by
  simp [reveal, hide, Function.comp_def]

theorem reveal_run (mode : Mode) (text : List Char) : reveal (masker.run mode text) = text := by
  induction text generalizing mode with
  | nil => rfl
  | cons c text ih =>
      rw [Transducer.run_cons, reveal_append, ih]
      cases mode with
      | code quote =>
          simp only [masker, step]
          split <;> rfl
      | line =>
          simp only [masker, step]
          split <;> rfl

theorem reveal_cells (text : List Char) : reveal (cells text) = text := reveal_run _ text

theorem run_line_append (comment rest : List Char) (h : '\n' ∉ comment) :
    masker.run .line (comment ++ rest) = hide comment ++ masker.run .line rest := by
  induction comment with
  | nil => rfl
  | cons c comment ih =>
      obtain ⟨hc, hcomment⟩ : c ≠ '\n' ∧ '\n' ∉ comment := by grind
      rw [List.cons_append, Transducer.run_cons]
      simp only [masker, step, if_neg hc] at ih ⊢
      simp [hide, ih hcomment]

theorem run_line_eq (rest : List Char) (h : ∀ c ∈ rest.head?, c = '\n') :
    masker.run .line rest = masker.run (.code .outside) rest := by
  cases rest with
  | nil => rfl
  | cons c rest =>
      obtain rfl : c = '\n' := h c (by simp)
      simp only [Transducer.run_cons]
      rfl

theorem run_comment (comment rest : List Char) (hcomment : '\n' ∉ comment)
    (hrest : ∀ c ∈ rest.head?, c = '\n') :
    masker.run (.code .outside) ('-' :: '-' :: comment ++ rest) =
      hide ('-' :: '-' :: comment) ++ masker.run (.code .outside) rest := by
  have hfirst : masker.run (.code .outside) ('-' :: '-' :: comment ++ rest) =
      ⟨'-', true⟩ :: masker.run .line ('-' :: comment ++ rest) := by
    rw [List.cons_append, List.cons_append, Transducer.run_cons]
    rfl
  have hline := run_line_append ('-' :: comment) rest (by simp [hcomment])
  rw [hfirst, hline, run_line_eq rest hrest]
  rfl

theorem run_code (quote : Quote) (c : Char) (rest : List Char)
    (h : quote = .outside → c = '-' → rest.head? ≠ some '-') :
    masker.run (.code quote) (c :: rest) =
      ⟨c, quote.isQuoted && (quote.feed c).isQuoted⟩ ::
        masker.run (.code (quote.feed c)) rest := by
  have hcode : ¬ (quote = .outside ∧ c = '-' ∧ rest.head? = some '-') := by
    rintro ⟨hquote, hc, hrest⟩
    exact h hquote hc hrest
  rw [Transducer.run_cons]
  simp only [masker, step, if_neg hcode, List.cons_append, List.nil_append]

end Mask

namespace Comment

def veilAt (keeps : Nat → List Char → Bool) : Mode → Char → Option Char → List Cell
  | .code quote _, c, next =>
      if quote = .outside ∧ c = '/' ∧ next = some '*' then [⟨' ', false⟩]
      else if quote = .outside ∧ c = '-' ∧ next = some '-' then []
      else [⟨c, quote.isQuoted && (quote.feed c).isQuoted⟩]
  | .line depth text, c, _ =>
      if c = '\n' then hide (keptLine keeps depth text) ++ [⟨c, false⟩] else []
  | _, _, _ => []

def veil (keeps : Nat → List Char → Bool) : Transducer Mode Cell where
  step mode c next := ((step keeps mode c next).1, veilAt keeps mode c next)
  finish mode := hide (finish keeps mode)

@[simp] theorem stripper_step (keeps : Nat → List Char → Bool) :
    (stripper keeps).step = step keeps := rfl

@[simp] theorem stripper_finish (keeps : Nat → List Char → Bool) :
    (stripper keeps).finish = finish keeps := rfl

@[simp] theorem veil_step (keeps : Nat → List Char → Bool) (mode : Mode) (c : Char)
    (next : Option Char) :
    (veil keeps).step mode c next = ((step keeps mode c next).1, veilAt keeps mode c next) := rfl

@[simp] theorem veil_finish (keeps : Nat → List Char → Bool) (mode : Mode) :
    (veil keeps).finish mode = hide (finish keeps mode) := rfl

def Mode.quote : Mode → Quote
  | .code quote _ => quote
  | _ => .outside

def Mode.section? : Mode → Option Delimiter
  | .code (.inside d) _ | .code (.escaped d) _ => some d
  | _ => none

theorem Mode.section?_code (quote : Quote) (depth : Nat) :
    (Mode.code quote depth).section? = quote.section? := by
  cases quote <;> rfl

def Mode.depth : Mode → Nat
  | .code _ depth | .opening depth | .block depth | .closing depth | .line depth _ => depth

theorem stepCode_eq (quote : Quote) (depth : Nat) (c : Char) (next : Option Char) :
    stepCode quote depth c next =
      if quote = .outside ∧ c = '/' ∧ next = some '*' then (.opening depth, [' '])
      else if quote = .outside ∧ c = '-' ∧ next = some '-' then (.line depth [c], [])
      else (.code (quote.feed c) (if quote.covers c then depth else depthAfter depth c), [c]) := by
  cases quote with
  | outside =>
      simp only [stepCode, Quote.isQuoted, Bool.false_eq_true, if_false, true_and]
      split
      · rfl
      · split
        · rfl
        · split <;> rfl
  | inside d => simp [stepCode, Quote.isQuoted, Quote.covers]
  | escaped d => simp [stepCode, Quote.isQuoted, Quote.covers]

/-! ## Cells of code -/

def cellAt (quote : Quote) (c : Char) : Cell := ⟨c, quote.isQuoted && (quote.feed c).isQuoted⟩

def depthBehind (quote : Quote) (depth : Nat) (c : Char) : Nat :=
  if quote.covers c then depth else depthAfter depth c

theorem depthAfter_delimiter (depth : Nat) (d : Delimiter) : depthAfter depth d.char = depth := by
  cases d <;> rfl

theorem depthBehind_of_section? {quote : Quote} {d : Delimiter} (h : quote.section? = some d)
    (depth : Nat) (c : Char) : depthBehind quote depth c = depth := by
  cases quote with
  | outside => cases h
  | _ => rfl

theorem depthBehind_outside (depth : Nat) (c : Char) :
    depthBehind .outside depth c = depthAfter depth c := by
  rw [depthBehind, Quote.covers, Quote.feed_outside]
  cases hquote : Delimiter.ofChar? c with
  | none => rfl
  | some d => rw [Delimiter.ofChar?_eq_some.1 hquote, depthAfter_delimiter, ite_self]

def BeginsComment (c : Char) (next : Option Char) : Prop :=
  (c = '-' ∧ next = some '-') ∨ (c = '/' ∧ next = some '*')

theorem not_beginsComment_of_ne {c : Char} (hdash : c ≠ '-') (hslash : c ≠ '/')
    (next : Option Char) : ¬ BeginsComment c next := by
  rintro (⟨hc, -⟩ | ⟨hc, -⟩)
  · exact hdash hc
  · exact hslash hc

theorem cellAt_cases (quote : Quote) (c : Char) :
    (quote = .outside ∧ quote.feed c = .outside ∧ Delimiter.ofChar? c = none ∧
      cellAt quote c = ⟨c, false⟩) ∨
    (∃ d, quote = .outside ∧ quote.feed c = .inside d ∧ c = d.char ∧
      cellAt quote c = ⟨c, false⟩) ∨
    (∃ d, quote.section? = some d ∧ (quote.feed c).section? = some d ∧
      cellAt quote c = ⟨c, true⟩) ∨
    (∃ d, quote.section? = some d ∧ quote.feed c = .outside ∧ c = d.char ∧
      cellAt quote c = ⟨c, false⟩) := by
  cases quote with
  | outside =>
      rw [Quote.feed_outside]
      cases hquote : Delimiter.ofChar? c with
      | none => exact .inl ⟨rfl, rfl, rfl, rfl⟩
      | some d => exact .inr (.inl ⟨d, rfl, rfl, Delimiter.ofChar?_eq_some.1 hquote, rfl⟩)
  | inside d =>
      by_cases hescape : d.escapes && c == '\\'
      · have hfeed : (Quote.inside d).feed c = .escaped d := if_pos hescape
        exact .inr (.inr (.inl ⟨d, rfl, by rw [hfeed]; rfl, by rw [cellAt, hfeed]; rfl⟩))
      · by_cases hclose : c = d.char
        · have hfeed : (Quote.inside d).feed c = .outside := by
            rw [hclose, Quote.feed_inside_delimiter]
          exact .inr (.inr (.inr ⟨d, rfl, hfeed, hclose, by rw [cellAt, hfeed]; rfl⟩))
        · have hfeed : (Quote.inside d).feed c = .inside d := Quote.feed_inside hescape hclose
          exact .inr (.inr (.inl ⟨d, rfl, by rw [hfeed]; rfl, by rw [cellAt, hfeed]; rfl⟩))
  | escaped d => exact .inr (.inr (.inl ⟨d, rfl, rfl, rfl⟩))

theorem outside_of_visible {quote : Quote} {c : Char} (h : (cellAt quote c).hidden = false)
    (hc : Delimiter.ofChar? c = none) : quote = .outside := by
  rcases cellAt_cases quote c with
    ⟨hquote, -⟩ | ⟨d, hquote, -⟩ | ⟨d, -, -, hcell⟩ | ⟨d, -, -, rfl, -⟩
  · exact hquote
  · exact hquote
  · rw [hcell] at h
    cases h
  · rw [Delimiter.ofChar?_eq_some.2 rfl] at hc
    cases hc

theorem outside_of_shown {quote : Quote} {c d : Char} (h : shown (cellAt quote c) = d)
    (hd : Delimiter.ofChar? d = none) (hspace : d ≠ ' ') : quote = .outside ∧ c = d := by
  cases hhidden : (cellAt quote c).hidden with
  | true =>
      rw [show cellAt quote c = ⟨c, true⟩ from congrArg (Cell.mk c) hhidden] at h
      exact absurd h.symm hspace
  | false =>
      rw [show cellAt quote c = ⟨c, false⟩ from congrArg (Cell.mk c) hhidden] at h
      obtain rfl : c = d := h
      exact ⟨outside_of_visible hhidden hd, rfl⟩

/-! ## Steps -/

/-- All that the scan can do at `c` with `next` behind it: the mode turns into `after`, and `cells`
is what the rule for line comments leaves of `c` in the masked result. -/
inductive Step (next : Option Char) :
    Mode → Char → (after : Mode) → (cells : (Nat → List Char → Bool) → List Cell) → Prop
  | opens {depth : Nat} (hstar : next = some '*') :
      Step next (.code .outside depth) '/' (.opening depth) fun _ => [⟨' ', false⟩]
  | opened {depth : Nat} {c : Char} : Step next (.opening depth) c (.block depth) fun _ => []
  | within {depth : Nat} {c : Char} (hopen : ¬ (c = '*' ∧ next = some '/')) :
      Step next (.block depth) c (.block depth) fun _ => []
  | closes {depth : Nat} (hslash : next = some '/') :
      Step next (.block depth) '*' (.closing depth) fun _ => []
  | closed {depth : Nat} {c : Char} :
      Step next (.closing depth) c (.code .outside depth) fun _ => []
  | dashes {depth : Nat} (hdash : next = some '-') :
      Step next (.code .outside depth) '-' (.line depth ['-']) fun _ => []
  | line {depth : Nat} {comment : List Char} {c : Char} (hc : c ≠ '\n') :
      Step next (.line depth comment) c (.line depth (c :: comment)) fun _ => []
  | ends {depth : Nat} {comment : List Char} :
      Step next (.line depth comment) '\n' (.code .outside depth) fun keeps =>
        hide (keptLine keeps depth comment) ++ [⟨'\n', false⟩]
  | code {quote : Quote} {depth : Nat} {c : Char}
      (hplain : quote = .outside → ¬ BeginsComment c next) :
      Step next (.code quote depth) c (.code (quote.feed c) (depthBehind quote depth c)) fun _ =>
        [cellAt quote c]

theorem exists_step (mode : Mode) (c : Char) (next : Option Char) :
    ∃ after cells, Step next mode c after cells := by
  cases mode with
  | code quote depth =>
      by_cases hplain : quote = .outside → ¬ BeginsComment c next
      · exact ⟨_, _, .code hplain⟩
      · obtain ⟨rfl, hbegins⟩ := Classical.not_imp.1 hplain
        rcases Classical.not_not.1 hbegins with ⟨rfl, hdash⟩ | ⟨rfl, hstar⟩
        · exact ⟨_, _, .dashes hdash⟩
        · exact ⟨_, _, .opens hstar⟩
  | opening depth => exact ⟨_, _, .opened⟩
  | block depth =>
      by_cases hclose : c = '*' ∧ next = some '/'
      · obtain ⟨rfl, hslash⟩ := hclose
        exact ⟨_, _, .closes hslash⟩
      · exact ⟨_, _, .within hclose⟩
  | closing depth => exact ⟨_, _, .closed⟩
  | line depth comment =>
      by_cases hc : c = '\n'
      · subst hc
        exact ⟨_, _, .ends⟩
      · exact ⟨_, _, .line hc⟩

namespace Step

variable {next : Option Char} {mode after : Mode} {c : Char} {rest : List Char}
  {cells : (Nat → List Char → Bool) → List Cell}

theorem eq (h : Step next mode c after cells) (keeps : Nat → List Char → Bool) :
    step keeps mode c next = (after, Mask.reveal (cells keeps)) ∧
      veilAt keeps mode c next = cells keeps := by
  cases h with
  | @code quote depth c hplain =>
      have hblock : ¬ (quote = .outside ∧ c = '/' ∧ next = some '*') :=
        fun hstar => hplain hstar.1 (.inr hstar.2)
      have hline : ¬ (quote = .outside ∧ c = '-' ∧ next = some '-') :=
        fun hdash => hplain hdash.1 (.inl hdash.2)
      rw [step, stepCode_eq, veilAt, if_neg hblock, if_neg hblock, if_neg hline, if_neg hline]
      exact ⟨rfl, rfl⟩
  | opens hstar =>
      subst hstar
      exact ⟨rfl, rfl⟩
  | dashes hdash =>
      subst hdash
      exact ⟨rfl, rfl⟩
  | within hopen => exact ⟨if_neg hopen, rfl⟩
  | closes hslash => exact ⟨if_pos ⟨rfl, hslash⟩, rfl⟩
  | line hc => exact ⟨if_neg hc, if_neg hc⟩
  | ends =>
      rw [Mask.reveal_append, Mask.reveal_hide]
      exact ⟨rfl, rfl⟩
  | _ => exact ⟨rfl, rfl⟩

theorem run_stripper (h : Step rest.head? mode c after cells) (keeps : Nat → List Char → Bool) :
    (stripper keeps).run mode (c :: rest) =
      Mask.reveal (cells keeps) ++ (stripper keeps).run after rest := by
  rw [Transducer.run_cons, stripper_step, (h.eq keeps).1]

theorem run_veil (h : Step rest.head? mode c after cells) (keeps : Nat → List Char → Bool) :
    (veil keeps).run mode (c :: rest) = cells keeps ++ (veil keeps).run after rest := by
  rw [Transducer.run_cons, veil_step, (h.eq keeps).1, (h.eq keeps).2]

theorem state_stripper {last : Option Char} (h : Step (rest.head?.or last) mode c after cells)
    (keeps : Nat → List Char → Bool) :
    (stripper keeps).state last mode (c :: rest) = (stripper keeps).state last after rest := by
  rw [Transducer.state_cons, stripper_step, (h.eq keeps).1]

theorem written_veil {last : Option Char} (h : Step (rest.head?.or last) mode c after cells)
    (keeps : Nat → List Char → Bool) :
    (veil keeps).written last mode (c :: rest) =
      cells keeps ++ (veil keeps).written last after rest := by
  rw [Transducer.written, veil_step, (h.eq keeps).1, (h.eq keeps).2]

end Step

theorem veil_state (keeps : Nat → List Char → Bool) (next : Option Char) (mode : Mode)
    (text : List Char) :
    (veil keeps).state next mode text = (stripper keeps).state next mode text := by
  induction text generalizing mode with
  | nil => rfl
  | cons c text ih =>
      rw [Transducer.state_cons, Transducer.state_cons, ih]
      rfl

theorem reveal_veil (keeps : Nat → List Char → Bool) (mode : Mode) (text : List Char) :
    Mask.reveal ((veil keeps).run mode text) = (stripper keeps).run mode text := by
  induction text generalizing mode with
  | nil => simp
  | cons c rest ih =>
      obtain ⟨after, cells, hstep⟩ := exists_step mode c rest.head?
      rw [hstep.run_veil, hstep.run_stripper, Mask.reveal_append, ih]

structure IsLine (comment : List Char) : Prop where
  noBreak : '\n' ∉ comment
  dashes : ∃ rest, comment = '-' :: '-' :: rest

/-- A line comment under way starts with two dashes and has not met a line break. -/
def Mode.Begun (text : List Char) : Mode → Prop
  | .line _ comment => '\n' ∉ comment ∧ ∃ rest, comment.reverse ++ text = '-' :: '-' :: rest
  | _ => True

theorem Step.begun {mode after : Mode} {c : Char} {rest : List Char}
    {cells : (Nat → List Char → Bool) → List Cell} (hstep : Step rest.head? mode c after cells)
    (h : mode.Begun (c :: rest)) : after.Begun rest := by
  cases hstep with
  | dashes hdash =>
      obtain ⟨tail, rfl⟩ := List.head?_eq_some_iff.1 hdash
      exact ⟨by simp, tail, rfl⟩
  | line hc =>
      obtain ⟨hbreak, tail, htail⟩ := h
      exact ⟨by grind, tail, by simpa using htail⟩
  | _ => trivial

theorem Mode.Begun.isLine {depth : Nat} {comment text : List Char}
    (h : (Mode.line depth comment).Begun text) (htext : ∀ c ∈ text.head?, c = '\n') :
    IsLine comment.reverse where
  noBreak := by simpa using h.1
  dashes := by
    obtain ⟨-, tail, htail⟩ := h
    rcases hrev : comment.reverse with _ | ⟨x, _ | ⟨y, more⟩⟩
    · simp_all
    · simp_all
    · rw [hrev] at htail
      simp only [List.cons_append, List.cons.injEq] at htail
      exact ⟨more, by rw [htail.1, htail.2.1]⟩

theorem head?_keptLine_append (keeps : Nat → List Char → Bool) {depth : Nat}
    {comment rest : List Char} (hline : IsLine comment.reverse)
    (hrest : ∀ c ∈ rest.head?, c = '\n') :
    ∀ c ∈ (keptLine keeps depth comment ++ rest).head?, c = '-' ∨ c = '\n' := by
  intro c hc
  obtain ⟨tail, htail⟩ := hline.dashes
  unfold keptLine at hc
  split at hc
  · rw [htail] at hc
    exact .inl (Option.some.inj hc).symm
  · exact .inr (hrest c hc)

theorem head?_run_line (keeps : Nat → List Char → Bool) (depth : Nat) (comment text : List Char)
    (h : (Mode.line depth comment).Begun text) :
    ∀ c ∈ ((stripper keeps).run (.line depth comment) text).head?, c = '-' ∨ c = '\n' := by
  induction text generalizing comment with
  | nil =>
      rw [Transducer.run_nil, stripper_finish, finish, ← List.append_nil (keptLine _ _ _)]
      exact head?_keptLine_append keeps (h.isLine (by simp)) (by simp)
  | cons c text ih =>
      obtain ⟨after, cells, hstep⟩ := exists_step (.line depth comment) c text.head?
      rw [hstep.run_stripper]
      have hbegun := hstep.begun h
      cases hstep with
      | line hc => exact ih _ hbegun
      | ends =>
          rw [Mask.reveal_append, Mask.reveal_hide, List.append_assoc]
          exact head?_keptLine_append keeps (h.isLine (by simp)) (by simp [Mask.reveal])

theorem head?_run_code (keeps : Nat → List Char → Bool) (quote : Quote) (depth : Nat)
    (text : List Char) :
    ∀ d ∈ ((stripper keeps).run (.code quote depth) text).head?,
      text.head? = some d ∨ d = ' ' ∨ d = '\n' := by
  cases text with
  | nil => simp [finish]
  | cons c rest =>
      obtain ⟨after, cells, hstep⟩ := exists_step (.code quote depth) c rest.head?
      have hbegun := hstep.begun trivial
      intro d hd
      rw [hstep.run_stripper] at hd
      cases hstep with
      | opens => exact .inr (.inl (Option.some.inj hd).symm)
      | dashes =>
          rcases head?_run_line keeps _ _ rest hbegun d hd with rfl | hbreak
          · exact .inl rfl
          · exact .inr (.inr hbreak)
      | code => exact .inl hd

theorem not_beginsComment_run (keeps : Nat → List Char → Bool) {c : Char} {text : List Char}
    (h : ¬ BeginsComment c text.head?) (quote : Quote) (depth : Nat) :
    ¬ BeginsComment c ((stripper keeps).run (.code quote depth) text).head? := by
  have hhead := head?_run_code keeps quote depth text
  rintro (⟨hc, hdash⟩ | ⟨hc, hstar⟩)
  · rcases hhead '-' hdash with hnext | hblank | hbreak
    · exact h (.inl ⟨hc, hnext⟩)
    · exact absurd hblank (by decide)
    · exact absurd hbreak (by decide)
  · rcases hhead '*' hstar with hnext | hblank | hbreak
    · exact h (.inr ⟨hc, hnext⟩)
    · exact absurd hblank (by decide)
    · exact absurd hbreak (by decide)

/-! ## Masking the stripped script -/

private theorem run_keptLine (keeps : Nat → List Char → Bool) (depth : Nat)
    {comment rest : List Char} (hline : IsLine comment.reverse)
    (hrest : ∀ c ∈ rest.head?, c = '\n') :
    Mask.masker.run (.code .outside) (keptLine keeps depth comment ++ rest) =
      hide (keptLine keeps depth comment) ++ Mask.masker.run (.code .outside) rest := by
  unfold keptLine
  split
  · obtain ⟨tail, htail⟩ := hline.dashes
    have hbreak : '\n' ∉ tail := fun hmem => hline.noBreak (by simp [htail, hmem])
    rw [htail]
    exact Mask.run_comment tail rest hbreak hrest
  · rfl

/-- Masking the stripped script is one scan over the script. -/
theorem mask_run_strip (keeps : Nat → List Char → Bool) (mode : Mode) (text : List Char)
    (h : mode.Begun text) :
    Mask.masker.run (.code mode.quote) ((stripper keeps).run mode text) =
      (veil keeps).run mode text := by
  induction text generalizing mode with
  | nil =>
      cases mode with
      | line depth comment =>
          have hcomment : IsLine comment.reverse := h.isLine (by simp)
          have hnil : ∀ c ∈ ([] : List Char).head?, c = '\n' := by simp
          simpa [Mode.quote, finish, Mask.masker] using run_keptLine keeps depth hcomment hnil
      | _ => rfl
  | cons c rest ih =>
      obtain ⟨after, cells, hstep⟩ := exists_step mode c rest.head?
      have hrest := ih after (hstep.begun h)
      rw [hstep.run_stripper, hstep.run_veil, ← hrest]
      cases hstep with
      | opens => exact Mask.run_code _ _ _ (by simp)
      | code hplain =>
          -- The character is code, and no dash of later code moves up behind it.
          refine Mask.run_code _ _ _ fun hquote hc hdash => ?_
          exact not_beginsComment_run keeps (hplain hquote) _ _ (.inl ⟨hc, hdash⟩)
      | ends =>
          rw [Mask.reveal_append, Mask.reveal_hide, List.append_assoc, List.append_assoc]
          refine (run_keptLine keeps _ (h.isLine (by simp)) (by simp [Mask.reveal])).trans ?_
          exact congrArg _ (Mask.run_code _ _ _ (by simp))
      | _ => rfl

theorem cells_stripWith (keeps : Nat → List Char → Bool) (text : List Char) :
    Mask.cells (stripWith keeps text) = (veil keeps).run (.code .outside 0) text :=
  mask_run_strip keeps (.code .outside 0) text trivial

end Comment

end SchemaReader.Scan

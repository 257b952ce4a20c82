import SchemaReader.Proofs.Clause.Cut
import SchemaReader.Proofs.Scan.Annotation
import SchemaReader.Proofs.Scan.Paren
import SchemaReader.Proofs.Text.Pieces

/-!
# Closed texts

A text is closed when it ends outside quotes and its parentheses outside quotes
match.  The search for a closing parenthesis passes over a closed text, so a body
is closed.  Cutting it hands this down to the clauses, as long as the body holds no
backtick: the scan for commas takes a name between backticks for plain text.
-/

namespace SchemaReader.Clause

open SchemaReader.Scan SchemaReader.Text

/-- From the state `quote` on, with `depth` parentheses open, the text closes what is open: it never
closes more, and at its end nothing is open. -/
structure ClosedFrom (quote : Quote) (depth : Int) (text : List Char) : Prop where
  outside : quote.after text = .outside
  within : ∀ start, start <+: text → 0 ≤ depth + nesting (bareFrom Delimiter.ofChar? quote start)
  level : depth + nesting (bareFrom Delimiter.ofChar? quote text) = 0

def Closed (text : List Char) : Prop := ClosedFrom .outside 0 text

section Steps

variable {quote : Quote} {depth : Int} {c : Char} {text : List Char}

def rise (quote : Quote) (c : Char) : Int := nesting (bareFrom Delimiter.ofChar? quote [c])

theorem nesting_bareFrom_cons (quote : Quote) (c : Char) (text : List Char) :
    nesting (bareFrom Delimiter.ofChar? quote (c :: text)) =
      rise quote c + nesting (bareFrom Delimiter.ofChar? (quote.feed c) text) := by
  have happend := bareFrom_append Delimiter.ofChar? quote [c] text
  rw [List.singleton_append] at happend
  rw [happend, nesting_append]
  rfl

theorem closedFrom_nil : ClosedFrom quote depth [] ↔ quote = .outside ∧ depth = 0 := by
  constructor
  · rintro ⟨houtside, -, hlevel⟩
    exact ⟨houtside, by simpa [bareFrom] using hlevel⟩
  · rintro ⟨houtside, rfl⟩
    refine ⟨houtside, fun start hstart => ?_, rfl⟩
    rw [List.prefix_nil.1 hstart]
    exact Int.le_refl 0

theorem closedFrom_cons :
    ClosedFrom quote depth (c :: text) ↔
      0 ≤ depth ∧ ClosedFrom (quote.feed c) (depth + rise quote c) text := by
  constructor
  · rintro ⟨houtside, hwithin, hlevel⟩
    obtain ⟨hnil, hcons⟩ := forall_prefix_cons.1 hwithin
    refine ⟨by simpa [bareFrom] using hnil, houtside, fun start hstart => ?_, ?_⟩
    · have hstep := hcons start hstart
      rw [nesting_bareFrom_cons] at hstep
      omega
    · rw [nesting_bareFrom_cons] at hlevel
      omega
  · rintro ⟨hdepth, houtside, hwithin, hlevel⟩
    refine ⟨houtside, forall_prefix_cons.2 ⟨by simpa [bareFrom] using hdepth, ?_⟩, ?_⟩
    · intro start hstart
      have hstep := hwithin start hstart
      rw [nesting_bareFrom_cons]
      omega
    · rw [nesting_bareFrom_cons]
      omega

theorem ClosedFrom.nonneg (h : ClosedFrom quote depth text) : 0 ≤ depth := by
  simpa [bareFrom] using h.within [] List.nil_prefix

end Steps

theorem rise_of_covers {quote : Quote} {c : Char} (h : quote.covers c) : rise quote c = 0 := by
  have hcovered : (quote.isQuoted || (quote.step Delimiter.ofChar? c).isQuoted) = true := h
  rw [rise, bareFrom, if_pos hcovered]
  rfl

theorem rise_of_not_covers {quote : Quote} {c : Char} (h : ¬ quote.covers c) :
    rise quote c = nesting [c] :=
  congrArg nesting (if_neg h)

section Search

variable {quote : Quote} {opened : Nat} {c : Char}

theorem closingFrom_cons_of_open {next : Nat} (hnext : 1 ≤ next)
    (hdepth : (next : Int) = opened + rise quote c) (index : Nat) (rest : List Char) :
    closingFrom quote opened index (c :: rest) =
      closingFrom (quote.feed c) next (index + 1) rest := by
  simp only [closingFrom, shown_char]
  by_cases hcovers : quote.covers c
  · rw [rise_of_covers hcovers] at hdepth
    obtain rfl : next = opened := by omega
    rw [if_pos hcovers]
  · rw [if_neg hcovers]
    rw [rise_of_not_covers hcovers] at hdepth
    by_cases hopen : c = '('
    · rw [hopen, nesting_open, nesting_nil] at hdepth
      obtain rfl : next = opened + 1 := by omega
      rw [if_pos hopen]
    · rw [if_neg hopen]
      by_cases hclose : c = ')'
      · rw [hclose, nesting_close, nesting_nil] at hdepth
        obtain rfl : next = opened - 1 := by omega
        rw [if_pos hclose, if_neg (by omega)]
      · rw [nesting_plain hopen hclose, nesting_nil] at hdepth
        obtain rfl : next = opened := by omega
        rw [if_neg hclose]

theorem of_rise_neg (h : rise quote c < 0) : quote = .outside ∧ c = ')' ∧ rise quote c = -1 := by
  by_cases hcovers : quote.covers c
  · rw [rise_of_covers hcovers] at h
    omega
  · have houtside := Quote.eq_outside_of_covers ((Bool.not_eq_true _).mp hcovers)
    rw [rise_of_not_covers hcovers] at h ⊢
    by_cases hopen : c = '('
    · rw [hopen, nesting_open, nesting_nil] at h
      omega
    · by_cases hclose : c = ')'
      · rw [hclose, nesting_close, nesting_nil]
        exact ⟨houtside, rfl, rfl⟩
      · rw [nesting_plain hopen hclose, nesting_nil] at h
        omega

end Search

theorem closedFrom_of_closingFrom {quote : Quote} {opened index : Nat} {text : List Char}
    {close : Nat} (hopened : 1 ≤ opened) (h : closingFrom quote opened index text = some close) :
    ∃ body after, text = body ++ ')' :: after ∧ close = index + body.length ∧
      ClosedFrom quote (opened - 1) body := by
  induction text generalizing quote opened index with
  | nil => cases h
  | cons c rest ih =>
      by_cases hstay : 1 ≤ (opened : Int) + rise quote c
      · obtain ⟨next, hnext⟩ : ∃ next : Nat, (next : Int) = opened + rise quote c :=
          ⟨(opened + rise quote c).toNat, by omega⟩
        have hmore : 1 ≤ next := by omega
        rw [closingFrom_cons_of_open hmore hnext] at h
        obtain ⟨body, after, rfl, rfl, hbody⟩ := ih hmore h
        refine ⟨c :: body, after, rfl, by simp; omega, closedFrom_cons.2 ⟨by omega, ?_⟩⟩
        rwa [show (opened : Int) - 1 + rise quote c = next - 1 by omega]
      · -- The last parenthesis that is open is closed here.
        have hneg : rise quote c < 0 := by omega
        obtain ⟨rfl, rfl, hrise⟩ := of_rise_neg hneg
        obtain rfl : opened = 1 := by omega
        rw [closingFrom_close rfl, if_pos rfl] at h
        cases h
        exact ⟨[], rest, rfl, rfl, closedFrom_nil.2 ⟨rfl, rfl⟩⟩

theorem closed_of_closing? {text : List Char} {close : Nat}
    (h : closing? ('(' :: text) = some close) :
    ∃ body after, text = body ++ ')' :: after ∧ close = body.length + 1 ∧ Closed body := by
  have hopen : ('(' :: text).head?.map shown = some '(' := rfl
  rw [closing?, if_pos hopen, closingFrom_open rfl] at h
  obtain ⟨body, after, htext, hclose, hbody⟩ := closedFrom_of_closingFrom (Nat.le_refl 1) h
  exact ⟨body, after, htext, by omega, hbody⟩

theorem feed_eq_outside_iff {quote : Quote} {c : Char} (h : isLevel c) :
    quote.feed c = .outside ↔ quote = .outside := by
  have hquote : ∀ d : Delimiter, c ≠ d.char := by
    rintro d rfl
    cases d <;> cases h
  cases quote with
  | outside =>
      have hopens : Delimiter.ofChar? c = none :=
        Option.eq_none_iff_forall_ne_some.2 fun d hd => hquote d (Delimiter.ofChar?_eq_some.1 hd)
      simp [Quote.feed_outside, hopens]
  | inside d =>
      by_cases hescape : d.escapes && c == '\\'
      · rw [show (Quote.inside d).feed c = .escaped d from if_pos hescape]
        simp
      · rw [Quote.feed_inside hescape (hquote d)]
  | escaped d => simp [Quote.feed, Quote.step]

theorem rise_of_isLevel (quote : Quote) {c : Char} (h : isLevel c) : rise quote c = 0 := by
  by_cases hcovers : quote.covers c
  · exact rise_of_covers hcovers
  · simp only [isLevel, Bool.and_eq_true, bne_iff_ne] at h
    rw [rise_of_not_covers hcovers, nesting_plain h.1.2 h.2]
    rfl

theorem ClosedFrom.of_blanks {quote : Quote} {depth : Int} {blanks : List Char}
    (h : ClosedFrom quote depth blanks) (hblank : ∀ c ∈ blanks, isBlank c) :
    ClosedFrom quote depth [] := by
  induction blanks generalizing quote depth with
  | nil => exact h
  | cons c blanks ih =>
      have hc := isLevel_of_isBlank (hblank c (by simp))
      obtain ⟨houtside, hdepth⟩ :=
        closedFrom_nil.1 (ih (closedFrom_cons.1 h).2 fun x hx => hblank x (by simp [hx]))
      rw [feed_eq_outside_iff hc] at houtside
      rw [rise_of_isLevel quote hc, Int.add_zero] at hdepth
      exact closedFrom_nil.2 ⟨houtside, hdepth⟩

theorem ClosedFrom.of_append_blanks {quote : Quote} {depth : Int} {text blanks : List Char}
    (h : ClosedFrom quote depth (text ++ blanks)) (hblank : ∀ c ∈ blanks, isBlank c) :
    ClosedFrom quote depth text := by
  induction text generalizing quote depth with
  | nil => exact h.of_blanks hblank
  | cons c text ih =>
      obtain ⟨hdepth, hrest⟩ := closedFrom_cons.1 h
      exact closedFrom_cons.2 ⟨hdepth, ih hrest⟩

theorem Closed.of_blanks_append {blanks text : List Char} (h : Closed (blanks ++ text))
    (hblank : ∀ c ∈ blanks, isBlank c) : Closed text := by
  induction blanks with
  | nil => exact h
  | cons c blanks ih =>
      have hc := isLevel_of_isBlank (hblank c (by simp))
      have hrest := (closedFrom_cons.1 h).2
      rw [rise_of_isLevel .outside hc, (feed_eq_outside_iff hc).2 rfl] at hrest
      exact ih hrest fun x hx => hblank x (by simp [hx])

theorem Closed.trim {text : List Char} (h : Closed text) : Closed (trim text) := by
  obtain ⟨lead, trail, htext, hlead, htrail⟩ := exists_trim text
  rw [htext, List.append_assoc] at h
  exact ClosedFrom.of_append_blanks (h.of_blanks_append hlead) htrail

theorem step_of_ne_backtick (p : Position) {c : Char} (h : c ≠ '`') :
    p.step c = ⟨p.quote.feed c, p.depth + rise p.quote c⟩ := by
  have hopens : Delimiter.ofLiteral? c = Delimiter.ofChar? c := by
    simp [Delimiter.ofLiteral?, Delimiter.ofChar?, h]
  obtain ⟨quote, depth⟩ := p
  rw [step_eq]
  cases quote with
  | outside => simp [Quote.feed, Quote.step, rise, bareFrom, hopens]
  | _ => rfl

theorem closedFrom_step {p : Position} {c : Char} {text : List Char} (h : c ≠ '`') :
    ClosedFrom p.quote p.depth (c :: text) ↔
      0 ≤ p.depth ∧ ClosedFrom (p.step c).quote (p.step c).depth text := by
  rw [closedFrom_cons, step_of_ne_backtick p h]

/-- Behind the piece the scan is at `p`: what closes all that is open there completes the piece to a
closed text. -/
def LeadsTo (p : Position) (piece : List Char) : Prop :=
  ∀ more, ClosedFrom p.quote p.depth more → Closed (piece ++ more)

theorem LeadsTo.closed {p : Position} {piece : List Char} (h : LeadsTo p piece)
    (hend : ClosedFrom p.quote p.depth []) : Closed piece := by
  simpa using h [] hend

theorem LeadsTo.step {p : Position} {piece : List Char} (h : LeadsTo p piece) {c : Char}
    (hc : c ≠ '`') (hdepth : 0 ≤ p.depth) : LeadsTo (p.step c) (piece ++ [c]) := by
  intro more hmore
  simpa using h (c :: more) ((closedFrom_step hc).2 ⟨hdepth, hmore⟩)

theorem closed_of_mem_flush {out : List (List Char)} {piece : List Char}
    (hout : ∀ clause ∈ out, Closed clause) (hpiece : Closed piece.reverse) :
    ∀ clause ∈ flush out piece, Closed clause := by
  intro clause hclause
  simp only [flush] at hclause
  split at hclause
  · exact hout clause hclause
  · rcases List.mem_cons.1 hclause with rfl | hclause
    · exact hpiece.trim
    · exact hout clause hclause

theorem closed_of_mem_splitFrom {p : Position} {out : List (List Char)} {piece rest : List Char}
    (hplain : '`' ∉ rest) (hrest : ClosedFrom p.quote p.depth rest)
    (hpiece : LeadsTo p piece.reverse) (hout : ∀ clause ∈ out, Closed clause) :
    ∀ clause ∈ splitFrom p out piece rest, Closed clause := by
  induction rest generalizing p out piece with
  | nil =>
      intro clause hclause
      exact closed_of_mem_flush hout (hpiece.closed hrest) clause (List.mem_reverse.1 hclause)
  | cons c rest ih =>
      obtain ⟨hc, hlater⟩ : c ≠ '`' ∧ '`' ∉ rest := by grind
      obtain ⟨hdepth, hnext⟩ := (closedFrom_step hc).1 hrest
      rw [splitFrom]
      split
      · rename_i hcut
        obtain ⟨rfl, rfl⟩ := of_separates hcut
        exact ih hlater hnext (fun _ hmore => hmore)
          (closed_of_mem_flush hout (hpiece.closed (closedFrom_nil.2 ⟨rfl, rfl⟩)))
      · refine ih hlater hnext ?_ hout
        rw [List.reverse_cons]
        exact hpiece.step hc hdepth

/-- The clauses of a closed body without backticks are closed. -/
theorem Closed.of_mem_split {body : List Char} (h : Closed body) (hplain : '`' ∉ body) :
    ∀ clause ∈ split body, Closed clause :=
  closed_of_mem_splitFrom hplain h (fun _ hmore => hmore) (by simp)

end SchemaReader.Clause

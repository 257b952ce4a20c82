import SchemaReader.Proofs.Clause.Closed

/-!
# Which parenthesis matches

The search for a closing parenthesis counts depths on its way.  What it finds can be
read off the text: it is the parenthesis behind a closed text.  So it is the first
one outside quotes at which as many parentheses are closed as were opened, nothing
behind it or before the start matters, and a pair that begins inside another one
ends there.
-/

namespace SchemaReader.Clause

open SchemaReader.Scan SchemaReader.Text

theorem ClosedFrom.closingFrom_eq {quote : Quote} {opened : Nat} {body : List Char}
    (h : ClosedFrom quote (opened - 1) body) (index : Nat) (after : List Char) :
    closingFrom quote opened index (body ++ ')' :: after) = some (index + body.length) := by
  induction body generalizing quote opened index with
  | nil =>
      obtain ⟨rfl, hdepth⟩ := closedFrom_nil.1 h
      rw [List.nil_append, closingFrom_close rfl, if_pos (by omega)]
      rfl
  | cons c body ih =>
      obtain ⟨hdepth, hrest⟩ := closedFrom_cons.1 h
      have hinner := hrest.nonneg
      obtain ⟨next, hnext⟩ : ∃ next : Nat, (next : Int) = opened + rise quote c :=
        ⟨(opened + rise quote c).toNat, by omega⟩
      rw [show (opened : Int) - 1 + rise quote c = next - 1 by omega] at hrest
      rw [List.cons_append, closingFrom_cons_of_open (by omega) hnext, ih hrest]
      simp only [List.length_cons]
      congr 1
      omega

theorem closing?_eq_some_iff {text : List Char} {close : Nat} :
    closing? ('(' :: text) = some close ↔
      ∃ body after, text = body ++ ')' :: after ∧ close = body.length + 1 ∧ Closed body := by
  constructor
  · exact closed_of_closing?
  · rintro ⟨body, after, rfl, rfl, hbody⟩
    have hopen : ('(' :: (body ++ ')' :: after)).head?.map shown = some '(' := rfl
    have hone : ClosedFrom .outside ((1 : Nat) - 1) body := hbody
    rw [closing?, if_pos hopen, closingFrom_open rfl, hone.closingFrom_eq, Nat.add_comm]

theorem ClosedFrom.of_append {quote : Quote} {depth : Int} {first second : List Char}
    (h : ClosedFrom quote depth (first ++ second)) :
    ∃ behind, 0 ≤ behind ∧ ClosedFrom (quote.after first) behind second := by
  induction first generalizing quote depth with
  | nil => exact ⟨depth, h.nonneg, h⟩
  | cons c first ih => exact ih (closedFrom_cons.1 h).2

theorem ClosedFrom.exists_body {quote : Quote} {depth more : Int} {text : List Char}
    (h : ClosedFrom quote (depth + more) text) (hdepth : 0 ≤ depth) (hmore : 0 < more) :
    ∃ body after, text = body ++ ')' :: after ∧ ClosedFrom quote depth body := by
  induction text generalizing quote depth with
  | nil =>
      have hnone := (closedFrom_nil.1 h).2
      omega
  | cons c text ih =>
      have hrest := (closedFrom_cons.1 h).2
      by_cases hstay : 0 ≤ depth + rise quote c
      · rw [Int.add_right_comm] at hrest
        obtain ⟨body, after, rfl, hbody⟩ := ih hrest hstay
        exact ⟨c :: body, after, rfl, closedFrom_cons.2 ⟨hdepth, hbody⟩⟩
      · -- Nothing is open any more, so this is the parenthesis.
        have hneg : rise quote c < 0 := by omega
        obtain ⟨rfl, rfl, hrise⟩ := of_rise_neg hneg
        exact ⟨[], text, rfl, closedFrom_nil.2 ⟨rfl, by omega⟩⟩

theorem Closed.closing?_inside {before text : List Char} (h : Closed (before ++ '(' :: text))
    (hquote : Quote.outside.after before = .outside) (rest : List Char) :
    ∃ close, closing? ('(' :: text ++ rest) = some close ∧ 0 < close ∧ close ≤ text.length := by
  obtain ⟨depth, hdepth, hbehind⟩ := ClosedFrom.of_append h
  rw [hquote] at hbehind
  have hinner : ClosedFrom .outside (0 + (depth + 1)) text := by
    rw [Int.zero_add]
    exact (closedFrom_cons.1 hbehind).2
  obtain ⟨body, after, rfl, hbody⟩ := hinner.exists_body (Int.le_refl 0) (by omega)
  have htext : '(' :: (body ++ ')' :: after) ++ rest = '(' :: (body ++ ')' :: (after ++ rest)) := by
    simp
  have hclose := closing?_eq_some_iff.2 ⟨body, after ++ rest, rfl, rfl, hbody⟩
  refine ⟨body.length + 1, htext ▸ hclose, by omega, ?_⟩
  simp only [List.length_append, List.length_cons]
  omega

end SchemaReader.Clause

namespace SchemaReader.Scan

open SchemaReader.Clause

/-- How many parentheses outside quotes are opened and not closed between two places, for a scan
that begins at the first. -/
def depthBetween (text : List Char) (start stop : Nat) : Int :=
  nesting (bare Delimiter.ofChar? ((text.take stop).drop start))

/-- The character at `stop` is the parenthesis outside quotes that closes what is opened at `start`:
something is open all the way, and nothing is open behind it. -/
structure Closes (text : List Char) (start stop : Nat) : Prop where
  start_le : start ≤ stop
  paren : text[stop]? = some ')'
  unquoted : (Quote.outside.after ((text.take stop).drop start)).covers ')' = false
  within : ∀ place, start ≤ place → place < stop → 1 ≤ depthBetween text start (place + 1)
  level : depthBetween text start (stop + 1) = 0

theorem eq_append_of_getElem? {text : List Char} {place : Nat} {c : Char}
    (h : text[place]? = some c) : text = text.take place ++ c :: text.drop (place + 1) := by
  obtain ⟨hlt, rfl⟩ := List.getElem?_eq_some_iff.1 h
  rw [List.getElem_cons_drop, List.take_append_drop]

section Between

variable {text rest : List Char} {start : Nat}

theorem slice_of_drop (h : text.drop start = '(' :: rest) (length : Nat) :
    (text.take (start + (length + 1))).drop start = '(' :: rest.take length := by
  rw [List.drop_take, Nat.add_sub_cancel_left, h, List.take_succ_cons]

theorem depthBetween_of_drop (h : text.drop start = '(' :: rest) (length : Nat) :
    depthBetween text start (start + (length + 1)) =
      1 + nesting (bare Delimiter.ofChar? (rest.take length)) := by
  rw [depthBetween, slice_of_drop h]
  exact nesting_bareFrom_cons .outside '(' _

theorem getElem?_of_drop (h : text.drop start = '(' :: rest) (length : Nat) :
    text[start + (length + 1)]? = rest[length]? := by
  rw [← List.getElem?_drop, h, List.getElem?_cons_succ]

theorem nesting_bare_close {body : List Char} (h : Quote.outside.after body = .outside) :
    nesting (bare Delimiter.ofChar? (body ++ [')'])) =
      nesting (bare Delimiter.ofChar? body) - 1 := by
  have houtside : quoteAfter Delimiter.ofChar? body = .outside := h
  rw [nesting_bare_concat, houtside]
  rfl

theorem closes_iff (h : text.drop start = '(' :: rest) {stop : Nat} :
    Closes text start stop ↔
      ∃ body after, rest = body ++ ')' :: after ∧ stop = start + (body.length + 1) ∧
        Closed body := by
  constructor
  · rintro ⟨hle, hparen, hunquoted, hwithin, hlevel⟩
    obtain ⟨length, rfl⟩ : ∃ length, stop = start + (length + 1) := by
      have hne : stop ≠ start := by
        rintro rfl
        rw [← List.head?_drop, h] at hparen
        cases hparen
      exact ⟨stop - start - 1, by omega⟩
    rw [getElem?_of_drop h] at hparen
    have hlength := (List.getElem?_eq_some_iff.1 hparen).1
    have hbody : (rest.take length).length = length := List.length_take_of_le hlength.le
    have houtside : Quote.outside.after (rest.take length) = .outside := by
      rw [slice_of_drop h] at hunquoted
      exact Quote.eq_outside_of_covers hunquoted
    refine ⟨rest.take length, rest.drop (length + 1), eq_append_of_getElem? hparen,
      by rw [hbody], houtside, ?_, ?_⟩
    · intro before hbefore
      have hshort : before.length ≤ length := hbody ▸ hbefore.length_le
      have hdepth := hwithin (start + before.length) (by omega) (by omega)
      rw [Nat.add_assoc, depthBetween_of_drop h,
        ← List.prefix_iff_eq_take.1 (hbefore.trans (List.take_prefix _ _))] at hdepth
      rw [← bare]
      omega
    · have htake : rest.take (length + 1) = rest.take length ++ [')'] := by
        rw [List.take_add_one, hparen]
        rfl
      rw [Nat.add_assoc, depthBetween_of_drop h, htake, nesting_bare_close houtside] at hlevel
      rw [← bare]
      omega
  · rintro ⟨body, after, rfl, rfl, houtside, hwithin, hlevel⟩
    refine ⟨by omega, ?_, ?_, ?_, ?_⟩
    · rw [getElem?_of_drop h]
      simp
    · rw [slice_of_drop h, List.take_left]
      exact congrArg (Quote.covers · ')') houtside
    · intro place hle hlt
      obtain ⟨length, rfl⟩ := Nat.exists_eq_add_of_le hle
      have hdepth := hwithin (body.take length) (List.take_prefix _ _)
      rw [← bare] at hdepth
      rw [Nat.add_assoc, depthBetween_of_drop h, List.take_append_of_le_length (by omega)]
      omega
    · have htake : (body ++ ')' :: after).take (body.length + 1) = body ++ [')'] := by
        rw [List.take_length_add_append]
        rfl
      rw [← bare] at hlevel
      rw [Nat.add_assoc, depthBetween_of_drop h, htake, nesting_bare_close houtside]
      omega

theorem matchingParen?_eq_some_iff (h : text.drop start = '(' :: rest) {stop : Nat} :
    matchingParen? text start = some stop ↔ Closes text start stop := by
  rw [matchingParen?_natCast, h, closes_iff h, Option.map_eq_some_iff]
  constructor
  · rintro ⟨close, hclose, rfl⟩
    obtain ⟨body, after, hrest, rfl, hbody⟩ := closing?_eq_some_iff.1 hclose
    exact ⟨body, after, hrest, rfl, hbody⟩
  · rintro ⟨body, after, hrest, rfl, hbody⟩
    exact ⟨body.length + 1, closing?_eq_some_iff.2 ⟨body, after, hrest, rfl, hbody⟩, rfl⟩

theorem matchingParen?_append {stop : Nat} (h : matchingParen? text start = some stop)
    (before after : List Char) :
    matchingParen? (before ++ (text.take (stop + 1)).drop start ++ after) before.length =
      some (before.length + (stop - start)) := by
  rw [matchingParen?_natCast] at h
  obtain ⟨close, hclose, rfl⟩ := Option.map_eq_some_iff.1 h
  obtain ⟨x, inner, y, htake, -, -, -, hlocal⟩ := exists_of_closing? hclose
  have hslice : (text.take (start + close + 1)).drop start = x :: inner ++ [y] := by
    rw [List.drop_take, ← htake]
    congr 1
    omega
  rw [matchingParen?_natCast, List.append_assoc, List.drop_left, hslice,
    closing?_append hlocal after, Option.map_some, Nat.add_sub_cancel_left]

theorem Closes.exists_inside {stop inner : Nat} (h : text.drop start = '(' :: rest)
    (hcloses : Closes text start stop) (hlow : start < inner) (hhigh : inner < stop)
    (hparen : text[inner]? = some '(')
    (hunquoted : (Quote.outside.after ((text.take inner).drop start)).covers '(' = false) :
    ∃ close, matchingParen? text inner = some close ∧ inner < close ∧ close < stop := by
  obtain ⟨body, after, rfl, rfl, hbody⟩ := (closes_iff h).1 hcloses
  obtain ⟨length, rfl⟩ : ∃ length, inner = start + (length + 1) :=
    ⟨inner - start - 1, by omega⟩
  have hshort : length < body.length := by omega
  rw [getElem?_of_drop h, List.getElem?_append_left hshort] at hparen
  have hsplit := eq_append_of_getElem? hparen
  have hquote : Quote.outside.after (body.take length) = .outside := by
    rw [slice_of_drop h, List.take_append_of_le_length hshort.le] at hunquoted
    exact Quote.eq_outside_of_covers hunquoted
  have hdrop : text.drop (start + (length + 1)) =
      '(' :: body.drop (length + 1) ++ ')' :: after := by
    rw [← List.drop_drop, h, List.drop_succ_cons, List.drop_append_of_le_length hshort.le,
      List.drop_eq_getElem_cons hshort, (List.getElem?_eq_some_iff.1 hparen).2]
  rw [hsplit] at hbody
  obtain ⟨close, hclose, hpositive, hle⟩ := hbody.closing?_inside hquote (')' :: after)
  rw [List.length_drop] at hle
  refine ⟨start + (length + 1) + close, ?_, by omega, by omega⟩
  rw [matchingParen?_natCast, hdrop, hclose, Option.map_some]

end Between

/-- The parenthesis that is found is the one that closes what is opened at the start, and if none is
found, there is none.  What stands before the start or behind the parenthesis is of no account, and
a parenthesis that is opened in between outside quotes is closed in between. -/
theorem matchingParen?_closes (text : List Char) (start : Nat) (hstart : text[start]? = some '(') :
    (∀ stop, matchingParen? text start = some stop ↔ Closes text start stop) ∧
    (matchingParen? text start = none ↔ ∀ stop, ¬ Closes text start stop) ∧
    (∀ stop, matchingParen? text start = some stop → ∀ before after : List Char,
      matchingParen? (before ++ (text.take (stop + 1)).drop start ++ after) before.length =
        some (before.length + (stop - start))) ∧
    (∀ before : List Char, matchingParen? text start = none →
      matchingParen? (before ++ text.drop start) before.length = none) ∧
    (∀ stop, matchingParen? text start = some stop → ∀ inner, start < inner → inner < stop →
      text[inner]? = some '(' →
      (Quote.outside.after ((text.take inner).drop start)).covers '(' = false →
      ∃ close, matchingParen? text inner = some close ∧ inner < close ∧ close < stop) := by
  obtain ⟨rest, hrest⟩ : ∃ rest, text.drop start = '(' :: rest := by
    rw [← List.head?_drop] at hstart
    exact List.head?_eq_some_iff.1 hstart
  have hfound : ∀ stop, matchingParen? text start = some stop ↔ Closes text start stop :=
    fun stop => matchingParen?_eq_some_iff hrest
  refine ⟨hfound, ?_, fun stop => matchingParen?_append, ?_, ?_⟩
  · simp only [Option.eq_none_iff_forall_ne_some, ne_eq, hfound]
  · intro before hnone
    rw [matchingParen?_natCast, Option.map_eq_none_iff] at hnone
    rw [matchingParen?_natCast, List.drop_left, hnone, Option.map_none]
  · intro stop hstop inner hlow hhigh hparen hunquoted
    exact ((hfound stop).1 hstop).exists_inside hrest hlow hhigh hparen hunquoted

/-- Parentheses in quotes do not count, neither does one behind an escaped quote, and a quote that
is open before the start is of no account. -/
theorem matchingParen?_closes_quoted_parens :
    "')(a '(\\')' \"`)\" (b`)`)) ;".toList[2]? = some '(' ∧
      matchingParen? "')(a '(\\')' \"`)\" (b`)`)) ;".toList 2 = some 23 ∧
      Closes "')(a '(\\')' \"`)\" (b`)`)) ;".toList 2 23 ∧
      (∀ before after : List Char,
        matchingParen? (before ++ "(a '(\\')' \"`)\" (b`)`))".toList ++ after) before.length =
          some (before.length + 21)) ∧
      ∃ close, matchingParen? "')(a '(\\')' \"`)\" (b`)`)) ;".toList 17 = some close ∧
        17 < close ∧ close < 23 := by
  have hstart : "')(a '(\\')' \"`)\" (b`)`)) ;".toList[2]? = some '(' := by decide
  have hstop : matchingParen? "')(a '(\\')' \"`)\" (b`)`)) ;".toList 2 = some 23 := by decide
  obtain ⟨hfound, -, hshift, -, hinside⟩ := matchingParen?_closes _ 2 hstart
  exact ⟨hstart, hstop, (hfound 23).1 hstop, hshift 23 hstop,
    hinside 23 hstop 17 (by decide) (by decide) (by decide) (by decide)⟩

end SchemaReader.Scan

import Mathlib.Order.Bounds.Basic
import SchemaReader.Proofs.Scan.Veil
import SchemaReader.Scan.Quote

/-!
# Where a literal ends

The reader of literals looks one character ahead: a doubled delimiter stands for
itself, and any other ends the literal.  The scan of quotes closes the section at
either of the two and opens it again at the second.  Still both come to the same
place, the first one where quotes are closed and the delimiter does not follow,
so a position found by one can be read by the other.
-/

namespace SchemaReader.Scan

theorem Delimiter.ofLiteral?_eq_some {c : Char} {d : Delimiter}
    (h : Delimiter.ofLiteral? c = some d) : c = d.char ∧ d.escapes := by
  unfold Delimiter.ofLiteral? at h
  split at h
  · cases h
    exact ⟨‹_›, rfl⟩
  · split at h
    · cases h
      exact ⟨‹_›, rfl⟩
    · cases h

namespace Literal

theorem readBody_plain {quote c : Char} (hslash : c ≠ '\\') (hquote : c ≠ quote)
    (content : List Char) (index : Nat) (rest : List Char) :
    readBody quote content index (c :: rest) = readBody quote (c :: content) (index + 1) rest := by
  cases rest with
  | nil => simp [readBody, hquote]
  | cons d rest => rw [readBody, if_neg hslash, if_neg hquote]

theorem readBody_closed {quote : Char} (hslash : quote ≠ '\\') (content : List Char) (index : Nat)
    {rest : List Char} (hrest : rest.head? ≠ some quote) :
    readBody quote content index (quote :: rest) = some (content.reverse, index + 1) := by
  cases rest with
  | nil => simp [readBody]
  | cons d rest =>
      have hd : d ≠ quote := by simpa using hrest
      simp [readBody, hslash, hd]

theorem readBody_doubled {quote : Char} (hslash : quote ≠ '\\') (content : List Char) (index : Nat)
    (rest : List Char) :
    readBody quote content index (quote :: quote :: rest) =
      readBody quote (quote :: content) (index + 2) rest := by
  simp [readBody, hslash]

theorem readBody_escaped (quote : Char) (content : List Char) (index : Nat) (c : Char)
    (rest : List Char) :
    readBody quote content index ('\\' :: c :: rest) =
      readBody quote (unescape c :: content) (index + 2) rest := by
  rw [readBody, if_pos rfl]

/-- Behind `stop` characters, from the state `quote` on, quotes are closed and the delimiter does
not follow. -/
structure Stops (d : Delimiter) (quote : Quote) (text : List Char) (stop : Nat) : Prop where
  le_length : stop ≤ text.length
  closed : (quote.after (text.take stop)).isQuoted = false
  next : text[stop]? ≠ some d.char

def stops (d : Delimiter) (quote : Quote) (text : List Char) : Set Nat :=
  {stop | Stops d quote text stop}

section Stops

variable {d : Delimiter} {quote : Quote} {c : Char} {text : List Char} {stop : Nat}

theorem stops_cons : Stops d quote (c :: text) (stop + 1) ↔ Stops d (quote.feed c) text stop := by
  constructor
  · rintro ⟨hlength, hclosed, hnext⟩
    exact ⟨Nat.le_of_succ_le_succ hlength, hclosed, hnext⟩
  · rintro ⟨hlength, hclosed, hnext⟩
    exact ⟨Nat.succ_le_succ hlength, hclosed, hnext⟩

theorem not_stops_zero_of_isQuoted (h : quote.isQuoted) : ¬ Stops d quote text 0 := by
  rintro ⟨-, hclosed, -⟩
  rw [List.take_zero] at hclosed
  exact absurd (h.symm.trans hclosed) (by decide)

theorem not_stops_zero_of_head? (h : text.head? = some d.char) : ¬ Stops d quote text 0 := by
  rintro ⟨-, -, hnext⟩
  exact hnext (List.head?_eq_getElem? ▸ h)

theorem isLeast_stops_cons (hzero : ¬ Stops d quote (c :: text) 0) :
    IsLeast (stops d quote (c :: text)) (stop + 1) ↔
      IsLeast (stops d (quote.feed c) text) stop := by
  constructor
  · rintro ⟨hstop, hleast⟩
    refine ⟨stops_cons.1 hstop, fun other hother => ?_⟩
    exact Nat.le_of_succ_le_succ (hleast (stops_cons.2 hother))
  · rintro ⟨hstop, hleast⟩
    refine ⟨stops_cons.2 hstop, fun other hother => ?_⟩
    cases other with
    | zero => exact absurd hother hzero
    | succ other => exact Nat.succ_le_succ (hleast (stops_cons.1 hother))

end Stops

def FindsStop (d : Delimiter) (quote : Quote) (text : List Char) (index : Nat) :
    Option (List Char × Nat) → Prop
  | some (_, ending) => ∃ stop, ending = index + stop ∧ IsLeast (stops d quote text) stop
  | none => ∀ stop, ¬ Stops d quote text stop

theorem FindsStop.cons {d : Delimiter} {quote : Quote} {c : Char} {text : List Char} {index : Nat}
    {found : Option (List Char × Nat)} (h : FindsStop d (quote.feed c) text (index + 1) found)
    (hzero : ¬ Stops d quote (c :: text) 0) : FindsStop d quote (c :: text) index found := by
  cases found with
  | none =>
      rintro (_ | stop) hstop
      · exact hzero hstop
      · exact h stop (stops_cons.1 hstop)
  | some found =>
      obtain ⟨stop, hending, hleast⟩ := h
      exact ⟨stop + 1, by omega, (isLeast_stops_cons hzero).2 hleast⟩

theorem FindsStop.cons_inside {d : Delimiter} {c : Char} {text : List Char} {index : Nat}
    {found : Option (List Char × Nat)}
    (h : FindsStop d ((Quote.inside d).feed c) text (index + 1) found) :
    FindsStop d (.inside d) (c :: text) index found :=
  h.cons (not_stops_zero_of_isQuoted rfl)

theorem findsStop_nil {d : Delimiter} {quote : Quote} (h : quote.isQuoted) (index : Nat) :
    FindsStop d quote [] index none := by
  rintro (_ | stop) hstop
  · exact not_stops_zero_of_isQuoted h hstop
  · exact absurd hstop.le_length (by simp)

theorem findsStop_readBody {d : Delimiter} (hd : d.escapes) (content : List Char) (index : Nat)
    (text : List Char) :
    FindsStop d (.inside d) text index (readBody d.char content index text) := by
  have hslash : d.char ≠ '\\' := by cases d <;> decide
  -- A doubled delimiter and an escape take two characters at once, so the induction is on lengths.
  induction hlength : text.length using Nat.strongRecOn generalizing text content index with
  | ind length ih =>
      rcases text with _ | ⟨c, rest⟩
      · exact findsStop_nil rfl index
      · by_cases hescape : c = '\\'
        · subst hescape
          rcases rest with _ | ⟨e, rest⟩
          · have hopen : readBody d.char content index ['\\'] = none := by
              simp [readBody, hslash.symm]
            rw [hopen]
            refine FindsStop.cons_inside ?_
            rw [Quote.feed_escape hd]
            exact findsStop_nil rfl _
          · have hshorter : rest.length < length := by
              simp only [← hlength, List.length_cons]
              omega
            rw [readBody_escaped]
            refine FindsStop.cons_inside ?_
            rw [Quote.feed_escape hd]
            exact (ih _ hshorter _ _ _ rfl).cons (not_stops_zero_of_isQuoted rfl)
        · by_cases hquote : c = d.char
          · subst hquote
            by_cases hnext : rest.head? = some d.char
            · obtain ⟨rest, rfl⟩ := List.head?_eq_some_iff.1 hnext
              have hshorter : rest.length < length := by
                simp only [← hlength, List.length_cons]
                omega
              rw [readBody_doubled hslash]
              refine FindsStop.cons_inside ?_
              rw [Quote.feed_inside_delimiter]
              refine FindsStop.cons ?_ (not_stops_zero_of_head? rfl)
              rw [Quote.feed_delimiter]
              exact ih _ hshorter _ _ _ rfl
            · rw [readBody_closed hslash _ _ hnext]
              refine FindsStop.cons_inside
                ⟨0, rfl, ⟨Nat.zero_le _, ?_, ?_⟩, fun _ _ => Nat.zero_le _⟩
              · rw [Quote.feed_inside_delimiter]
                rfl
              · rwa [← List.head?_eq_getElem?]
          · rw [readBody_plain hescape hquote]
            refine FindsStop.cons_inside ?_
            rw [Quote.feed_inside (by simp [hescape]) hquote]
            exact ih _ (by simp [← hlength]) _ _ _ rfl

/-- From `start` up to `stop` quotes are opened and closed, and the character at `start` does not
stand at `stop`, which may be the end of the text. -/
structure ClosesAt (text : List Char) (start stop : Nat) : Prop where
  start_lt : start < stop
  le_length : stop ≤ text.length
  closed : (Quote.outside.after ((text.take stop).drop start)).isQuoted = false
  next : text[stop]? ≠ text[start]?

def closings (text : List Char) (start : Nat) : Set Nat := {stop | ClosesAt text start stop}

section Closings

variable {d : Delimiter} {text : List Char} {start : Nat}

theorem closesAt_add_iff (hstart : text[start]? = some d.char) (stop : Nat) :
    ClosesAt text start (start + stop) ↔ Stops d .outside (text.drop start) stop := by
  have hslice : (text.take (start + stop)).drop start = (text.drop start).take stop := by
    rw [List.drop_take, Nat.add_sub_cancel_left]
  have hnext : (text.drop start)[stop]? = text[start + stop]? := List.getElem?_drop
  have hlt : start < text.length := (List.getElem?_eq_some_iff.1 hstart).1
  constructor
  · rintro ⟨-, hlength, hclosed, hother⟩
    refine ⟨by rw [List.length_drop]; omega, hslice ▸ hclosed, ?_⟩
    rwa [hnext, ← hstart]
  · rintro ⟨hlength, hclosed, hother⟩
    rw [List.length_drop] at hlength
    rw [hnext, ← hstart] at hother
    refine ⟨?_, by omega, hslice ▸ hclosed, hother⟩
    rcases Nat.eq_zero_or_pos stop with rfl | hpos
    · exact absurd rfl hother
    · omega

theorem isLeast_closings_add_iff (hstart : text[start]? = some d.char) (stop : Nat) :
    IsLeast (closings text start) (start + stop) ↔
      IsLeast (stops d .outside (text.drop start)) stop := by
  constructor
  · rintro ⟨hstop, hleast⟩
    refine ⟨(closesAt_add_iff hstart stop).1 hstop, fun other hother => ?_⟩
    exact Nat.le_of_add_le_add_left (hleast ((closesAt_add_iff hstart other).2 hother))
  · rintro ⟨hstop, hleast⟩
    refine ⟨(closesAt_add_iff hstart stop).2 hstop, fun other hother => ?_⟩
    obtain ⟨more, rfl⟩ := Nat.exists_eq_add_of_le (Nat.le_of_lt hother.start_lt)
    exact Nat.add_le_add_left (hleast ((closesAt_add_iff hstart more).1 hother)) start

/-- Up to the first place where a literal may end, quotes cover every character: where they are
closed in between, the delimiter opens them again. -/
theorem covers_of_isLeast_closings (hstart : text[start]? = some d.char) {stop : Nat}
    (hleast : IsLeast (closings text start) stop) {before after : List Char} {c : Char}
    (hslice : (text.take stop).drop start = before ++ c :: after) :
    (Quote.outside.after before).covers c := by
  have hdrop : (text.drop start).take (stop - start) = before ++ c :: after := by
    rw [← List.drop_take, hslice]
  have hlength := congrArg List.length hdrop
  simp only [List.length_take, List.length_drop, List.length_append, List.length_cons] at hlength
  have hbefore : (text.drop start).take before.length = before := by
    have htake := congrArg (List.take before.length) hdrop
    rw [List.take_take, List.take_left] at htake
    rwa [Nat.min_eq_left (by omega)] at htake
  have hc : (text.drop start)[before.length]? = some c := by
    have hget := congrArg (·[before.length]?) hdrop
    simpa [List.getElem?_take_of_lt (show before.length < stop - start by omega)] using hget
  cases hquote : (Quote.outside.after before).isQuoted with
  | true => simp [Quote.covers, hquote]
  | false =>
      have hdelimiter : c = d.char := by
        by_contra hne
        have hearlier : ClosesAt text start (start + before.length) := by
          rw [closesAt_add_iff hstart]
          refine ⟨by rw [List.length_drop]; omega, by rw [hbefore, hquote], ?_⟩
          simpa [hc] using hne
        have := hleast.2 hearlier
        omega
      have hstate : Quote.outside.after before = .outside := by
        cases hafter : Quote.outside.after before with
        | outside => rfl
        | _ => simp [hafter, Quote.isQuoted] at hquote
      rw [hstate, hdelimiter, Quote.covers, Quote.feed_delimiter]
      rfl

theorem readAt_cases (hd : d.escapes) (hstart : text[start]? = some d.char) :
    (∃ (content : List Char) (stop : Nat),
      readAt text start = .ok (some (content, stop)) ∧ IsLeast (closings text start) stop) ∨
    (readAt text start = .ok none ∧ ∀ stop, ¬ ClosesAt text start stop) := by
  obtain ⟨rest, hrest⟩ : ∃ rest, text.drop start = d.char :: rest := by
    rw [← List.head?_drop] at hstart
    exact List.head?_eq_some_iff.1 hstart
  have hliteral : (Delimiter.ofLiteral? d.char).isSome := by
    cases d with
    | backtick => cases hd
    | _ => rfl
  have hread : readAt text start =
      .ok ((readBody d.char [] 1 rest).map fun found => (found.1, start + found.2)) := by
    rw [readAt, if_pos (Int.natCast_nonneg start), Int.toNat_natCast, hrest, read?, if_pos hliteral]
  have hfinds : FindsStop d .outside (text.drop start) 0 (readBody d.char [] 1 rest) := by
    rw [hrest]
    refine FindsStop.cons ?_ (not_stops_zero_of_head? rfl)
    rw [Quote.feed_delimiter]
    exact findsStop_readBody hd [] 1 rest
  rw [hread]
  cases hfound : readBody d.char [] 1 rest with
  | none =>
      rw [hfound] at hfinds
      refine .inr ⟨rfl, fun stop hstop => ?_⟩
      obtain ⟨more, rfl⟩ := Nat.exists_eq_add_of_le (Nat.le_of_lt hstop.start_lt)
      exact hfinds more ((closesAt_add_iff hstart more).1 hstop)
  | some found =>
      rw [hfound] at hfinds
      obtain ⟨stop, hending, hleast⟩ := hfinds
      refine .inl ⟨found.1, start + stop, ?_, (isLeast_closings_add_iff hstart stop).2 hleast⟩
      rw [Option.map_some, hending, Nat.zero_add, Int.natCast_add]

end Closings

/-- A literal is read up to the first place behind its start where quotes are closed and its
delimiter does not follow; quotes cover all of it.  If there is no such place, none is read. -/
theorem readAt_ends_at_closing (text : List Char) (start : Nat) (quote : Char)
    (hquote : quote = '\'' ∨ quote = '"') (hstart : text[start]? = some quote) :
    (∀ stop : Nat, (∃ content, readAt text start = .ok (some (content, (stop : Int)))) ↔
      IsLeast (closings text start) stop) ∧
    (∀ stop, IsLeast (closings text start) stop →
      ∀ before c after, (text.take stop).drop start = before ++ c :: after →
        (Quote.outside.after before).covers c) ∧
    (readAt text start = .ok none ↔ ∀ stop, ¬ ClosesAt text start stop) := by
  obtain ⟨d, hd, rfl⟩ : ∃ d : Delimiter, d.escapes ∧ d.char = quote := by
    rcases hquote with rfl | rfl
    · exact ⟨.single, rfl, rfl⟩
    · exact ⟨.double, rfl, rfl⟩
  have hcovers : ∀ stop, IsLeast (closings text start) stop →
      ∀ before c after, (text.take stop).drop start = before ++ c :: after →
        (Quote.outside.after before).covers c :=
    fun stop hleast before c after => covers_of_isLeast_closings hstart hleast
  rcases readAt_cases hd hstart with ⟨content, last, hread, hleast⟩ | ⟨hread, hnone⟩
  · refine ⟨fun stop => ⟨?_, fun hstop => ?_⟩, hcovers, ?_⟩
    · rintro ⟨other, hother⟩
      rw [hread] at hother
      cases hother
      exact hleast
    · rw [hread, hleast.unique hstop]
      exact ⟨content, rfl⟩
    · rw [hread]
      exact ⟨fun h => (by cases h), fun hnone => absurd hleast.1 (hnone last)⟩
  · refine ⟨fun stop => ⟨?_, fun hstop => absurd hstop.1 (hnone stop)⟩, hcovers, ?_⟩
    · rintro ⟨other, hother⟩
      rw [hread] at hother
      cases hother
    · exact ⟨fun _ => hnone, fun _ => hread⟩

theorem readAt_ends_at_closing_doubled_and_escaped :
    ('\'' = '\'' ∨ '\'' = '"') ∧ "x'a''b\\'c'y".toList[1]? = some '\'' ∧
      IsLeast (closings "x'a''b\\'c'y".toList 1) 10 ∧
      readAt "x'a''b\\'c'y".toList (1 : Nat) = .ok (some ("a'b'c".toList, 10)) :=
  have h := readAt_ends_at_closing "x'a''b\\'c'y".toList 1 '\'' (.inl rfl) rfl
  ⟨.inl rfl, rfl, (h.1 10).1 ⟨"a'b'c".toList, by decide⟩, by decide⟩

end Literal

end SchemaReader.Scan

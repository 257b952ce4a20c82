import SchemaReader.Proofs.Reading.Locality

/-!
# The rounds of the search for definitions

The search is restated over offsets in the masked script.  Each round starts at
the first head of a definition at or after some offset, and says where the next
round searches.  `segments` is the outcome of a finite run of such rounds, and
every head in the script is either the start of a round or lies inside a text
that a round has consumed.
-/

namespace SchemaReader.Reading

open SchemaReader.Scan SchemaReader.Text

def beforeAt (cells : List Cell) (offset : Nat) : Option Char :=
  (cells.take offset).getLast?.map shown

def placeAt (cells : List Cell) (offset : Nat) : Place :=
  ⟨beforeAt cells offset, cells.drop offset⟩

def headIn? (cells : List Cell) (offset : Nat) : Option TableHead :=
  headAt? (beforeAt cells offset) (cells.drop offset)

def MatchesAt (cells : List Cell) (offset : Nat) : Prop :=
  (headIn? cells offset).isSome

theorem beforeAt_succ {cells rest : List Cell} {x : Cell} {offset : Nat}
    (h : cells.drop offset = x :: rest) : beforeAt cells (offset + 1) = some (shown x) := by
  have hx : cells[offset]? = some x := by
    rw [← List.head?_drop, h]
    rfl
  rw [beforeAt, List.take_add_one, hx]
  simp

theorem drop_succ_of_drop {cells rest : List Cell} {x : Cell} {offset : Nat}
    (h : cells.drop offset = x :: rest) : cells.drop (offset + 1) = rest := by
  rw [← List.drop_drop, h]
  rfl

theorem tableHead?_nil : tableHead? [] = none := rfl

theorem not_matchesAt_of_le {cells : List Cell} {offset : Nat} (h : cells.length ≤ offset) :
    ¬ MatchesAt cells offset := by
  rw [MatchesAt, headIn?, headAt?, List.drop_eq_nil_of_le h, tableHead?_nil]
  simp

theorem body_of_headIn? {cells : List Cell} {start : Nat} {head : TableHead}
    (h : headIn? cells start = some head) :
    ∃ opening, start < opening ∧ opening < cells.length ∧ head.body = cells.drop opening := by
  have htable : tableHead? (cells.drop start) = some head := tableHead?_of_headAt? h
  obtain ⟨before, hbefore⟩ := tableHead?_suffix htable
  have hopen := headShown_of_tableHead? htable
  have hlength := congrArg List.length hbefore
  simp only [List.length_append, List.length_drop] at hlength
  refine ⟨start + before.length, ?_, ?_, ?_⟩
  · rcases before with _ | ⟨x, before⟩
    · obtain ⟨c, hc, hmeets⟩ := meets_of_tableHead? htable
      rw [← hbefore, List.nil_append, hopen] at hc
      cases hc
      exact absurd hmeets (by decide)
    · simp
  · have := List.length_pos_iff.2 (body_ne_nil_of_tableHead? htable)
    omega
  · rw [← List.drop_drop, ← hbefore, List.drop_left]

def StopsAt (cells : List Cell) (offset : Nat) : Prop :=
  (cells[offset]?).map shown = some ';' ∨ MatchesAt cells offset

/-- The table options from `start` on end at `stop`: at the first semicolon, at the first head of
a definition or at the end of the script. -/
structure OptionsEnd (cells : List Cell) (start stop : Nat) : Prop where
  start_le : start ≤ stop
  le_length : stop ≤ cells.length
  first : ∀ offset, start ≤ offset → offset < stop → ¬ StopsAt cells offset
  stops : stop < cells.length → StopsAt cells stop

def slice (cells : List Cell) (start stop : Nat) : List Char :=
  Mask.reveal ((cells.take stop).drop start)

theorem optionsFrom_eq {cells text : List Cell} {start : Nat} (htext : cells.drop start = text)
    (hstart : start ≤ cells.length) (out : List Cell) :
    ∃ stop, OptionsEnd cells start stop ∧
      optionsFrom (beforeAt cells start) out text =
        (out.reverse ++ (cells.take stop).drop start, placeAt cells stop) := by
  induction text generalizing start out with
  | nil =>
      have hlength : cells.length ≤ start := List.drop_eq_nil_iff.1 htext
      refine ⟨start, ⟨Nat.le_refl _, hstart, ?_, ?_⟩, ?_⟩
      · intro offset hle hlt
        omega
      · intro hlt
        omega
      · simp [optionsFrom, placeAt, htext]
  | cons x rest ih =>
      have hx : cells[start]? = some x := by
        rw [← List.head?_drop, htext]
        rfl
      have hlt : start < cells.length := (List.getElem?_eq_some_iff.1 hx).1
      have hstops : StopsAt cells start ↔
          (shown x = ';' || (headAt? (beforeAt cells start) (x :: rest)).isSome) = true := by
        rw [StopsAt, MatchesAt, headIn?, hx, htext]
        simp
      by_cases hstop : StopsAt cells start
      · refine ⟨start, ⟨Nat.le_refl _, hstart, fun offset hle hlt => by omega, fun _ => hstop⟩, ?_⟩
        rw [optionsFrom, if_pos (hstops.1 hstop)]
        simp [placeAt, htext]
      · obtain ⟨stop, hend, heq⟩ :=
          ih (drop_succ_of_drop htext) (by omega) (x :: out)
        refine ⟨stop, ⟨?_, hend.le_length, ?_, hend.stops⟩, ?_⟩
        · have := hend.start_le
          omega
        · intro offset hle hoffset
          rcases Nat.eq_or_lt_of_le hle with rfl | hlt
          · exact hstop
          · exact hend.first offset hlt hoffset
        · have htake : (cells.take stop).drop start = x :: (cells.take stop).drop (start + 1) := by
            have := hend.start_le
            rw [List.drop_take, List.drop_take, htext, drop_succ_of_drop htext,
              show stop - start = stop - (start + 1) + 1 by omega]
            rfl
          rw [optionsFrom, if_neg (fun h => hstop (hstops.2 h)), ← beforeAt_succ htext, heq, htake]
          simp

/-- One round of the search: where the head of its definition starts, where its parenthesis opens
and closes, where the next round searches, and what it found. -/
structure Visit where
  start : Nat
  opening : Nat
  close : Option Nat
  next : Nat
  segment : Segment

def Visit.Reads (cells : List Cell) (name : List Cell) (visit : Visit) : Prop :=
  match visit.close with
  | none =>
      visit.next = visit.opening + 1 ∧ visit.segment = .unclosed (Mask.reveal name)
  | some close =>
      OptionsEnd cells (close + 1) visit.next ∧
        visit.segment = .table (Mask.reveal name) (slice cells (visit.opening + 1) close)
          (slice cells (close + 1) visit.next)

structure Round (cells : List Cell) (pos : Nat) (visit : Visit) : Prop where
  pos_le : pos ≤ visit.start
  first : ∀ offset, pos ≤ offset → offset < visit.start → ¬ MatchesAt cells offset
  start_lt : visit.start < visit.opening
  opening_lt : visit.opening < cells.length
  close_eq : visit.close = matchingParen? (cells.map shown) visit.opening
  reads : ∃ name, headIn? cells visit.start = some ⟨name, cells.drop visit.opening⟩ ∧
    visit.Reads cells name

theorem Round.headShown_opening {cells : List Cell} {pos : Nat} {visit : Visit}
    (h : Round cells pos visit) : headShown (cells.drop visit.opening) = some '(' := by
  obtain ⟨name, hhead, -⟩ := h.reads
  exact headShown_of_tableHead? (tableHead?_of_headAt? hhead)

theorem Round.close_eq_closing? {cells : List Cell} {pos : Nat} {visit : Visit}
    (h : Round cells pos visit) :
    visit.close = (closing? (cells.drop visit.opening)).map (visit.opening + ·) := by
  rw [h.close_eq, matchingParen?_natCast, ← List.map_drop, closing?_map_shown]

/-- A complete run of the search: it ends where no head is left. -/
inductive Rounds (cells : List Cell) : Nat → List Visit → Prop
  | done {pos : Nat} (h : ∀ offset, pos ≤ offset → ¬ MatchesAt cells offset) :
      Rounds cells pos []
  | round {pos : Nat} {visit : Visit} {visits : List Visit} (h : Round cells pos visit)
      (hrest : Rounds cells visit.next visits) : Rounds cells pos (visit :: visits)

theorem nextSegment?_eq_none {cells text : List Cell} {pos : Nat} (htext : cells.drop pos = text)
    (h : nextSegment? (beforeAt cells pos) text = none) (offset : Nat) (hle : pos ≤ offset) :
    ¬ MatchesAt cells offset := by
  induction text generalizing pos with
  | nil => exact not_matchesAt_of_le (Nat.le_trans (List.drop_eq_nil_iff.1 htext) hle)
  | cons x rest ih =>
      cases hhead : headAt? (beforeAt cells pos) (x :: rest) with
      | some head => simp [nextSegment?, hhead] at h
      | none =>
          rcases Nat.eq_or_lt_of_le hle with rfl | hlt
          · simp [MatchesAt, headIn?, htext, hhead]
          · refine ih (drop_succ_of_drop htext) ?_ hlt
            simpa [nextSegment?, hhead, beforeAt_succ htext] using h

theorem nextSegment?_eq_some {cells text : List Cell} {pos : Nat} {found : Segment × Place}
    (htext : cells.drop pos = text)
    (h : nextSegment? (beforeAt cells pos) text = some found) :
    ∃ start head, pos ≤ start ∧ headIn? cells start = some head ∧ segmentOf head = found ∧
      ∀ offset, pos ≤ offset → offset < start → ¬ MatchesAt cells offset := by
  induction text generalizing pos with
  | nil => simp [nextSegment?] at h
  | cons x rest ih =>
      cases hhead : headAt? (beforeAt cells pos) (x :: rest) with
      | some head =>
          refine ⟨pos, head, Nat.le_refl _, ?_, ?_, fun offset hle hlt => by omega⟩
          · rw [headIn?, htext, hhead]
          · simpa [nextSegment?, hhead] using h
      | none =>
          have hnext : nextSegment? (beforeAt cells (pos + 1)) rest = some found := by
            simpa [nextSegment?, hhead, beforeAt_succ htext] using h
          obtain ⟨start, head, hle, hstart, hfound, hfirst⟩ :=
            ih (drop_succ_of_drop htext) hnext
          refine ⟨start, head, by omega, hstart, hfound, ?_⟩
          intro offset hoffset hlt
          rcases Nat.eq_or_lt_of_le hoffset with rfl | hgt
          · simp [MatchesAt, headIn?, htext, hhead]
          · exact hfirst offset hgt hlt

theorem optionsFrom_drop_eq {cells body : List Cell} {opening close : Nat}
    (hbody : body = cells.drop opening) (hclose : closing? body = some close) :
    ∃ stop, OptionsEnd cells (opening + close + 1) stop ∧
      optionsFrom (some ')') [] (body.drop (close + 1)) =
        ((cells.take stop).drop (opening + close + 1), placeAt cells stop) := by
  obtain ⟨before, x, after, hsplit, rfl, hx⟩ := closing?_eq_some hclose
  have hdrop : cells.drop (opening + before.length) = x :: after := by
    rw [← List.drop_drop, ← hbody, hsplit, List.drop_left]
  have hafter : cells.drop (opening + before.length + 1) = after := drop_succ_of_drop hdrop
  have hlength : opening + before.length + 1 ≤ cells.length := by
    have := congrArg List.length hdrop
    simp only [List.length_drop, List.length_cons] at this
    omega
  have htail : body.drop (before.length + 1) = after := by
    rw [hbody, List.drop_drop, ← hafter]
    rfl
  obtain ⟨stop, hend, hoptions⟩ := optionsFrom_eq hafter hlength []
  rw [beforeAt_succ hdrop, hx] at hoptions
  exact ⟨stop, hend, by rw [htail, hoptions, List.reverse_nil, List.nil_append]⟩

theorem segmentOf_eq {cells : List Cell} {start : Nat} {head : TableHead}
    (h : headIn? cells start = some head) :
    ∃ visit : Visit, visit.start = start ∧ visit.start < visit.opening ∧
      visit.opening < cells.length ∧ visit.next ≤ cells.length ∧
      head.body = cells.drop visit.opening ∧
      visit.close = matchingParen? (cells.map shown) visit.opening ∧
      visit.Reads cells head.name ∧
      segmentOf head = (visit.segment, placeAt cells visit.next) := by
  obtain ⟨opening, hstart, hopening, hbody⟩ := body_of_headIn? h
  have hclose : matchingParen? (cells.map shown) opening =
      (closing? head.body).map (opening + ·) := by
    rw [matchingParen?_natCast, ← List.map_drop, closing?_map_shown, hbody]
  cases hfound : closing? head.body with
  | none =>
      refine ⟨⟨start, opening, none, opening + 1, .unclosed (Mask.reveal head.name)⟩, rfl,
        hstart, hopening, hopening, hbody, by rw [hclose, hfound]; rfl, ⟨rfl, rfl⟩, ?_⟩
      have hshown := headShown_of_tableHead? (tableHead?_of_headAt? h)
      obtain ⟨x, rest, hx⟩ := List.exists_cons_of_length_pos (l := cells.drop opening) (by
        rw [List.length_drop]
        omega)
      have hbefore : beforeAt cells (opening + 1) = some '(' := by
        rw [beforeAt_succ hx]
        rw [hbody, hx] at hshown
        exact hshown
      simp only [segmentOf, hfound]
      rw [placeAt, hbefore, hbody, List.drop_drop]
  | some close =>
      obtain ⟨stop, hend, hoptions⟩ := optionsFrom_drop_eq hbody hfound
      refine ⟨⟨start, opening, some (opening + close), stop,
        .table (Mask.reveal head.name) (slice cells (opening + 1) (opening + close))
          (slice cells (opening + close + 1) stop)⟩, rfl, hstart, hopening, hend.le_length, hbody,
        by rw [hclose, hfound]; rfl, ⟨hend, rfl⟩, ?_⟩
      have htaken : (head.body.take close).drop 1 =
          (cells.take (opening + close)).drop (opening + 1) := by
        rw [hbody, List.drop_take, List.drop_take, List.drop_drop,
          show opening + close - (opening + 1) = close - 1 by omega]
      simp only [segmentOf, hfound, hoptions, htaken]
      rfl

theorem segmentsFrom_eq (cells : List Cell) (out : List Segment) (place : Place) (pos : Nat)
    (hplace : place = placeAt cells pos) (hpos : pos ≤ cells.length) :
    ∃ visits, Rounds cells pos visits ∧
      segmentsFrom out place = out.reverse ++ visits.map (·.segment) := by
  fun_induction segmentsFrom out place generalizing pos with
  | case1 out place hnone =>
      subst hplace
      exact ⟨[], .done (nextSegment?_eq_none rfl hnone), by simp⟩
  | case2 out place segment next hsome _ ih =>
      subst hplace
      obtain ⟨start, head, hle, hhead, hfound, hfirst⟩ := nextSegment?_eq_some rfl hsome
      obtain ⟨visit, rfl, hopening, hlt, hnext, hbody, hclose, hreads, heq⟩ := segmentOf_eq hhead
      rw [hfound] at heq
      cases heq
      obtain ⟨visits, hrounds, hsegments⟩ := ih _ rfl hnext
      refine ⟨visit :: visits, .round ⟨hle, hfirst, hopening, hlt, hclose, head.name, ?_, hreads⟩
        hrounds, ?_⟩
      · rw [hhead, ← hbody]
      · simp [hsegments]

theorem Round.opening_lt_next {cells : List Cell} {pos : Nat} {visit : Visit}
    (h : Round cells pos visit) : visit.opening < visit.next := by
  obtain ⟨name, -, hreads⟩ := h.reads
  have hclose := h.close_eq
  unfold Visit.Reads at hreads
  split at hreads
  · omega
  · rename_i close hsome
    have hopening : visit.opening ≤ close := by
      rw [hsome, matchingParen?_natCast] at hclose
      obtain ⟨shift, -, rfl⟩ := Option.map_eq_some_iff.1 hclose.symm
      omega
    have := hreads.1.start_le
    omega

theorem Rounds.pos_le_start {cells : List Cell} {pos : Nat} {visits : List Visit}
    (h : Rounds cells pos visits) : ∀ visit ∈ visits, pos ≤ visit.start := by
  induction h with
  | done => simp
  | @round pos visit visits h hrest ih =>
      intro later hlater
      rcases List.mem_cons.1 hlater with rfl | hlater
      · exact h.pos_le
      · have := ih later hlater
        have := h.pos_le
        have := h.start_lt
        have := h.opening_lt_next
        omega

theorem Rounds.pairwise_next_le {cells : List Cell} {pos : Nat} {visits : List Visit}
    (h : Rounds cells pos visits) :
    visits.Pairwise fun visit later => visit.next ≤ later.start := by
  induction h with
  | done => exact .nil
  | round h hrest ih => exact .cons hrest.pos_le_start ih

theorem Rounds.exists_round {cells : List Cell} {pos : Nat} {visits : List Visit}
    (h : Rounds cells pos visits) : ∀ visit ∈ visits, ∃ pos, Round cells pos visit := by
  induction h with
  | done => simp
  | @round pos visit visits h hrest ih =>
      intro later hlater
      rcases List.mem_cons.1 hlater with rfl | hlater
      · exact ⟨pos, h⟩
      · exact ih later hlater

/-- A head at or after the place of the search is met by a round or consumed by one. -/
theorem Rounds.covers {cells : List Cell} {pos offset : Nat} {visits : List Visit}
    (h : Rounds cells pos visits) (hle : pos ≤ offset) (hmatch : MatchesAt cells offset) :
    ∃ visit ∈ visits, offset = visit.start ∨
      (∃ close, visit.close = some close ∧ visit.start < offset ∧ offset ≤ close) ∨
      (visit.close = none ∧ visit.start < offset ∧ offset < visit.opening + 1) := by
  induction h with
  | done hdone => exact absurd hmatch (hdone offset hle)
  | @round pos visit visits h hrest ih =>
      by_cases hbefore : offset < visit.start
      · exact absurd hmatch (h.first offset hle hbefore)
      · by_cases hafter : visit.next ≤ offset
        · obtain ⟨later, hlater, hcase⟩ := ih hafter
          exact ⟨later, List.mem_cons_of_mem _ hlater, hcase⟩
        · refine ⟨visit, List.mem_cons_self, ?_⟩
          rcases Nat.eq_or_lt_of_le (Nat.le_of_not_lt hbefore) with hstart | hstart
          · exact .inl hstart.symm
          · obtain ⟨name, -, hreads⟩ := h.reads
            unfold Visit.Reads at hreads
            split at hreads
            · rename_i hnone
              exact .inr (.inr ⟨hnone, hstart, by omega⟩)
            · rename_i close hclose
              refine .inr (.inl ⟨close, hclose, hstart, ?_⟩)
              -- Between the closing parenthesis and the end of the options there is no head.
              rcases Nat.lt_or_ge close offset with hgt | hge
              · exact absurd (.inr hmatch) (hreads.1.first offset hgt (by omega))
              · exact hge

/-- The search for definitions is a finite run of rounds that starts at the head of the script and
loses no head of a definition. -/
theorem segments_eq_rounds (script : List Char) :
    ∃ visits, Rounds (Mask.cells script) 0 visits ∧
      segments script = visits.map (·.segment) ∧
      visits.Pairwise (fun visit later => visit.start < later.start) ∧
      (∀ visit ∈ visits, ∀ close, visit.close = some close →
        close + 1 ≤ visit.next ∧ visit.next ≤ (Mask.mask script).length) ∧
      visits.Pairwise (fun visit later => visit.next ≤ later.start) ∧
      ∀ offset, MatchesAt (Mask.cells script) offset →
        ∃ visit ∈ visits, offset = visit.start ∨
          (∃ close, visit.close = some close ∧ visit.start < offset ∧ offset ≤ close) ∨
          (visit.close = none ∧ visit.start < offset ∧ offset < visit.opening + 1) := by
  obtain ⟨visits, hrounds, hsegments⟩ :=
    segmentsFrom_eq (Mask.cells script) [] ⟨none, Mask.cells script⟩ 0 rfl
      (Nat.zero_le _)
  refine ⟨visits, hrounds, hsegments, ?_, ?_, hrounds.pairwise_next_le, ?_⟩
  · refine hrounds.pairwise_next_le.imp_of_mem ?_
    intro visit later hvisit _ hnext
    obtain ⟨pos, hround⟩ := hrounds.exists_round visit hvisit
    have := hround.start_lt
    have := hround.opening_lt_next
    omega
  · intro visit hvisit close hclose
    obtain ⟨pos, hround⟩ := hrounds.exists_round visit hvisit
    obtain ⟨name, -, hreads⟩ := hround.reads
    rw [Visit.Reads, hclose] at hreads
    rw [Mask.mask, List.length_map]
    exact ⟨hreads.1.start_le, hreads.1.le_length⟩
  · intro offset hmatch
    exact hrounds.covers (Nat.zero_le _) hmatch

end SchemaReader.Reading

import SchemaReader.Proofs.Identifier.Written
import SchemaReader.Proofs.Scan.Veil

/-!
# The last part of a qualified name

A qualified name is read as its names and the blanks around its dots.  The last part is
found by another cut of the same text: there a text between delimiters is a part only
where the cut meets its opening delimiter, and anything else ends at the next dot.  The
two agree unless a blank stands before a delimited name that holds a dot.
-/

namespace SchemaReader.Identifier

open SchemaReader.Text

structure Dotted where
  before : List Char
  after : List Char
  name : List Char
  before_blank : ∀ c ∈ before, isBlank c
  after_blank : ∀ c ∈ after, isBlank c
  written : Written name

namespace Dotted

def write (part : Dotted) : List Char := part.before ++ '.' :: (part.after ++ part.name)

/-- The cut meets a blank before the delimiter, and then a dot between the delimiters. -/
def Exposed (part : Dotted) : Prop := part.after ≠ [] ∧ '.' ∈ part.name

end Dotted

structure Qualified where
  first : List Char
  parts : List Dotted
  written : Written first

namespace Qualified

def write (q : Qualified) : List Char := q.first ++ q.parts.flatMap Dotted.write

def last (q : Qualified) : List Char := (q.parts.getLast?.map Dotted.name).getD q.first

end Qualified

namespace Dotted

theorem head?_flatMap (parts : List Dotted) :
    ∀ c ∈ (parts.flatMap write).head?, isNameChar c = false := by
  cases parts with
  | nil => simp
  | cons part parts =>
      rw [List.flatMap_cons, write]
      cases hbefore : part.before with
      | nil =>
          rintro c ⟨⟩
          rfl
      | cons d before =>
          rintro c ⟨⟩
          exact not_isNameChar_of_isBlank (part.before_blank _ (by simp [hbefore]))

theorem dotName?_write_append (part : Dotted) {rest : List Char}
    (hrest : ∀ c ∈ rest.head?, isNameChar c = false) :
    dotName? (part.write ++ rest) = some (part.write, rest) := by
  have hname : ∀ c ∈ (part.name ++ rest).head?, isBlank c = false := by
    cases hpart : part.name with
    | nil => exact absurd hpart part.written.ne_nil
    | cons d name =>
        have htrimmed := part.written.trimmed
        rw [hpart] at htrimmed
        exact htrimmed.head
  have hdot : ∀ c ∈ ('.' :: (part.after ++ (part.name ++ rest))).head?, isBlank c = false := by
    rintro c ⟨⟩
    rfl
  obtain ⟨htake, hdrop⟩ := span_append part.before_blank hdot
  obtain ⟨htakeAfter, hdropAfter⟩ := span_append part.after_blank hname
  have hwrite : part.write ++ rest = part.before ++ '.' :: (part.after ++ (part.name ++ rest)) := by
    simp [write]
  have hblanks : (isBlankAt : Char → Bool) = isBlank := rfl
  rw [hwrite, dotName?, dropBlanks, hblanks, hdrop]
  simp only [shown_char, if_true, dropBlanks, hblanks, hdropAfter, name?_append part.written hrest,
    htake, htakeAfter, Option.map_some, write, List.append_assoc, List.cons_append]

theorem dotNames_write (parts : List Dotted) (before : List (List Char)) :
    dotNames before (parts.flatMap write) = (before.reverse ++ parts.map write, []) := by
  induction parts generalizing before with
  | nil => simp [dotNames_of_none (show dotName? ([] : List Char) = none from rfl)]
  | cons part parts ih =>
      have hdot := part.dotName?_write_append (head?_flatMap parts)
      rw [List.flatMap_cons, dotNames_of_some hdot, ih,
        List.reverse_cons, List.append_assoc, List.singleton_append, List.map_cons]

end Dotted

theorem Qualified.qualified?_write (q : Qualified) : qualified? q.write = some (q.write, []) := by
  rw [qualified?, write, name?_append q.written (Dotted.head?_flatMap q.parts)]
  simp only [Option.map_some, Dotted.dotNames_write, List.reverse_nil, List.nil_append]
  rw [List.flatMap_def]

/-! ## The steps of the cut -/

theorem lastPartFrom_delimited {text part after : List Char}
    (h : delimited? text = some (part, after)) (last : Option (List Char)) :
    lastPartFrom last text = lastPartFrom (some part) after := by
  cases text with
  | nil => cases h
  | cons c text =>
      rw [lastPartFrom]
      split
      · rename_i part' after' h'
        cases h.symm.trans h'
        rfl
      · rename_i hnone
        cases h.symm.trans hnone

theorem lastPartFrom_of_closer?_none {c : Char} (h : closer? c = none) (rest : List Char)
    (last : Option (List Char)) :
    lastPartFrom last (c :: rest) =
      if c = '.' then lastPartFrom last rest
      else lastPartFrom (some (c :: rest.takeWhile (· != '.'))) (rest.dropWhile (· != '.')) := by
  have hnone : delimited? (c :: rest) = none :=
    delimited?_of_closer?_none (by rintro d ⟨⟩; exact h)
  rw [lastPartFrom]
  split
  · rename_i hsome
    cases hnone.symm.trans hsome
  · rfl

theorem lastPartFrom_dot (last : Option (List Char)) (rest : List Char) :
    lastPartFrom last ('.' :: rest) = lastPartFrom last rest :=
  lastPartFrom_of_closer?_none rfl rest last

theorem lastPartFrom_run {run rest : List Char} (hne : run ≠ [])
    (hhead : ∀ c ∈ run.head?, closer? c = none) (hrun : '.' ∉ run)
    (hrest : ∀ c ∈ rest.head?, c = '.') (last : Option (List Char)) :
    lastPartFrom last (run ++ rest) = lastPartFrom (some run) rest := by
  cases run with
  | nil => exact absurd rfl hne
  | cons c run =>
      have hdot : c ≠ '.' := fun hc => hrun (by simp [hc])
      have hplain : ∀ d ∈ run, d != '.' := by
        intro d hd
        simp only [bne_iff_ne]
        rintro rfl
        exact hrun (by simp [hd])
      have hstop : ∀ d ∈ rest.head?, (d != '.') = false := by simpa using hrest
      obtain ⟨htake, hdrop⟩ := span_append hplain hstop
      rw [List.cons_append, lastPartFrom_of_closer?_none (hhead c rfl), if_neg hdot, htake, hdrop]

theorem not_mem_of_blanks {blanks : List Char} (h : ∀ c ∈ blanks, isBlank c) : '.' ∉ blanks :=
  fun hdot => absurd (h '.' hdot) (by decide)

/-- The cut passes over a name and the blanks around it.  Unless blanks follow, the part that it
finds is that name. -/
def Passes (lead name before rest : List Char) : Prop :=
  ∀ last, ∃ part,
    lastPartFrom last (lead ++ (name ++ (before ++ rest))) = lastPartFrom (some part) rest ∧
      (before = [] → unquote part = unquote name)

section Passes

variable {lead name before rest : List Char}

theorem passes_run (hlead : ∀ c ∈ lead, isBlank c) (hname : Written name)
    (hbefore : ∀ c ∈ before, isBlank c) (hrest : ∀ c ∈ rest.head?, c = '.')
    (hhead : ∀ c ∈ (lead ++ name).head?, closer? c = none) (hdot : '.' ∉ name) :
    Passes lead name before rest := by
  intro last
  have hne : lead ++ name ≠ [] := by simp [hname.ne_nil]
  have hrun : '.' ∉ lead ++ name ++ before := by
    simp [not_mem_of_blanks hlead, hdot, not_mem_of_blanks hbefore]
  have hstep : lastPartFrom last (lead ++ name ++ before ++ rest) =
      lastPartFrom (some (lead ++ name ++ before)) rest :=
    lastPartFrom_run (by simp [hname.ne_nil]) (by rwa [List.head?_append_of_ne_nil _ hne]) hrun
      hrest last
  refine ⟨lead ++ name ++ before, by simpa using hstep, ?_⟩
  rintro rfl
  rw [List.append_nil, unquote_blanks_append hlead hname.trimmed]

theorem passes_delimited {opener closer : Char} {content : List Char}
    (hpair : closer? opener = some closer) (hne : content ≠ []) (hfree : closer ∉ content)
    (hbefore : ∀ c ∈ before, isBlank c) (hrest : ∀ c ∈ rest.head?, c = '.') :
    Passes [] (opener :: content ++ [closer]) before rest := by
  intro last
  rw [List.nil_append, lastPartFrom_delimited (delimited?_append hpair hne hfree _)]
  cases hblanks : before with
  | nil => exact ⟨_, rfl, fun _ => rfl⟩
  | cons c blanks =>
      rw [← hblanks]
      have hhead : ∀ d ∈ before.head?, closer? d = none := by
        rw [hblanks]
        rintro d ⟨⟩
        exact closer?_of_isBlank (hbefore _ (by simp [hblanks]))
      have hne : before ≠ [] := by simp [hblanks]
      exact ⟨before, lastPartFrom_run hne hhead (not_mem_of_blanks hbefore) hrest _,
        fun hnil => absurd hnil hne⟩

theorem passes_name (hlead : ∀ c ∈ lead, isBlank c) (hname : Written name)
    (hbefore : ∀ c ∈ before, isBlank c) (hrest : ∀ c ∈ rest.head?, c = '.')
    (hexposed : ¬ (lead ≠ [] ∧ '.' ∈ name)) : Passes lead name before rest := by
  cases hblanks : lead with
  | cons c blanks =>
      rw [← hblanks]
      refine passes_run hlead hname hbefore hrest ?_ fun hdot => hexposed ⟨by simp [hblanks], hdot⟩
      rw [hblanks]
      rintro d ⟨⟩
      exact closer?_of_isBlank (hlead _ (by simp [hblanks]))
  | nil =>
      cases hname with
      | delimited hpair hne hfree => exact passes_delimited hpair hne hfree hbefore hrest
      | bare hne hchars =>
          refine passes_run (by simp) (.bare hne hchars) hbefore hrest ?_
            fun hdot => absurd (hchars '.' hdot) (by decide)
          exact fun c hc => closer?_of_isNameChar (hchars c (List.mem_of_mem_head? hc))

end Passes

theorem lastPartFrom_parts {lead name : List Char} (hlead : ∀ c ∈ lead, isBlank c)
    (hname : Written name) (hexposed : ¬ (lead ≠ [] ∧ '.' ∈ name)) {parts : List Dotted}
    (hparts : ∀ part ∈ parts, ¬ part.Exposed) (last : Option (List Char)) :
    ∃ part, lastPartFrom last (lead ++ (name ++ parts.flatMap Dotted.write)) = some part ∧
      unquote part = unquote ((parts.getLast?.map Dotted.name).getD name) := by
  induction parts generalizing lead name last with
  | nil =>
      have hpasses : Passes lead name [] [] :=
        passes_name hlead hname (by simp) (by simp) hexposed
      obtain ⟨part, hpart, hunquote⟩ := hpasses last
      refine ⟨part, ?_, hunquote rfl⟩
      rw [lastPartFrom] at hpart
      exact hpart
  | cons next parts ih =>
      have hpasses : Passes lead name next.before
          ('.' :: (next.after ++ (next.name ++ parts.flatMap Dotted.write))) :=
        passes_name hlead hname next.before_blank (by rintro c ⟨⟩; rfl) hexposed
      have hnext : (next :: parts).flatMap Dotted.write =
          next.before ++ '.' :: (next.after ++ (next.name ++ parts.flatMap Dotted.write)) := by
        simp [Dotted.write]
      obtain ⟨part, hpart, -⟩ := hpasses last
      obtain ⟨final, hfinal, hunquote⟩ := ih next.after_blank next.written
        (hparts next (by simp)) (fun part hmem => hparts part (by simp [hmem])) (some part)
      refine ⟨final, ?_, ?_⟩
      · rw [hnext, hpart, lastPartFrom_dot, hfinal]
      · rw [hunquote, List.getLast?_cons]
        cases parts.getLast? <;> rfl

/-! ## Names that the cut cannot meet -/

theorem lastPartFrom_cases (last : Option (List Char)) (text : List Char) :
    (lastPartFrom last text = last ∧ ∀ c ∈ text, c = '.') ∨
      ∃ front part dots, lastPartFrom last text = some part ∧ text = front ++ part ++ dots ∧
        (∀ c ∈ dots, c = '.') ∧ (∀ c ∈ front.getLast?, isBlank c = false) ∧
        ((part ≠ [] ∧ '.' ∉ part) ∨ ∃ opener closer content, closer? opener = some closer ∧
          part = opener :: content ++ [closer]) := by
  fun_induction lastPartFrom last text with
  | case1 last => exact .inl ⟨rfl, by simp⟩
  | case2 last c rest piece after hread _ ih =>
      have hsplit := append_of_delimited? hread
      obtain ⟨opener, closer, content, hpair, -, -, rfl⟩ := exists_of_delimited? hread
      rcases ih with ⟨hfound, hdots⟩ | ⟨front, part, dots, hfound, rfl, hdots, hfront, hpart⟩
      · exact .inr ⟨[], _, after, hfound, hsplit.symm, hdots, by simp,
          .inr ⟨opener, closer, content, hpair, rfl⟩⟩
      · refine .inr
          ⟨opener :: content ++ [closer] ++ front, part, dots, hfound, ?_, hdots, ?_, hpart⟩
        · rw [← hsplit]
          simp
        · obtain ⟨hopener, hcloser, -⟩ := plain_of_closer? hpair
          exact forall_getLast?_append (trimmed_of_ends content hopener hcloser).last hfront
  | case3 last rest _ ih =>
      rcases ih with ⟨hfound, hdots⟩ | ⟨front, part, dots, hfound, rfl, hdots, hfront, hpart⟩
      · exact .inl ⟨hfound, by simpa using hdots⟩
      · have hlast : ∀ d ∈ ['.'].getLast?, isBlank d = false := by
          rintro d ⟨⟩
          rfl
        exact .inr ⟨'.' :: front, part, dots, hfound, rfl, hdots,
          forall_getLast?_append hlast hfront, hpart⟩
  | case4 last c rest _ hdot _ ih =>
      have hrun : '.' ∉ c :: rest.takeWhile (· != '.') := by
        intro hmem
        rcases List.mem_cons.1 hmem with hc | hmem
        · exact hdot hc.symm
        · simpa using List.mem_takeWhile_imp hmem
      have hsplit := List.takeWhile_append_dropWhile (p := (· != '.')) (l := rest)
      have hstop := List.head?_dropWhile_not (· != '.') rest
      generalize rest.takeWhile (· != '.') = run, rest.dropWhile (· != '.') = remaining at *
      subst hsplit
      rcases ih with ⟨hfound, hdots⟩ | ⟨front, part, dots, hfound, rfl, hdots, hfront, hpart⟩
      · exact .inr ⟨[], _, remaining, hfound, rfl, hdots, by simp, .inl ⟨by simp, hrun⟩⟩
      · refine .inr ⟨c :: run ++ front, part, dots, hfound, by simp, hdots, ?_, hpart⟩
        intro d hd
        rw [List.getLast?_append] at hd
        rcases Option.or_eq_some_iff.1 hd with hd | ⟨hnil, -⟩
        · exact hfront d hd
        -- What is left starts with a dot, and no part does.
        · rw [List.getLast?_eq_none_iff.1 hnil] at hstop
          rcases hpart with ⟨hne, hplain⟩ | ⟨opener, closer, content, hpair, rfl⟩
          · obtain ⟨e, part, rfl⟩ := List.exists_cons_of_ne_nil hne
            obtain rfl : e = '.' := by simpa using hstop
            exact absurd (by simp) hplain
          · obtain rfl : opener = '.' := by simpa using hstop
            exact absurd rfl (plain_of_closer? hpair).2.2.1

theorem lastPartFrom_exposed {front name : List Char} {blank : Char} (hblank : isBlank blank)
    (hname : Written name) (hdot : '.' ∈ name) (last : Option (List Char)) :
    ∃ part, lastPartFrom last (front ++ blank :: name) = some part ∧
      unquote part ≠ unquote name := by
  cases hname with
  | bare _ hchars => exact absurd (hchars '.' hdot) (by decide)
  | @delimited opener closer content hpair hne hfree =>
      obtain ⟨hopener, hcloser, hopenerDot, hcloserDot, -⟩ := plain_of_closer? hpair
      have hcontent : '.' ∈ content := by
        simpa [hopenerDot.symm, hcloserDot.symm] using hdot
      rw [unquote_delimited hpair]
      rcases lastPartFrom_cases last (front ++ blank :: (opener :: content ++ [closer])) with
        ⟨-, hdots⟩ | ⟨before, part, dots, hfound, htext, hdots, hbefore, hpart⟩
      · exact absurd (hdots closer (by simp)) hcloserDot
      refine ⟨part, hfound, fun hsame => ?_⟩
      rcases hpart with ⟨-, hplain⟩ | ⟨opener', closer', content', hpair', rfl⟩
      · exact hplain ((infix_unquote part).subset (hsame ▸ hcontent))
      · rw [unquote_delimited hpair'] at hsame
        subst hsame
        -- The part reaches to the end of the text, so it starts where the name does.
        have hnone : dots = [] := by
          rcases List.eq_nil_or_concat dots with hnil | ⟨others, d, rfl⟩
          · exact hnil
          · have hends : closer = d := by
              simpa [List.getLast?_append, List.getLast?_cons] using congrArg List.getLast? htext
            exact absurd (hends.trans (hdots d (by simp))) hcloserDot
        have haligned : (front ++ [blank]) ++ (opener :: content' ++ [closer]) =
            before ++ (opener' :: content' ++ [closer']) := by
          simpa [hnone] using htext
        have hfront := (List.append_inj' haligned (by simp)).1
        rw [hbefore blank (by simp [← hfront])] at hblank
        cases hblank

namespace Qualified

theorem written_last (q : Qualified) : Written q.last := by
  rw [last]
  cases q.parts.getLast? with
  | none => exact q.written
  | some part => exact part.written

theorem exists_write (q : Qualified) {part : Dotted} (h : part ∈ q.parts.getLast?) :
    ∃ front, q.write = front ++ '.' :: (part.after ++ part.name) := by
  obtain ⟨parts, hparts⟩ := List.getLast?_eq_some_iff.1 h
  exact ⟨q.first ++ (parts.flatMap Dotted.write ++ part.before),
    by simp [write, hparts, Dotted.write]⟩

theorem trimmed_write (q : Qualified) : Trimmed q.write := by
  cases hlast : q.parts.getLast? with
  | none =>
      rw [write, List.getLast?_eq_none_iff.1 hlast, List.flatMap_nil, List.append_nil]
      exact q.written.trimmed
  | some part =>
      obtain ⟨front, hwrite⟩ := q.exists_write hlast
      refine q.written.trimmed.append q.written.ne_nil fun c hc => part.written.trimmed.last c ?_
      have hends : q.write.getLast? = some c := by
        rw [write, List.getLast?_append, Option.mem_def.1 hc]
        rfl
      have hname : (front ++ '.' :: part.after) ++ part.name = q.write := by simp [hwrite]
      rw [← hname, List.getLast?_append_of_ne_nil _ part.written.ne_nil] at hends
      exact hends

/-- The whole of a qualified name is read as one, and the name that it ends in is not empty.  That
name is found if no part is exposed, and is not found if the last part is. -/
theorem lastPart_qualified (q : Qualified) :
    qualified? q.write = some (q.write, []) ∧ unquote q.last ≠ [] ∧
      ((∀ part ∈ q.parts, ¬ part.Exposed) → lastPart q.write = unquote q.last) ∧
      ∀ part ∈ q.parts.getLast?, part.Exposed → lastPart q.write ≠ unquote q.last := by
  refine ⟨q.qualified?_write, q.written_last.unquote_ne_nil, ?_, ?_⟩
  · intro hparts
    have hblanks : ∀ c ∈ ([] : List Char), isBlank c := by simp
    obtain ⟨part, hpart, hunquote⟩ := lastPartFrom_parts hblanks q.written (by simp) hparts none
    have hread : lastPartFrom none q.write = some part := hpart
    rw [lastPart, q.trimmed_write.trim_eq, hread]
    exact hunquote
  · rintro part hpart ⟨hafter, hdot⟩
    obtain ⟨front, hwrite⟩ := q.exists_write hpart
    obtain ⟨blanks, blank, hblanks⟩ := List.eq_nil_or_concat part.after |>.resolve_left hafter
    have hblank : isBlank blank := part.after_blank blank (by simp [hblanks])
    have hsplit : q.write = (front ++ '.' :: blanks) ++ blank :: part.name := by
      simp [hwrite, hblanks]
    have hlast : q.last = part.name := by simp [last, Option.mem_def.1 hpart]
    rw [lastPart, q.trimmed_write.trim_eq, hsplit, hlast]
    obtain ⟨found, hfound, hne⟩ := lastPartFrom_exposed hblank part.written hdot none
    rw [hfound]
    exact hne

/-- A dot between delimiters belongs to the name, but not behind a dot and a blank. -/
theorem lastPart_qualified_dots :
    (∃ q : Qualified, q.write = "\"a.b\" . [c] .`d.e`".toList ∧
      lastPart q.write = "d.e".toList) ∧
    ∃ q : Qualified, q.write = "a. `b.c`".toList ∧ unquote q.last = "b.c".toList ∧
      lastPart q.write = "c`".toList ∧ lastPart q.write ≠ unquote q.last := by
  have hfirst : Written ('"' :: "a.b".toList ++ ['"']) := .delimited rfl (by decide) (by decide)
  have hsecond : Written ('[' :: "c".toList ++ [']']) := .delimited rfl (by decide) (by decide)
  have hthird : Written ('`' :: "d.e".toList ++ ['`']) := .delimited rfl (by decide) (by decide)
  have hplain : Written "a".toList := .bare (by decide) (List.all_eq_true.1 rfl)
  have hdotted : Written ('`' :: "b.c".toList ++ ['`']) := .delimited rfl (by decide) (by decide)
  have hblank : ∀ c ∈ [' '], isBlank c := List.all_eq_true.1 rfl
  let met : Qualified :=
    ⟨_, [⟨[' '], [' '], _, hblank, hblank, hsecond⟩, ⟨[' '], [], _, hblank, by simp, hthird⟩],
      hfirst⟩
  let missed : Qualified := ⟨_, [⟨[], [' '], _, by simp, hblank, hdotted⟩], hplain⟩
  refine ⟨⟨met, rfl, ?_⟩, missed, rfl, rfl, by cbv, ?_⟩
  · have hexposed : ∀ part ∈ met.parts, ¬ part.Exposed := by
      simp [met, Dotted.Exposed]
    exact (met.lastPart_qualified.2.2.1 hexposed).trans rfl
  · exact missed.lastPart_qualified.2.2.2 _ rfl ⟨List.cons_ne_nil _ _, by simp⟩

end Qualified

/-! ## Names between backticks -/

open SchemaReader.Scan

def backticked (name : List Char) : List Char := '`' :: name ++ ['`']

variable {name : List Char}

theorem trimmed_backticked (name : List Char) : Trimmed (backticked name) :=
  trimmed_of_ends name rfl rfl

theorem delimited?_backticked (hne : name ≠ []) (hfree : '`' ∉ name) (rest : List Char) :
    delimited? (backticked name ++ rest) = some (backticked name, rest) :=
  delimited?_append rfl hne hfree rest

theorem name?_backticked (hne : name ≠ []) (hfree : '`' ∉ name) (rest : List Char) :
    name? (backticked name ++ rest) = some (backticked name, rest) := by
  rw [name?, delimited?_backticked hne hfree]
  rfl

theorem unquote_backticked (name : List Char) : unquote (backticked name) = name :=
  unquote_delimited rfl name

theorem lastPart_backticked (hne : name ≠ []) (hfree : '`' ∉ name) :
    lastPart (backticked name) = name := by
  have hread := delimited?_backticked hne hfree []
  rw [List.append_nil] at hread
  have hpart : lastPartFrom none (backticked name) = some (backticked name) := by
    rw [lastPartFrom_delimited hread, lastPartFrom]
  rw [lastPart, (trimmed_backticked name).trim_eq, hpart]
  exact unquote_backticked name

def backtickedCells (name : List Char) : List Cell := ⟨'`', false⟩ :: hide name ++ [⟨'`', false⟩]

theorem reveal_backtickedCells (name : List Char) :
    Mask.reveal (backtickedCells name) = backticked name := by
  rw [backtickedCells, Mask.reveal_append, Mask.reveal, List.map_cons, ← Mask.reveal,
    Mask.reveal_hide]
  rfl

theorem name?_backtickedCells (hne : name ≠ []) (rest : List Cell) :
    name? (backtickedCells name ++ rest) = some (backtickedCells name, rest) := by
  have hcontent : ∀ x ∈ hide name, shown x ≠ '`' := by
    intro x hx
    rw [shown_hide hx]
    decide
  have hwrite : backtickedCells name ++ rest =
      ⟨'`', false⟩ :: (hide name ++ ⟨'`', false⟩ :: rest) := by
    simp [backtickedCells]
  rw [name?, hwrite, delimited?_of_closer? rfl hcontent rfl, if_neg (by simpa [hide])]
  rfl

end SchemaReader.Identifier

import SchemaReader.Proofs.Clause.Announced
import SchemaReader.Proofs.Reading.Heads
import SchemaReader.Reading.Constraint

/-!
# Kinds of clauses and the readers behind them

The kind of a clause is decided on its text in capitals; its reader then looks at the text itself,
in any case.  As long as no letter grows in capitals, a clause that is taken for a constraint is
read as one of the kind that it announces, and a clause that is taken for a column has a name, and
a type too unless a parenthesis follows the name.
-/

namespace SchemaReader.Clause

open SchemaReader.Text

theorem afterKeyword?_of_afterPhrase? {letters : Letters} {word : String} {words : List String}
    {text : List Char} (h : (afterPhrase? letters (word :: words) text).isSome) :
    (afterKeyword? letters word.toList text).isSome := by
  simp only [afterPhrase?, Option.isSome_filter, Option.any_eq_true] at h
  obtain ⟨rest, hrest, -⟩ := h
  cases words with
  | nil => exact Option.isSome_of_eq_some hrest
  | cons next words =>
      simp only [afterKeywords?, Option.bind_eq_some_iff] at hrest
      obtain ⟨later, hlater, -⟩ := hrest
      exact Option.isSome_of_eq_some hlater

theorem announcements_apart : ∀ a ∈ announcements,
    (a.words.all (·.toList.all isCapital) ∧
      a.words.all fun word => word.toList.head?.any (!isBlank ·)) ∧
    (∀ b ∈ announcements, a.first.toList <+: b.first.toList → a = b) ∧
    ¬ a.first.toList <+: "CONSTRAINT".toList ∧ ¬ "CONSTRAINT".toList <+: a.first.toList := by
  decide +kernel

section Announced

variable {a b : Announcement} {text : List Char}

theorem eq_of_announced (ha : a ∈ announcements) (hb : b ∈ announcements)
    (hleft : (afterPhrase? .anyCase a.words text).isSome)
    (hright : (afterPhrase? .anyCase b.words text).isSome) : a = b := by
  obtain ⟨⟨hcapitals, -⟩, hapart, -⟩ := announcements_apart a ha
  obtain ⟨⟨hcapitals', -⟩, hapart', -⟩ := announcements_apart b hb
  obtain ⟨later, hlater⟩ := Option.isSome_iff_exists.1 (afterKeyword?_of_afterPhrase? hleft)
  obtain ⟨rest, hrest⟩ := Option.isSome_iff_exists.1 (afterKeyword?_of_afterPhrase? hright)
  rw [Announcement.words, List.all_cons, Bool.and_eq_true] at hcapitals hcapitals'
  rcases comparable_of_afterKeyword? hcapitals.1 hcapitals'.1 hlater hrest with hprefix | hprefix
  · exact hapart b hb hprefix
  · exact (hapart' a ha hprefix).symm

theorem not_named_of_announced (ha : a ∈ announcements)
    (h : (afterPhrase? .anyCase a.words text).isSome) :
    afterKeywords? .anyCase ["CONSTRAINT"] text = none := by
  obtain ⟨⟨hcapitals, -⟩, -, hapart, hapart'⟩ := announcements_apart a ha
  obtain ⟨later, hlater⟩ := Option.isSome_iff_exists.1 (afterKeyword?_of_afterPhrase? h)
  rw [Announcement.words, List.all_cons, Bool.and_eq_true] at hcapitals
  refine Option.eq_none_iff_forall_ne_some.2 fun rest hrest => ?_
  rcases comparable_of_afterKeyword? hcapitals.1 (by decide) hlater hrest with hprefix | hprefix
  · exact hapart hprefix
  · exact hapart' hprefix

theorem kind_announced?_of_announced (ha : a ∈ announcements)
    (h : (afterPhrase? .anyCase a.words text).isSome) :
    (announced? .anyCase text).map (·.1) = some a.kind := by
  have hfound : (announcements.find? fun b => (afterPhrase? .anyCase b.words text).isSome).isSome :=
    List.find?_isSome.2 ⟨a, ha, h⟩
  obtain ⟨b, hb⟩ := Option.isSome_iff_exists.1 hfound
  have hmem := List.mem_of_find?_eq_some hb
  have hphrase : (afterPhrase? .anyCase b.words text).isSome := by
    simpa using List.find?_eq_some_iff_append.1 hb |>.1
  obtain rfl := eq_of_announced ha hmem h hphrase
  rw [kind_announced?, hb, Option.map_some]

theorem announced_of_leads (ha : a ∈ announcements)
    (hsingle : ∀ c ∈ text, (upperChar c).length = 1) (h : Leads a.words (upper text)) :
    (afterPhrase? .anyCase a.words text).isSome := by
  obtain ⟨⟨hcapitals, hwords⟩, -⟩ := announcements_apart a ha
  rw [upper_eq_map hsingle] at h
  exact afterPhrase?_capitals hcapitals ((isSome_afterPhrase?_exact_iff hwords).2 h)

theorem exists_leads_of_announced? (h : (announced? .exact text).isSome) :
    ∃ a ∈ announcements, Leads a.words text := by
  have hkind : ((announced? .exact text).map (·.1)).isSome := by simpa using h
  rw [kind_announced?, Option.isSome_map, List.find?_isSome] at hkind
  obtain ⟨a, ha, hphrase⟩ := hkind
  exact ⟨a, ha, (isSome_afterPhrase?_exact_iff (announcements_apart a ha).1.2).1 hphrase⟩

end Announced

end SchemaReader.Clause

namespace SchemaReader.Reading

open SchemaReader.Clause SchemaReader.Schema SchemaReader.Text

theorem constraintName_of_not_named {text : List Char}
    (h : afterKeywords? .anyCase ["CONSTRAINT"] text = none) :
    constraintName text = (none, text) := by
  simp only [constraintName, namedConstraint?, h, Option.bind_none]

theorem kind_readConstraint (clause : List Char) :
    (readConstraint clause).kind =
      ((announced? .anyCase (constraintName (trim clause)).2).map (·.1)).getD .other := by
  simp only [readConstraint]
  split <;> simp [*]

theorem definition_readConstraint (clause : List Char) :
    (readConstraint clause).definition = String.ofList (trim clause) := by
  simp only [readConstraint]
  split <;> rfl

theorem kind_ne_other : ∀ a ∈ announcements, a.kind ≠ .other := by
  decide

theorem announced_of_constraint {clause : List Char} (h : ClauseKind.ofClause clause = .constraint)
    (hnamed : ¬ "CONSTRAINT".toList <+: upper (trim clause)) :
    ∃ a ∈ announcements, Leads a.words (upper (trim clause)) := by
  have hstarts : ClauseKind.startsConstraint (upper (trim clause)) := by
    by_contra hnot
    simp only [ClauseKind.ofClause, if_neg hnot] at h
    split at h <;> cases h
  simp only [ClauseKind.startsConstraint, Bool.or_eq_true] at hstarts
  rcases hstarts with hannounced | hconstraint
  · exact exists_leads_of_announced? hannounced
  · obtain ⟨rest, hrest, -⟩ := (isSome_afterPhrase?_exact_iff (by decide)).1 hconstraint
    exact absurd ⟨rest, hrest.symm⟩ hnamed

theorem startsColumn_of_column {clause : List Char} (h : ClauseKind.ofClause clause = .column) :
    ClauseKind.startsColumn (trim clause) := by
  simp only [ClauseKind.ofClause] at h
  split at h
  · cases h
  · split at h
    · assumption
    · cases h

/-- A clause that is taken for a constraint, and not by the word `CONSTRAINT`, starts with the
keywords of a kind, and of no other, and is read as one of that kind.  A clause that is taken for a
column starts with a name, and is read as a column unless a parenthesis follows the name. -/
theorem readers_of_kind {clause : List Char} (hsingle : ∀ c ∈ clause, (upperChar c).length = 1) :
    (ClauseKind.ofClause clause = .constraint → ¬ "CONSTRAINT".toList <+: upper (trim clause) →
      ∃ a ∈ announcements, Leads a.words (upper (trim clause)) ∧
        (∀ b ∈ announcements, Leads b.words (upper (trim clause)) → b = a) ∧
        (readConstraint clause).kind = a.kind ∧ a.kind ≠ .other ∧
        (readConstraint clause).definition = String.ofList (trim clause)) ∧
    (ClauseKind.ofClause clause = .column →
      ∃ name rest, Identifier.name? (trim clause) = some (name, rest) ∧
        (columnHead? clause = none ↔ (dropBlanks rest).head? = some '(')) := by
  have htrim : ∀ c ∈ trim clause, (upperChar c).length = 1 := fun c hc =>
    hsingle c ((infix_trim clause).subset hc)
  constructor
  · intro hkind hnamed
    obtain ⟨a, ha, hleads⟩ := announced_of_constraint hkind hnamed
    have hphrase := announced_of_leads ha htrim hleads
    refine ⟨a, ha, hleads, fun b hb hother => ?_, ?_, kind_ne_other a ha,
      definition_readConstraint clause⟩
    · exact eq_of_announced hb ha (announced_of_leads hb htrim hother) hphrase
    · rw [kind_readConstraint, constraintName_of_not_named (not_named_of_announced ha hphrase),
        kind_announced?_of_announced ha hphrase, Option.getD_some]
  · intro hkind
    have hstarts := startsColumn_of_column hkind
    simp only [ClauseKind.startsColumn, Option.isSome_iff_exists,
      Option.bind_eq_some_iff] at hstarts
    obtain ⟨text, ⟨name, rest⟩, hname, htext⟩ := hstarts
    refine ⟨name, rest, hname, ?_⟩
    have hdrop : dropBlanks rest = text := by
      rw [afterBlanks?_eq] at htext
      split at htext
      · simpa using htext
      · cases htext
    rw [columnHead?_of_name? hname htext, hdrop]
    split <;> simp [*]

/-- Letters beyond ASCII may announce an index, and a name may be followed by a parenthesis. -/
theorem readers_of_kind_long_s :
    (ClauseKind.ofClause "  ſpatıal\tKeY g (a) ".toList = .constraint ∧
      (readConstraint "  ſpatıal\tKeY g (a) ".toList).kind = .index ∧
      (readConstraint "  ſpatıal\tKeY g (a) ".toList).definition = "ſpatıal\tKeY g (a)") ∧
    ClauseKind.ofClause "`a`\n (b)".toList = .column ∧ columnHead? "`a`\n (b)".toList = none := by
  have hsingle : ∀ {text : List Char}, text.all (fun c => (upperChar c).length == 1) →
      ∀ c ∈ text, (upperChar c).length = 1 := by
    intro text hall c hc
    simpa using List.all_eq_true.1 hall c hc
  have hindex : ClauseKind.ofClause "  ſpatıal\tKeY g (a) ".toList = .constraint := by
    decide +kernel
  have hcolumn : ClauseKind.ofClause "`a`\n (b)".toList = .column := by decide +kernel
  have hspatial : (⟨"SPATIAL", [], .index⟩ : Announcement) ∈ announcements := by decide
  have hleads : Leads ["SPATIAL"] (upper (trim "  ſpatıal\tKeY g (a) ".toList)) :=
    ⟨"\tKEY G (A)".toList, by decide +kernel, by decide +kernel⟩
  obtain ⟨a, -, -, hunique, hkind, -, hdefinition⟩ :=
    (readers_of_kind (hsingle (by decide +kernel))).1 hindex (by decide +kernel)
  cases hunique _ hspatial hleads
  obtain ⟨name, rest, hname, hhead⟩ := (readers_of_kind (hsingle (by decide +kernel))).2 hcolumn
  have hread : Identifier.name? (trim "`a`\n (b)".toList) =
      some ("`a`".toList, "\n (b)".toList) := by decide +kernel
  cases hread.symm.trans hname
  exact ⟨⟨hindex, hkind, hdefinition⟩, hcolumn, hhead.2 (by decide +kernel)⟩

end SchemaReader.Reading

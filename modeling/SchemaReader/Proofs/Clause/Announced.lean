import SchemaReader.Clause
import SchemaReader.Proofs.Text.Capitals
import SchemaReader.Proofs.Text.Pieces

/-!
# The keywords of a constraint

A clause is a constraint by the keywords at the head of its text in capitals, and its
kind is read from the keywords at the head of the text itself, in any case.  Both look
for the same phrases, no two of which stand at the head of one text.
-/

namespace SchemaReader.Text

/-- The words stand at the head of the text, with blanks between them, and the last one ends
there. -/
def Leads : List String → List Char → Prop
  | [], text => isBoundary text.head?
  | [word], text => ∃ rest, text = word.toList ++ rest ∧ isBoundary rest.head?
  | word :: words, text =>
      ∃ blanks rest, text = word.toList ++ (blanks ++ rest) ∧ blanks ≠ [] ∧
        (∀ c ∈ blanks, isBlank c) ∧ Leads words rest

theorem afterKeyword?_exact_iff {keyword text rest : List Char} :
    afterKeyword? .exact keyword text = some rest ↔ text = keyword ++ rest := by
  induction keyword generalizing text with
  | nil => simp [afterKeyword?]
  | cons k keyword ih =>
      cases text with
      | nil => simp [afterKeyword?]
      | cons c text =>
          rw [afterKeyword?]
          by_cases hc : k = c
          · subst hc
            simp [Letters.meets, ih]
          · simp [Letters.meets, hc, Ne.symm hc]

theorem not_isBlank_of_leads {words : List String} {text : List Char}
    (hwords : words.all fun word => word.toList.head?.any (!isBlank ·)) (hne : words ≠ [])
    (h : Leads words text) : ∀ c ∈ text.head?, isBlank c = false := by
  obtain ⟨word, others, rfl⟩ := List.exists_cons_of_ne_nil hne
  rw [List.all_cons, Bool.and_eq_true] at hwords
  obtain ⟨later, rfl⟩ : ∃ later, text = word.toList ++ later := by
    cases others with
    | nil => exact ⟨_, h.choose_spec.1⟩
    | cons => exact ⟨_, h.choose_spec.choose_spec.1⟩
  cases hword : word.toList with
  | nil =>
      rw [hword] at hwords
      cases hwords.1
  | cons c word =>
      rw [hword] at hwords
      rintro d hd
      obtain rfl : c = d := by simpa using hd
      simpa using hwords.1

theorem isSome_afterPhrase?_exact_iff {words : List String} {text : List Char}
    (hwords : words.all fun word => word.toList.head?.any (!isBlank ·)) :
    (afterPhrase? .exact words text).isSome ↔ Leads words text := by
  have hhead : ∀ rest : List Char, headShown rest = rest.head? := fun rest => by
    cases rest <;> rfl
  simp only [afterPhrase?, Option.isSome_filter, Option.any_eq_true]
  induction words generalizing text with
  | nil => simp [afterKeywords?, Leads, hhead]
  | cons word words ih =>
      cases words with
      | nil => simp [afterKeywords?, Leads, afterKeyword?_exact_iff, hhead]
      | cons next words =>
          rw [List.all_cons, Bool.and_eq_true] at hwords
          simp only [afterKeywords?, Option.bind_eq_some_iff, afterKeyword?_exact_iff, Leads]
          constructor
          · rintro ⟨rest, ⟨gap, hgap, second, hsecond, hnext⟩, hend⟩
            obtain ⟨blanks, rfl, hne, hblanks, -⟩ := exists_of_afterBlanks? hsecond
            exact ⟨blanks, second, hgap, hne, hblanks, (ih hwords.2).1 ⟨rest, hnext, hend⟩⟩
          · rintro ⟨blanks, second, htext, hne, hblanks, hleads⟩
            obtain ⟨rest, hnext, hend⟩ := (ih hwords.2).2 hleads
            have hsecond := not_isBlank_of_leads hwords.2 (List.cons_ne_nil _ _) hleads
            exact ⟨rest, ⟨_, htext, second, afterBlanks?_append hne hblanks hsecond, hnext⟩, hend⟩

theorem eq_of_meets {first second c : Char} (hfirst : isCapital first) (hsecond : isCapital second)
    (h₁ : Letters.anyCase.meets first c) (h₂ : Letters.anyCase.meets second c) :
    first = second := by
  simp only [isCapital, Bool.and_eq_true, decide_eq_true_eq] at hfirst hsecond
  simp only [Letters.meets, isVariantOf, Bool.or_eq_true, Bool.and_eq_true, beq_iff_eq] at h₁ h₂
  have hplain : 128 ≤ c.toNat → c.toUpper = c := by
    intro hbeyond
    unfold Char.toUpper
    rw [dif_neg]
    intro hlower
    have hhigh : c.toNat ≤ 122 := UInt32.le_iff_toNat_le.1 hlower.2
    omega
  grind

theorem comparable_of_afterKeyword? {first second text later rest : List Char}
    (hfirst : first.all isCapital) (hsecond : second.all isCapital)
    (h₁ : afterKeyword? .anyCase first text = some later)
    (h₂ : afterKeyword? .anyCase second text = some rest) :
    first <+: second ∨ second <+: first := by
  induction first generalizing second text with
  | nil => exact .inl (List.nil_prefix)
  | cons k first ih =>
      cases second with
      | nil => exact .inr (List.nil_prefix)
      | cons l second =>
          cases text with
          | nil => cases h₁
          | cons c text =>
              rw [List.all_cons, Bool.and_eq_true] at hfirst hsecond
              rw [afterKeyword?] at h₁ h₂
              split at h₁
              · rename_i hk
                split at h₂
                · rename_i hl
                  obtain rfl := eq_of_meets hfirst.1 hsecond.1 hk hl
                  simpa using ih hfirst.2 hsecond.2 h₁ h₂
                · cases h₂
              · cases h₁

end SchemaReader.Text

namespace SchemaReader.Clause

open SchemaReader.Schema (ConstraintKind)
open SchemaReader.Text

structure Announcement where
  first : String
  others : List String
  kind : ConstraintKind
  deriving DecidableEq

def Announcement.words (announcement : Announcement) : List String :=
  announcement.first :: announcement.others

/-- `KEY` or `INDEX` may follow `UNIQUE`, `FULLTEXT` and `SPATIAL`, and changes nothing there. -/
def announcements : List Announcement :=
  [⟨"PRIMARY", ["KEY"], .primaryKey⟩, ⟨"FOREIGN", ["KEY"], .foreignKey⟩, ⟨"UNIQUE", [], .unique⟩,
    ⟨"FULLTEXT", [], .index⟩, ⟨"SPATIAL", [], .index⟩, ⟨"KEY", [], .index⟩, ⟨"INDEX", [], .index⟩,
    ⟨"CHECK", [], .check⟩]

section Kinds

variable {α : Type} [Shown α] (letters : Letters)

theorem isSome_afterKeyNoun? (text : List α) :
    (afterKeyNoun? letters text).isSome = isBoundary (headShown text) := by
  cases hend : isBoundary (headShown text) with
  | true => simp [afterKeyNoun?, hend]
  | false =>
      have hblanks : afterBlanks? text = none := by
        cases text with
        | nil => cases hend
        | cons x text =>
            have hword : isWord (shown x) := by simpa [isBoundary, headShown] using hend
            have hblank : isBlankAt x = false := not_isBlank_of_isWord hword
            simp [afterBlanks?, hblank]
      simp [afterKeyNoun?, hend, hblanks]

theorem isSome_bind_afterKeyNoun? (word : String) (text : List α) :
    ((afterKeywords? letters [word] text).bind (afterKeyNoun? letters)).isSome =
      (afterPhrase? letters [word] text).isSome := by
  unfold afterPhrase?
  cases afterKeywords? letters [word] text with
  | none => rfl
  | some rest => simp [isSome_afterKeyNoun?, Option.isSome_filter]

theorem map_fst_or {β : Type} (answer : Option β) (kind : ConstraintKind)
    (others : Option (ConstraintKind × β)) :
    ((answer.map (kind, ·)).or others).map (·.1) =
      if answer.isSome then some kind else others.map (·.1) := by
  cases answer <;> rfl

/-- A text announces the kind of the phrase that it starts with. -/
theorem kind_announced? (text : List α) :
    (announced? letters text).map (·.1) =
      (announcements.find? fun announcement =>
        (afterPhrase? letters announcement.words text).isSome).map (·.kind) := by
  have hcheck : ((afterPhrase? letters ["CHECK"] text).map (ConstraintKind.check, ·)).map (·.1) =
      if (afterPhrase? letters ["CHECK"] text).isSome then some .check else none := by
    cases afterPhrase? letters ["CHECK"] text <;> rfl
  have hunique : (afterUnique? letters text).isSome =
      (afterPhrase? letters ["UNIQUE"] text).isSome := isSome_bind_afterKeyNoun? letters _ text
  have hindex : (afterIndex? letters text).isSome =
      ((afterPhrase? letters ["FULLTEXT"] text).isSome ||
        ((afterPhrase? letters ["SPATIAL"] text).isSome ||
          ((afterPhrase? letters ["KEY"] text).isSome ||
            (afterPhrase? letters ["INDEX"] text).isSome))) := by
    simp only [afterIndex?, Option.isSome_or, isSome_bind_afterKeyNoun?]
  simp only [announced?, map_fst_or, hcheck, hunique, hindex, announcements, List.find?_cons,
    List.find?_nil, Announcement.words]
  cases (afterPhrase? letters ["PRIMARY", "KEY"] text).isSome <;>
    cases (afterPhrase? letters ["FOREIGN", "KEY"] text).isSome <;>
    cases (afterPhrase? letters ["UNIQUE"] text).isSome <;>
    cases (afterPhrase? letters ["FULLTEXT"] text).isSome <;>
    cases (afterPhrase? letters ["SPATIAL"] text).isSome <;>
    cases (afterPhrase? letters ["KEY"] text).isSome <;>
    cases (afterPhrase? letters ["INDEX"] text).isSome <;>
    cases (afterPhrase? letters ["CHECK"] text).isSome <;> rfl

end Kinds

end SchemaReader.Clause

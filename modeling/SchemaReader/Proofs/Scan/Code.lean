import SchemaReader.Proofs.Scan.Annotation
import SchemaReader.Proofs.Scan.Paren

/-!
# Masked code

A text without comments is masked character by character, from the state of its
quotes.  A blanked script is such a text.  In it a closing parenthesis is found at
the same place whether the text is masked or not.
-/

namespace SchemaReader.Scan

open SchemaReader.Text (Cell shown shown_char)

namespace Comment

def codeCells (quote : Quote) : List Char → List Cell
  | [] => []
  | c :: rest => cellAt quote c :: codeCells (quote.feed c) rest

theorem codeCells_append (quote : Quote) (first second : List Char) :
    codeCells quote (first ++ second) =
      codeCells quote first ++ codeCells (quote.after first) second := by
  induction first generalizing quote with
  | nil => rfl
  | cons c first ih => exact congrArg _ (ih (quote.feed c))

@[simp] theorem reveal_codeCells (quote : Quote) (text : List Char) :
    Mask.reveal (codeCells quote text) = text := by
  induction text generalizing quote with
  | nil => rfl
  | cons c text ih => exact congrArg _ (ih (quote.feed c))

@[simp] theorem length_codeCells (quote : Quote) (text : List Char) :
    (codeCells quote text).length = text.length := by
  induction text generalizing quote with
  | nil => rfl
  | cons c text ih => exact congrArg _ (ih (quote.feed c))

theorem drop_codeCells (quote : Quote) (text : List Char) (start : Nat) :
    (codeCells quote text).drop start =
      codeCells (quote.after (text.take start)) (text.drop start) := by
  induction start generalizing quote text with
  | zero => rfl
  | succ start ih =>
      cases text with
      | nil => rfl
      | cons c text => exact ih (quote.feed c) text

theorem Passage.plain_eq {mode after : Mode} {text plain : List Cell}
    (h : Passage mode text plain after) : plain = codeCells mode.quote (Mask.reveal plain) := by
  induction h with
  | nil => rfl
  | cell _ ih => exact congrArg _ ih
  | line _ _ ih => exact congrArg _ ih
  | last => rfl

theorem cells_blank (text : List Char) :
    Mask.cells (blank text) = codeCells .outside (blank text) := by
  obtain ⟨after, hpassage⟩ := passage_cells text
  have hplain := hpassage.plain_eq
  rwa [Mask.reveal_cells] at hplain

theorem closingFrom_codeCells (quote : Quote) (opened index : Nat) (text : List Char) :
    closingFrom (quoteOf quote.section?) opened index (codeCells quote text) =
      closingFrom quote opened index text := by
  induction text generalizing quote opened index with
  | nil => rfl
  | cons c rest ih =>
      have hquoted : ∀ d, quote.section? = some d → quote.isQuoted := by
        intro d hd
        cases quote with
        | outside => cases hd
        | _ => rfl
      rw [codeCells]
      rcases cellAt_cases quote c with
        ⟨rfl, hfeed, -, hcell⟩ | ⟨d, rfl, hfeed, rfl, hcell⟩ |
        ⟨d, hquote, hfeed, hcell⟩ | ⟨d, hquote, hfeed, rfl, hcell⟩
      · have hvisible : shown (⟨c, false⟩ : Cell) = shown c := rfl
        have hrest := ih .outside
        rw [hcell, hfeed]
        simp only [Quote.section?, quoteOf, Option.elim_none] at hrest ⊢
        simp only [closingFrom, hvisible, shown_char, hfeed, hrest]
      · have hrest := ih (.inside d) opened (index + 1)
        rw [hcell, hfeed]
        refine (closingFrom_delimiter rfl opened index _).trans (hrest.trans ?_)
        exact (closingFrom_delimiter rfl opened index rest).symm
      · have hrest := ih (quote.feed c) opened (index + 1)
        rw [hcell, hquote, closingFrom_quoted (hquoted d hquote)]
        rw [hfeed] at hrest
        exact (closingFrom_blank rfl d opened index _).trans hrest
      · have hrest := ih .outside opened (index + 1)
        rw [hcell, hquote, closingFrom_quoted (hquoted d hquote), shown_char, hfeed]
        exact (closingFrom_inside_delimiter rfl opened index _).trans hrest

theorem closing?_codeCells (text : List Char) :
    closing? (codeCells .outside text) = closing? text := by
  have hhead : (codeCells .outside text).head?.map shown = text.head?.map shown := by
    cases text <;> rfl
  have hfrom : closingFrom .outside 0 0 (codeCells .outside text) = closingFrom .outside 0 0 text :=
    closingFrom_codeCells .outside 0 0 text
  rw [closing?, closing?, hhead, hfrom]

end Comment

end SchemaReader.Scan

import SchemaReader.Proofs.Canonical.Cells
import SchemaReader.Proofs.Reading.Numeral
import SchemaReader.Reading.File

/-!
# The tails of canonical columns

Keywords are searched in the masked tail.  On the words and literals of a
canonical tail that search is a plain search in a list, and each literal is read
back as the text it was written from.
-/

namespace SchemaReader.Canonical

open SchemaReader.Reading SchemaReader.Scan SchemaReader.Text

def afterWords? : List Word → List Item → Option (List Item)
  | [], items => some items
  | k :: phrase, .word w :: items => if k = w then afterWords? phrase items else none
  | _ :: _, _ => none

def findItems (phrase : List Word) : List Item → Option (List Item)
  | [] => none
  | item :: items => (afterWords? phrase (item :: items)).or (findItems phrase items)

theorem afterKeyword?_word (k w : Word) (rest : List Cell) :
    afterKeyword? .anyCase k.text.toList (visible w.text.toList ++ rest) =
      if k = w then some rest else none := by
  cases k <;> cases w <;> rfl

theorem afterKeyword?_gap (k : Word) {d : Delimiter} {x : Cell}
    (hx : shown x = ' ' ∨ shown x = d.char) (rest : List Cell) :
    afterKeyword? .anyCase k.text.toList (x :: rest) = none := by
  obtain ⟨capital, keyword, htext, hmeets⟩ : ∃ capital keyword,
      k.text.toList = capital :: keyword ∧ Letters.anyCase.meets capital (shown x) = false := by
    rcases hx with hx | hx
    · rw [hx]
      cases k <;> exact ⟨_, _, rfl, rfl⟩
    · rw [hx]
      cases k <;> cases d <;> exact ⟨_, _, rfl, rfl⟩
  rw [htext, afterKeyword?, hmeets]
  rfl

theorem dropBlanks_item (item : Item) (rest : List Cell) :
    dropBlanks (item.cells ++ rest) = item.cells ++ rest := by
  cases item with
  | word w => cases w <;> rfl
  | literal l =>
      have hquote : isBlankAt (⟨l.delimiter.char, false⟩ : Cell) = false := by
        cases l.delimiter <;> rfl
      simp [Item.cells, Literal.cells, visible, dropBlanks, hquote]

theorem isBoundary_spaced (items : List Item) : isBoundary (headShown (spaced items)) := by
  cases items <;> rfl

theorem afterKeywords?_items (k : Word) (phrase : List Word) (item : Item) (items : List Item) :
    afterKeywords? .anyCase ((k :: phrase).map Word.text) (item.cells ++ spaced items) =
      (afterWords? (k :: phrase) (item :: items)).map spaced := by
  induction phrase generalizing k item items with
  | nil =>
      cases item with
      | word w =>
          rw [List.map_singleton, afterKeywords?, Item.cells, afterKeyword?_word, afterWords?]
          by_cases hw : k = w <;> simp [hw, afterWords?]
      | literal l => exact afterKeyword?_gap k (.inr rfl) _
  | cons next phrase ih =>
      rw [List.map_cons, List.map_cons, afterKeywords?]
      · cases item with
        | word w =>
            rw [Item.cells, afterKeyword?_word, afterWords?]
            by_cases hw : k = w
            · rw [if_pos hw, if_pos hw, Option.bind_some]
              cases items with
              | nil => rfl
              | cons following items =>
                  have hblanks : afterBlanks? (spaced (following :: items)) =
                      some (following.cells ++ spaced items) :=
                    congrArg some (dropBlanks_item following (spaced items))
                  rw [hblanks, Option.bind_some]
                  exact ih next following items
            · rw [if_neg hw, if_neg hw]
              rfl
        | literal l =>
            have hgap := afterKeyword?_gap k (x := ⟨l.delimiter.char, false⟩) (.inr rfl)
              (l.inner ++ visible [l.delimiter.char] ++ spaced items)
            have hcells : Item.cells (.literal l) ++ spaced items = ⟨l.delimiter.char, false⟩ ::
                (l.inner ++ visible [l.delimiter.char] ++ spaced items) := rfl
            rw [hcells, hgap]
            rfl
      · simp

theorem afterPhrase?_items (k : Word) (phrase : List Word) (item : Item) (items : List Item) :
    afterPhrase? .anyCase ((k :: phrase).map Word.text) (item.cells ++ spaced items) =
      (afterWords? (k :: phrase) (item :: items)).map spaced := by
  rw [afterPhrase?, afterKeywords?_items]
  cases afterWords? (k :: phrase) (item :: items) with
  | none => rfl
  | some rest => simp [isBoundary_spaced]

theorem afterPhrase?_gap (k : Word) (phrase : List Word) {d : Delimiter} {x : Cell}
    (hx : shown x = ' ' ∨ shown x = d.char) (rest : List Cell) :
    afterPhrase? .anyCase ((k :: phrase).map Word.text) (x :: rest) = none := by
  have hwords : afterKeywords? .anyCase ((k :: phrase).map Word.text) (x :: rest) = none := by
    cases phrase with
    | nil => exact afterKeyword?_gap k hx rest
    | cons next phrase =>
        rw [List.map_cons, List.map_cons, afterKeywords?, afterKeyword?_gap k hx]
        · rfl
        · simp
  rw [afterPhrase?, hwords]
  rfl

theorem findWord_cons {β : Type} {reader : List Cell → Option β} {before : Option Char} {x : Cell}
    {rest : List Cell} (h : isBoundary before → reader (x :: rest) = none) :
    findWord reader before (x :: rest) = findWord reader (some (shown x)) rest := by
  rw [findWord]
  split
  · rename_i hread
    split at hread
    · rw [h ‹_›] at hread
      cases hread
    · cases hread
  · rfl

theorem findWord_gaps (k : Word) (phrase : List Word) {d : Delimiter} {cells : List Cell}
    (hcells : ∀ x ∈ cells, shown x = ' ' ∨ shown x = d.char) (before : Option Char)
    (rest : List Cell) :
    ∃ after, findWord (afterPhrase? .anyCase ((k :: phrase).map Word.text)) before (cells ++ rest) =
      findWord (afterPhrase? .anyCase ((k :: phrase).map Word.text)) after rest := by
  induction cells generalizing before with
  | nil => exact ⟨before, rfl⟩
  | cons x cells ih =>
      have hx := hcells x (by simp)
      obtain ⟨after, hafter⟩ := ih (fun y hy => hcells y (by simp [hy])) (some (shown x))
      refine ⟨after, ?_⟩
      rw [List.cons_append, findWord_cons fun _ => afterPhrase?_gap k phrase hx _, hafter]

theorem findWord_inside {β : Type} (reader : List Cell → Option β) {c : Char} {text : List Char}
    (htext : (c :: text).all isWord) (rest : List Cell) :
    ∃ after, findWord reader (some c) (visible text ++ rest) = findWord reader after rest := by
  induction text generalizing c with
  | nil => exact ⟨some c, rfl⟩
  | cons e text ih =>
      rw [List.all_cons, Bool.and_eq_true] at htext
      obtain ⟨after, hafter⟩ := ih htext.2
      refine ⟨after, Eq.trans (findWord_cons ?_) hafter⟩
      intro hbefore
      simp [isBoundary, htext.1] at hbefore

theorem findWord_spaced (k : Word) (phrase : List Word) (items : List Item)
    (before : Option Char) :
    findWord (afterPhrase? .anyCase ((k :: phrase).map Word.text)) before (spaced items) =
      (findItems (k :: phrase) items).map spaced := by
  induction items generalizing before with
  | nil => rfl
  | cons item items ih =>
      have hblank : ∀ x : Cell, shown x = ' ' → shown x = ' ' ∨ shown x = Delimiter.single.char :=
        fun _ hx => .inl hx
      have hread := afterPhrase?_items k phrase item items
      rw [spaced_cons, List.cons_append, findWord_cons fun _ =>
        afterPhrase?_gap k phrase (hblank ⟨' ', false⟩ rfl) _, findItems]
      cases item with
      | word w =>
          obtain ⟨c, text, hw⟩ : ∃ c text, w.text.toList = c :: text := by
            cases w <;> exact ⟨_, _, rfl⟩
          have hword : w.text.toList.all isWord := by cases w <;> rfl
          rw [hw] at hword
          rw [Item.cells, hw] at hread ⊢
          -- A phrase that does not start with the word cannot start inside it either.
          cases hfound : afterWords? (k :: phrase) (.word w :: items) with
          | some rest =>
              rw [hfound] at hread
              have hboundary : isBoundary (some (shown (⟨' ', false⟩ : Cell))) := rfl
              simp only [visible, List.map_cons, List.cons_append] at hread ⊢
              rw [findWord, if_pos hboundary, hread]
              rfl
          | none =>
              rw [hfound] at hread
              obtain ⟨after, hafter⟩ := findWord_inside
                (afterPhrase? .anyCase ((k :: phrase).map Word.text)) hword (spaced items)
              refine Eq.trans (findWord_cons fun _ => hread) ?_
              exact hafter.trans (ih after)
      | literal l =>
          -- Of a literal only blanks and quotes are visible.
          obtain ⟨after, hafter⟩ := findWord_gaps k phrase (fun x hx => l.shown_of_mem hx)
            (some ' ') (spaced items)
          exact hafter.trans (ih after)

theorem mentions_spaced (k : Word) (phrase : List Word) (items : List Item) :
    mentions ((k :: phrase).map Word.text) (spaced items) =
      (findItems (k :: phrase) items).isSome := by
  rw [mentions, afterFirst?, findWord_spaced]
  cases findItems (k :: phrase) items <;> rfl

theorem tailAfter?_spaced (k : Word) (items : List Item) :
    tailAfter? k.text (spaced items) =
      (findItems [k] items).map fun rest => dropBlanks (spaced rest) := by
  have hfind := findWord_spaced k [] items none
  rw [List.map_singleton] at hfind
  rw [tailAfter?, afterFirst?, hfind, Option.map_map]
  rfl

theorem readBody_escape {quote : Char} (hquote : quote ≠ '\\') (content : List Char) (index : Nat)
    (c : Char) (rest : List Char) (hrest : rest ≠ []) :
    ∃ next, Scan.Literal.readBody quote content index (escape quote c ++ rest) =
      Scan.Literal.readBody quote (c :: content) next rest := by
  unfold escape
  by_cases hslash : c = '\\'
  · refine ⟨index + 2, ?_⟩
    rw [if_pos (.inl hslash), hslash, List.cons_append, List.singleton_append,
      Scan.Literal.readBody, if_pos rfl]
    rfl
  · by_cases hc : c = quote
    · refine ⟨index + 2, ?_⟩
      rw [if_pos (.inr hc), hc, List.cons_append, List.singleton_append, Scan.Literal.readBody,
        if_neg hquote, if_pos rfl, if_pos rfl]
    · obtain ⟨d, rest, rfl⟩ := List.exists_cons_of_ne_nil hrest
      refine ⟨index + 1, ?_⟩
      rw [if_neg (by simp [hslash, hc]), List.singleton_append, Scan.Literal.readBody,
        if_neg hslash, if_neg hc]

theorem readBody_escapes {quote : Char} (hquote : quote ≠ '\\') (content : List Char)
    (index : Nat) (text rest : List Char) (hrest : rest.head? ≠ some quote) :
    ∃ size, Scan.Literal.readBody quote content index
      (text.flatMap (escape quote) ++ quote :: rest) = some (content.reverse ++ text, size) := by
  induction text generalizing content index with
  | nil =>
      refine ⟨index + 1, ?_⟩
      cases rest with
      | nil => simp [Scan.Literal.readBody]
      | cons d rest =>
          have hd : d ≠ quote := by simpa using hrest
          simp [Scan.Literal.readBody, hquote, hd]
  | cons c text ih =>
      obtain ⟨next, hnext⟩ := readBody_escape hquote content index c
        (text.flatMap (escape quote) ++ quote :: rest) (by simp)
      obtain ⟨size, hsize⟩ := ih (c :: content) next
      refine ⟨size, ?_⟩
      rw [List.flatMap_cons, List.append_assoc, hnext, hsize]
      simp

theorem Literal.read?_write (literal : Literal) {rest : List Char}
    (hrest : rest.head? ≠ some literal.delimiter.char) :
    ∃ size, Scan.Literal.read? (literal.write ++ rest) = some (literal.text, size) := by
  have hquote : literal.delimiter.char ≠ '\\' := by cases literal.delimiter <;> decide
  have hopens : (Delimiter.ofLiteral? literal.delimiter.char).isSome := by
    have hd := literal.escapes
    cases hdelimiter : literal.delimiter with
    | backtick => simp [hdelimiter, Delimiter.escapes] at hd
    | single => rfl
    | double => rfl
  obtain ⟨size, hsize⟩ := readBody_escapes hquote [] 1 literal.text rest hrest
  refine ⟨size, ?_⟩
  rw [write, List.append_assoc, List.cons_append, Scan.Literal.read?, if_pos hopens,
    List.singleton_append, hsize]
  rfl

theorem dropBlanks_spaced (item : Item) (items : List Item) :
    dropBlanks (spaced (item :: items)) = item.cells ++ spaced items :=
  dropBlanks_item item (spaced items)

theorem Literal.read?_items (literal : Literal) (items : List Item) :
    ∃ size, Scan.Literal.read? (Mask.reveal (literal.cells ++ spaced items)) =
      some (literal.text, size) := by
  rw [Mask.reveal_append, Literal.reveal_cells]
  apply literal.read?_write
  cases items with
  | nil => simp [spaced, Mask.reveal]
  | cons item items =>
      simp only [spaced_cons, Mask.reveal, List.cons_append, List.map_cons, List.head?_cons, ne_eq,
        Option.some.injEq]
      cases literal.delimiter <;> decide

theorem Literal.afterEquals_cells (literal : Literal) (rest : List Cell) :
    afterEquals (literal.cells ++ rest) = literal.cells ++ rest := by
  have hne : literal.delimiter.char ≠ '=' := by cases literal.delimiter <;> decide
  exact if_neg hne

theorem DecimalText.value_eq {d : DecimalText} (h : IsDigits d.whole)
    (hbound : d.whole.length ≤ Number.maxDigits) : d.value = .ok (decimalValue d) := by
  have hread := Number.readNatural_of_digits h.ne_nil h.digits hbound
  unfold DecimalText.value decimalValue
  cases d.fraction with
  | none => simp only [hread]; rfl
  | some fraction => rfl

theorem convertDefault_eq {text : List Char} (h : text.length ≤ Number.maxDigits) :
    convertDefault text = .ok (storedDefault text) := by
  unfold convertDefault storedDefault
  split
  · rfl
  · cases hread : decimalText? text with
    | none => rfl
    | some d =>
        obtain ⟨hdigits, hlength⟩ := isDigits_of_decimalText? hread
        exact DecimalText.value_eq hdigits (by omega)

theorem readDefault_items {items rest : List Item} {literal : Literal}
    (hfind : findItems [.default] items = some (.literal literal :: rest))
    (h : literal.text.length ≤ Number.maxDigits) :
    readDefault (Mask.reveal (spaced items)) = .ok (some (storedDefault literal.text)) := by
  have htail : tailAfter? "DEFAULT" (Mask.cells (Mask.reveal (spaced items))) =
      some (literal.cells ++ spaced rest) := by
    rw [(seen_spaced items).mask]
    refine (tailAfter?_spaced .default items).trans ?_
    rw [hfind, Option.map_some, dropBlanks_spaced]
    rfl
  obtain ⟨size, hread⟩ := literal.read?_items rest
  simp only [readDefault, htail, hread, convertDefault_eq h]
  rfl

end SchemaReader.Canonical

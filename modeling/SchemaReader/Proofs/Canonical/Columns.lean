import SchemaReader.Proofs.Canonical.Clauses
import SchemaReader.Proofs.Canonical.Tails

/-!
# The columns of a canonical table

The clause of a column is cut into its name, its type and its tail, the type is
read from its token, and the words and literals of the tail give the flags, the
default and the comment.
-/

namespace SchemaReader.Text

theorem toNat_of_isWordAscii {c : Char} (h : isWordAscii c) :
    (48 ≤ c.toNat ∧ c.toNat ≤ 57) ∨ (65 ≤ c.toNat ∧ c.toNat ≤ 90) ∨ c.toNat = 95 ∨
      (97 ≤ c.toNat ∧ c.toNat ≤ 122) := by
  have hkind : (((c.isUpper || c.isLower) || c.isDigit) || c == '_') = true := h
  have hbounds : ∀ low high : UInt32, (decide (low ≤ c.val) && decide (c.val ≤ high)) = true →
      low.toNat ≤ c.toNat ∧ c.toNat ≤ high.toNat := by
    intro low high hrange
    simpa [UInt32.le_iff_toNat_le] using hrange
  rw [Bool.or_eq_true, Bool.or_eq_true, Bool.or_eq_true, beq_iff_eq] at hkind
  rcases hkind with ((hupper | hlower) | hdigit) | rfl
  · have hrange : 'A'.val ≤ c.val ∧ c.val ≤ 'Z'.val := of_decide_eq_true hupper
    exact .inr (.inl (hbounds 'A'.val 'Z'.val (by simpa using hrange)))
  · exact .inr (.inr (.inr (hbounds 'a'.val 'z'.val hlower)))
  · exact .inl (hbounds '0'.val '9'.val hdigit)
  · decide

theorem isBlank_of_isWordAscii {c : Char} (h : isWordAscii c) : isBlank c = false := by
  have hbounds := toNat_of_isWordAscii h
  simp only [isBlank, Bool.or_eq_false_iff, Bool.and_eq_false_iff, decide_eq_false_iff_not,
    beq_eq_false_iff_ne]
  omega

theorem upper_of_isWordAscii {text : List Char} (h : text.all isWordAscii) :
    upper text = text.map Char.toUpper := by
  induction text with
  | nil => rfl
  | cons c text ih =>
      rw [List.all_cons, Bool.and_eq_true] at h
      have hbounds := toNat_of_isWordAscii h.1
      have hascii : c.toNat < 128 := by omega
      rw [upper, List.flatMap_cons, upperChar, if_pos hascii]
      exact congrArg _ (ih h.2)

end SchemaReader.Text

namespace SchemaReader.Canonical

open SchemaReader.Reading SchemaReader.Scan SchemaReader.Text

namespace TypeToken

theorem level_of_mem_length? {token : TypeToken} {length : List Char}
    (h : length ∈ token.length?) : Level length :=
  level_of_isLevel (List.all_eq_true.1 (isLevel_length h))

theorem isBlank_of_mem_length? {token : TypeToken} {length : List Char}
    (h : length ∈ token.length?) : ∀ c ∈ length, isBlank c = false := by
  intro c hc
  rcases of_mem_length? h c hc with hc | rfl
  · exact isBlank_of_isWordAscii hc
  · rfl

theorem trim_write (token : TypeToken) : trim token.write = token.write := by
  apply (trimmed_of_forall _).trim_eq
  intro c hc
  rcases of_mem_write hc with hc | rfl | rfl | rfl
  · exact isBlank_of_isWordAscii hc
  · rfl
  · rfl
  · rfl

theorem span_write {p : Char → Bool} (token : TypeToken) (rest : List Char)
    (hword : ∀ c, isWordAscii c → p c) (hparen : p '(' = false)
    (hrest : ∀ c ∈ rest.head?, p c = false) :
    (token.write ++ rest).takeWhile p = token.name ∧
      (token.write ++ rest).dropWhile p = token.suffix ++ rest := by
  rw [write, List.append_assoc]
  apply span_append
  · exact fun c hc => hword c (List.all_eq_true.1 token.all_name c hc)
  · intro c hc
    unfold suffix at hc
    cases hlength : token.length? with
    | none =>
        rw [hlength] at hc
        exact hrest c hc
    | some length =>
        rw [hlength] at hc
        obtain rfl : '(' = c := by simpa using hc
        exact hparen

theorem parenthesised?_suffix (token : TypeToken) :
    parenthesised? token.suffix = token.length?.map (·, []) := by
  unfold suffix
  cases hlength : token.length? with
  | none => rfl
  | some length =>
      exact parenthesised?_of_level (x := '(') (y := ')') (level_of_mem_length? hlength) rfl rfl []

theorem after_write (token : TypeToken) : Quote.outside.after token.write = .outside := by
  have hafter : ∀ text : List Char, (∀ c ∈ text, isPlain c) →
      Quote.outside.after text = .outside := by
    intro text h
    induction text with
    | nil => rfl
    | cons c text ih =>
        have hc : (Delimiter.ofChar? c = none ∧ c ≠ '-') ∧ c ≠ '/' := by
          simpa [isPlain] using h c (by simp)
        have hfeed : Quote.outside.feed c = .outside := by
          rw [Quote.feed_outside, hc.1.1]
          rfl
        rw [Quote.after, List.foldl_cons, hfeed]
        exact ih fun d hd => h d (by simp [hd])
  exact hafter token.write fun c hc => isPlain_of_mem_write hc

theorem trimLeft_suffix (token : TypeToken) : trimLeft token.suffix = token.suffix := by
  unfold suffix
  cases token.length? <;> rfl

theorem family_write (token : TypeToken) :
    Schema.TypeFamily.ofToken token.write =
      .ofTypeName (String.ofList (token.name.map Char.toUpper)) := by
  have hspan := token.span_write (p := Schema.isTypeWordChar) [] (by
    intro c hc
    simp only [Schema.isTypeWordChar]
    simp only [isWordAscii] at hc
    simp [hc]) rfl (by simp)
  rw [List.append_nil, List.append_nil] at hspan
  have hlength : Schema.afterLength? token.suffix = some [] := by
    have hparens := token.parenthesised?_suffix
    unfold suffix at hparens ⊢
    cases hlength : token.length? with
    | none => rfl
    | some length =>
        rw [hlength] at hparens
        simp only [Option.elim_some, List.cons_append] at hparens ⊢
        simp [Schema.afterLength?, hparens]
  have halpha : token.write.head?.any Char.isAlpha = true := by
    simp [write, name, token.alpha]
  have hupper := upper_of_isWordAscii token.all_name
  rw [Schema.TypeFamily.ofToken, after_write, halpha, hspan.1, hspan.2, trimLeft_suffix, hlength,
    ← hupper]
  rfl

theorem ofToken_write (token : TypeToken) :
    Schema.ColumnType.ofToken token.write = token.stored := by
  have hspan := token.span_write (p := Schema.isTypeNameChar) [] (fun _ hc => hc) rfl (by simp)
  rw [List.append_nil, List.append_nil] at hspan
  have halpha : token.write.head?.any Char.isAlpha = true := by
    simp [write, name, token.alpha]
  have hlength : Schema.lengthText? token.suffix = token.length? := by
    rw [Schema.lengthText?, parenthesised?_suffix]
    cases hlength : token.length? with
    | none => rfl
    | some length =>
        exact congrArg some (trimmed_of_forall (isBlank_of_mem_length? hlength)).trim_eq
  have hupper := upper_of_isWordAscii token.all_name
  rw [Schema.ColumnType.ofToken, trim_write]
  simp only [halpha, if_true, hspan.1, hspan.2, trimLeft_suffix, hlength, family_write, hupper]
  rfl

theorem splitType_write (token : TypeToken) {c : Char} (hblank : isBlank c = false)
    (hparen : c ≠ '(') (rest : List Char) :
    splitType (token.write ++ ' ' :: c :: rest) = (token.write, ' ' :: c :: rest) := by
  have hspan := token.span_write (p := isTypeChar) (' ' :: c :: rest) (by
    intro d hd
    have hne : d ≠ '(' := ne_of_isWordAscii hd rfl
    simp [isTypeChar, isBlank_of_isWordAscii hd, hne]) rfl (by
      intro d hd
      obtain rfl : ' ' = d := by simpa using hd
      rfl)
  rw [splitType]
  simp only [hspan.1, hspan.2]
  unfold write suffix
  cases hlength : token.length? with
  | none =>
      have hclosing : closing? (c :: rest) = none := by
        simp [closing?, hparen]
      have hspace : isBlank ' ' = true := rfl
      simp [hspace, hblank, hclosing]
  | some length =>
      have hclosing := closing?_of_level (x := '(') (y := ')') (level_of_mem_length? hlength)
        rfl rfl (' ' :: c :: rest)
      have hopen : isBlank '(' = false := rfl
      have htake : (length ++ ')' :: ' ' :: c :: rest).take (length.length + 1) =
          length ++ [')'] := by
        rw [List.take_length_add_append]
        rfl
      simp only [List.cons_append] at hclosing
      simp [hopen, hclosing, htake]

end TypeToken

namespace Column

theorem exists_tail (column : Column) :
    ∃ c rest, column.tail = ' ' :: c :: rest ∧ isBlank c = false ∧ c ≠ '(' := by
  obtain ⟨w, items, hitems⟩ : ∃ w items, column.items = .word w :: items := by
    unfold items
    cases column.notNull <;> cases column.autoIncrement <;> cases column.primaryKey <;>
      cases column.default <;> exact ⟨_, _, rfl⟩
  obtain ⟨c, text, hw, hblank, hparen⟩ :
      ∃ c text, w.text.toList = c :: text ∧ isBlank c = false ∧ c ≠ '(' := by
    cases w <;> exact ⟨_, _, rfl, by decide, by decide⟩
  refine ⟨c, text ++ Mask.reveal (spaced items), ?_, hblank, hparen⟩
  rw [← reveal_items, hitems, spaced_cons, Mask.reveal_append, Item.cells, hw]
  simp [Mask.reveal, visible, Function.comp_def]

theorem write_eq (column : Column) :
    column.write = column.name.write ++ ' ' :: (column.type.write ++ column.tail) := by
  simp [write]

theorem trim_write (column : Column) : trim column.write = column.write :=
  column.trimmed_write.trim_eq

theorem afterBlanks?_type (column : Column) :
    afterBlanks? (' ' :: (column.type.write ++ column.tail)) =
      some (column.type.write ++ column.tail) := by
  have hfirst : isBlankAt column.type.first = false :=
    isBlank_of_isWordAscii column.type.isWordAscii_first
  have hdrop : dropBlanks (column.type.write ++ column.tail) =
      column.type.write ++ column.tail := by
    rw [TypeToken.write, TypeToken.name]
    simp [dropBlanks, hfirst]
  exact congrArg some hdrop

theorem columnHead?_write (column : Column) :
    columnHead? column.write = some ⟨column.name.chars, column.type.write, column.tail⟩ := by
  obtain ⟨c, rest, htail, hblank, hparen⟩ := column.exists_tail
  have hsplit : splitType (column.type.write ++ column.tail) =
      (column.type.write, column.tail) := by
    rw [htail]
    exact column.type.splitType_write hblank hparen rest
  have htype : column.type.write.head?.all (!isTypeChar ·) = false := by
    have hword := column.type.isWordAscii_first
    have hne : column.type.first ≠ '(' := ne_of_isWordAscii hword rfl
    simp [TypeToken.write, TypeToken.name, isTypeChar, isBlank_of_isWordAscii hword, hne]
  have hname : column.name.chars.isEmpty = false := by
    simpa using column.name.ne_nil
  rw [columnHead?, trim_write, write_eq, Name.name?_write, Option.bind_some]
  simp only [afterBlanks?_type, Option.bind_some, hsplit, Name.unquote_write, htype, hname]
  rfl

theorem ofClause_write (column : Column) : ClauseKind.ofClause column.write = .column := by
  have hconstraint : ∀ rest, ClauseKind.startsConstraint (upper ('`' :: rest)) = false :=
    fun _ => rfl
  have hquote : column.write = '`' :: (column.name.chars ++ '`' :: ' ' ::
      (column.type.write ++ column.tail)) := by
    simp [write_eq, Name.write]
  have hcolumn : ClauseKind.startsColumn column.write = true := by
    simp only [ClauseKind.startsColumn, write_eq, Name.name?_write, Option.bind_some,
      afterBlanks?_type, Option.isSome_some]
  have hkind : ClauseKind.startsConstraint (upper column.write) = false := by
    rw [hquote]
    exact hconstraint _
  rw [ClauseKind.ofClause, trim_write, hkind, hcolumn]
  rfl

theorem cells_tail (column : Column) : Mask.cells column.tail = spaced column.items := by
  rw [← reveal_items]
  exact (seen_spaced column.items).mask

/-- Each phrase stands in the tail just where the column was written with it. -/
theorem findItems_items (column : Column) :
    (findItems [.not, .null] column.items).isSome = column.notNull ∧
      (findItems [.autoIncrement] column.items).isSome = column.autoIncrement ∧
      (findItems [.joinedIncrement] column.items).isSome = false ∧
      (findItems [.primary, .key] column.items).isSome = column.primaryKey ∧
      findItems [.default] column.items =
        column.default.map (fun literal =>
          [.literal literal, .word .comment, .literal column.comment]) ∧
      findItems [.comment] column.items = some [.literal column.comment] := by
  unfold items
  cases column.notNull <;> cases column.autoIncrement <;> cases column.primaryKey <;>
    cases column.default <;> exact ⟨rfl, rfl, rfl, rfl, rfl, rfl⟩

theorem readDefault_tail (column : Column) :
    readDefault column.tail = .ok (column.default.map (storedDefault ·.text)) := by
  obtain ⟨-, -, -, -, hfind, -⟩ := column.findItems_items
  cases hdefault : column.default with
  | none =>
      have htail : tailAfter? "DEFAULT" (Mask.cells column.tail) = none := by
        rw [cells_tail]
        refine (tailAfter?_spaced .default column.items).trans ?_
        rw [hfind, hdefault]
        rfl
      rw [readDefault, htail]
      rfl
  | some literal =>
      rw [hdefault] at hfind
      rw [← reveal_items]
      exact readDefault_items hfind (column.bounded literal (by simp [hdefault]))

theorem readComment_tail (column : Column) : readComment column.tail = column.comment.text := by
  obtain ⟨-, -, -, -, -, hfind⟩ := column.findItems_items
  have htail : tailAfter? "COMMENT" (Mask.cells column.tail) =
      (findItems [.comment] column.items).map fun rest => dropBlanks (spaced rest) := by
    rw [cells_tail]
    exact tailAfter?_spaced .comment column.items
  obtain ⟨size, hread⟩ := column.comment.read?_items []
  simp only [readComment, htail, hfind, Option.map_some, dropBlanks_spaced, Item.cells,
    Literal.afterEquals_cells, hread]

theorem readColumn_write (includeComments : Bool) (column : Column) :
    readColumn ⟨includeComments, false⟩ column.write =
      .ok (some (column.stored includeComments)) := by
  obtain ⟨hnull, hincrement, hjoined, hkey, -, -⟩ := column.findItems_items
  have hnotNull := mentions_spaced .not [.null] column.items
  have hauto := mentions_spaced .autoIncrement [] column.items
  have hother := mentions_spaced .joinedIncrement [] column.items
  have hprimary := mentions_spaced .primary [.key] column.items
  rw [hnull] at hnotNull
  rw [hincrement] at hauto
  rw [hjoined] at hother
  rw [hkey] at hprimary
  simp only [List.map_cons, List.map_nil, Word.text] at hnotNull hauto hother hprimary
  simp only [readColumn, columnHead?_write, ColumnHead.read, readComment_tail, readDefault_tail,
    cells_tail, hnotNull, hauto, hother, hprimary, TypeToken.ofToken_write]
  simp [stored, Except.map, pure, bind, Except.bind, Except.pure]

end Column

end SchemaReader.Canonical

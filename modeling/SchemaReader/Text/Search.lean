import SchemaReader.Text.Character

/-!
Cutting texts at separators, and searching them for keywords.

Keywords and names are searched in two kinds of text: plain characters, and characters some of which
are hidden from the search.  Keywords are given in capitals.  Under `Letters.anyCase` a capital is
also met by the small letter, by the dotted and the dotless `i`, by the long `s` and by the Kelvin
sign.
-/

namespace SchemaReader.Text

def splitFrom {α : Type} (isSeparator : α → Bool) (out : List (List α)) (piece : List α) :
    List α → List (List α)
  | [] => (piece.reverse :: out).reverse
  | c :: rest =>
      if isSeparator c then splitFrom isSeparator (piece.reverse :: out) [] rest
      else splitFrom isSeparator out (c :: piece) rest

/-- The pieces between separators, empty ones included: `n` separators give `n + 1` pieces. -/
def splitAtChars {α : Type} (isSeparator : α → Bool) (text : List α) : List (List α) :=
  splitFrom isSeparator [] [] text

class Shown (α : Type) where
  shown : α → Char

export Shown (shown)

instance : Shown Char := ⟨id⟩

@[simp]
theorem shown_char (c : Char) : shown c = c := rfl

structure Cell where
  char : Char
  hidden : Bool
  deriving DecidableEq, Repr

def Cell.shown (cell : Cell) : Char :=
  if cell.hidden then ' ' else cell.char

instance : Shown Cell := ⟨Cell.shown⟩

variable {α : Type} [Shown α]

def isBlankAt (x : α) : Bool := isBlank (shown x)

def dropBlanks (text : List α) : List α := text.dropWhile isBlankAt

def afterBlanks? : List α → Option (List α)
  | [] => none
  | x :: rest => if isBlankAt x then some (dropBlanks rest) else none

theorem dropBlanks_suffix (text : List α) : dropBlanks text <:+ text :=
  List.dropWhile_suffix _

theorem afterBlanks?_suffix {text rest : List α} (h : afterBlanks? text = some rest) :
    rest <:+ text := by
  unfold afterBlanks? at h
  split at h
  · simp at h
  · split at h
    · simp only [Option.some.injEq] at h
      exact h ▸ (dropBlanks_suffix _).trans (List.suffix_cons _ _)
    · simp at h

def headShown (text : List α) : Option Char := text.head?.map shown

inductive Letters where
  | exact
  | anyCase
  deriving DecidableEq, Repr

/-- Letters beyond ASCII that meet a capital when case does not matter. -/
def isVariantOf (capital c : Char) : Bool :=
  (capital == 'I' && (c.toNat == 0x130 || c.toNat == 0x131)) ||
    (capital == 'S' && c.toNat == 0x17F) || (capital == 'K' && c.toNat == 0x212A)

def Letters.meets (letters : Letters) (capital c : Char) : Bool :=
  match letters with
  | .exact => capital == c
  | .anyCase => capital == c.toUpper || isVariantOf capital c

def afterKeyword? (letters : Letters) : List Char → List α → Option (List α)
  | [], text => some text
  | _ :: _, [] => none
  | k :: keyword, x :: rest =>
      if letters.meets k (shown x) then afterKeyword? letters keyword rest else none

theorem afterKeyword?_suffix {letters : Letters} {keyword : List Char} {text rest : List α}
    (h : afterKeyword? letters keyword text = some rest) : rest <:+ text := by
  fun_induction afterKeyword? letters keyword text with
  | case1 => simp_all
  | case2 => simp at h
  | case3 _ _ _ _ _ ih => exact (ih h).trans (List.suffix_cons _ _)
  | case4 => simp at h

def afterKeywords? (letters : Letters) : List String → List α → Option (List α)
  | [], text => some text
  | [keyword], text => afterKeyword? letters keyword.toList text
  | keyword :: keywords, text =>
      (afterKeyword? letters keyword.toList text).bind fun rest =>
        (afterBlanks? rest).bind (afterKeywords? letters keywords)

theorem afterKeywords?_suffix {letters : Letters} {keywords : List String} {text rest : List α}
    (h : afterKeywords? letters keywords text = some rest) : rest <:+ text := by
  induction keywords generalizing text with
  | nil => simp_all [afterKeywords?]
  | cons keyword keywords ih =>
      cases keywords with
      | nil => exact afterKeyword?_suffix h
      | cons next keywords =>
          simp only [afterKeywords?, Option.bind_eq_some_iff] at h
          obtain ⟨_, h₁, _, h₂, h₃⟩ := h
          exact (ih h₃).trans ((afterBlanks?_suffix h₂).trans (afterKeyword?_suffix h₁))

/-- The text after the keywords, the last of which ends its word. -/
def afterPhrase? (letters : Letters) (keywords : List String) (text : List α) : Option (List α) :=
  (afterKeywords? letters keywords text).filter fun rest => isBoundary (headShown rest)

/--
The answer of `reader` at the first place where a word may start and `reader` answers.  `before` is
what stands before the text.
-/
def findWord {β : Type} (reader : List α → Option β) (before : Option Char) :
    List α → Option β
  | [] => none
  | x :: rest =>
      match if isBoundary before then reader (x :: rest) else none with
      | some found => some found
      | none => findWord reader (some (shown x)) rest

def afterFirst? (keywords : List String) (text : List α) : Option (List α) :=
  findWord (afterPhrase? .anyCase keywords) none text

def mentions (keywords : List String) (text : List α) : Bool :=
  (afterFirst? keywords text).isSome

end SchemaReader.Text

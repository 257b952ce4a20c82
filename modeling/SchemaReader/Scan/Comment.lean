import SchemaReader.Scan.Quote
import SchemaReader.Text.Case
import SchemaReader.Text.Search

/-!
Scans that strip comments and hide what keywords must not be searched in.

Both are transducers, which walk over a text with a state and see one character ahead.  A block
comment becomes one space, and a line comment disappears up to its line break.  A line comment
outside parentheses that speaks of a table is a description of the author's and may be kept.
Nothing is a comment inside quotes.  A mask hides the inside of quoted sections and line comments,
and leaves every character where it is.
-/

namespace SchemaReader.Scan

structure Transducer (σ β : Type) where
  step : σ → Char → Option Char → σ × List β
  /-- What is still to be written when the text ends. -/
  finish : σ → List β

namespace Transducer

variable {σ β : Type}

def collect (t : Transducer σ β) (s : σ) (out : List β) : List Char → List β
  | [] => out.reverse ++ t.finish s
  | c :: rest =>
      t.collect (t.step s c rest.head?).1 ((t.step s c rest.head?).2.reverseAux out) rest

def run (t : Transducer σ β) (s : σ) (text : List Char) : List β := t.collect s [] text

theorem collect_eq (t : Transducer σ β) (s : σ) (out : List β) (text : List Char) :
    t.collect s out text = out.reverse ++ t.run s text := by
  induction text generalizing s out with
  | nil => simp [run, collect]
  | cons c rest ih =>
      simp only [run, collect]
      rw [ih, ih _ (List.reverseAux _ [])]
      simp [List.reverseAux_eq]

@[simp]
theorem run_nil (t : Transducer σ β) (s : σ) : t.run s [] = t.finish s := by
  simp [run, collect]

theorem run_cons (t : Transducer σ β) (s : σ) (c : Char) (rest : List Char) :
    t.run s (c :: rest) =
      (t.step s c rest.head?).2 ++ t.run (t.step s c rest.head?).1 rest := by
  rw [run, collect, collect_eq]
  simp [List.reverseAux_eq]

/-- The state after the text, when `next` follows it. -/
def state (t : Transducer σ β) (next : Option Char) (s : σ) : List Char → σ
  | [] => s
  | [c] => (t.step s c next).1
  | c :: d :: rest => t.state next (t.step s c (some d)).1 (d :: rest)

end Transducer

namespace Comment

inductive Mode where
  | code (quote : Quote) (depth : Nat)
  | opening (depth : Nat)
  | block (depth : Nat)
  | closing (depth : Nat)
  /-- In a line comment; `text` is what was read of it, in reverse. -/
  | line (depth : Nat) (text : List Char)

/-- The depth after an unquoted character; a parenthesis that closes nothing counts for nothing. -/
def depthAfter (depth : Nat) (c : Char) : Nat :=
  if c = '(' then depth + 1
  else if c = ')' then depth - 1
  else depth

def stepCode (quote : Quote) (depth : Nat) (c : Char) (next : Option Char) : Mode × List Char :=
  if quote.isQuoted then (.code (quote.feed c) depth, [c])
  else if c = '/' ∧ next = some '*' then (.opening depth, [' '])
  else if c = '-' ∧ next = some '-' then (.line depth [c], [])
  else if quote.covers c then (.code (quote.feed c) depth, [c])
  else (.code (quote.feed c) (depthAfter depth c), [c])

def keptLine (keeps : Nat → List Char → Bool) (depth : Nat) (text : List Char) : List Char :=
  if keeps depth text.reverse then text.reverse else []

def step (keeps : Nat → List Char → Bool) :
    Mode → Char → Option Char → Mode × List Char
  | .code quote depth, c, next => stepCode quote depth c next
  | .opening depth, _, _ => (.block depth, [])
  | .block depth, c, next =>
      if c = '*' ∧ next = some '/' then (.closing depth, []) else (.block depth, [])
  | .closing depth, _, _ => (.code .outside depth, [])
  | .line depth text, c, _ =>
      if c = '\n' then (.code .outside depth, keptLine keeps depth text ++ [c])
      else (.line depth (c :: text), [])

def finish (keeps : Nat → List Char → Bool) : Mode → List Char
  | .line depth text => keptLine keeps depth text
  | _ => []

def stripper (keeps : Nat → List Char → Bool) : Transducer Mode Char :=
  ⟨step keeps, finish keeps⟩

def stripWith (keeps : Nat → List Char → Bool) (text : List Char) : List Char :=
  (stripper keeps).run (.code .outside 0) text

def mentionsTable (comment : List Char) : Bool :=
  let lowered := Text.lower comment
  ['表'].isInfixOf_internal lowered || "table".toList.isInfixOf_internal lowered

def isDescription (depth : Nat) (comment : List Char) : Bool :=
  depth == 0 && mentionsTable comment

/-- The script without its comments, but with the descriptions of tables. -/
def strip (text : List Char) : List Char := stripWith isDescription text

def blank (text : List Char) : List Char := stripWith (fun _ _ => false) text

end Comment

namespace Mask

open SchemaReader.Text (Cell)

inductive Mode where
  | code (quote : Quote)
  | line

def step : Mode → Char → Option Char → Mode × List Cell
  | .code quote, c, next =>
      if quote = .outside ∧ c = '-' ∧ next = some '-' then (.line, [⟨c, true⟩])
      else (.code (quote.feed c), [⟨c, quote.isQuoted && (quote.feed c).isQuoted⟩])
  | .line, c, _ =>
      if c = '\n' then (.code .outside, [⟨c, false⟩]) else (.line, [⟨c, true⟩])

def masker : Transducer Mode Cell := ⟨step, fun _ => []⟩

def cells (text : List Char) : List Cell := masker.run (.code .outside) text

def maskWith (fill text : List Char) : List Char :=
  (cells text).flatMap fun cell => if cell.hidden then fill else [cell.char]

/-- The text as a keyword search sees it. -/
def mask (text : List Char) : List Char := (cells text).map Cell.shown

def reveal (cells : List Cell) : List Char := cells.map Cell.char

end Mask

end SchemaReader.Scan

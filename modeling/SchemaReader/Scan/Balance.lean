import SchemaReader.Scan.Quote

/-!
Checks of a script as a whole: its length, its characters and its parentheses.

Parentheses count outside quotes and comments.  The scan sees no character ahead, so it remembers
the last character of code: two dashes, or a slash and a star, start a comment at their second
character.
-/

namespace SchemaReader.Scan

inductive Defect where
  | tooLong (length : Nat) (limit : Int)
  | nulCharacter
  | tooDeep (depth : Nat)
  | unbalanced
  deriving DecidableEq, Repr

def Defect.message : Defect → String
  | .tooLong length limit => s!"SQL length ({length}) exceeds maximum allowed ({limit})"
  | .nulCharacter => "NULL bytes not allowed in SQL"
  | .tooDeep depth => s!"Excessive nested parentheses (depth {depth})"
  | .unbalanced => "Unbalanced parentheses in SQL"

namespace Balance

def defaultLimit : Int := 512000

def maxDepth : Nat := 100

inductive Region where
  | code (last : Option Char)
  | line
  /-- In a block comment; `starred` when its last character is a star. -/
  | block (starred : Bool)
  | quoted (delimiter : Delimiter)
  | escaped (delimiter : Delimiter)
  deriving DecidableEq, Repr

def stepCode (last : Option Char) (depth : Nat) (c : Char) : Except Defect (Region × Nat) :=
  if last = some '-' ∧ c = '-' then .ok (.line, depth)
  else if last = some '/' ∧ c = '*' then .ok (.block false, depth)
  else match Delimiter.ofChar? c with
    | some d => .ok (.quoted d, depth)
    | none =>
        if c = '(' then
          if maxDepth < depth + 1 then .error (.tooDeep (depth + 1))
          else .ok (.code (some c), depth + 1)
        else if c = ')' then
          if depth = 0 then .error .unbalanced else .ok (.code (some c), depth - 1)
        else .ok (.code (some c), depth)

def step : Region → Nat → Char → Except Defect (Region × Nat)
  | .code last, depth, c => stepCode last depth c
  | .line, depth, c => .ok (if c = '\n' then .code (some c) else .line, depth)
  | .block starred, depth, c =>
      .ok (if starred && c == '/' then .code none else .block (c == '*'), depth)
  | .quoted d, depth, c =>
      .ok (if d.escapes && c == '\\' then .escaped d
        else if c = d.char then .code (some c)
        else .quoted d, depth)
  | .escaped d, depth, _ => .ok (.quoted d, depth)

def parenDefect? (region : Region) (depth : Nat) : List Char → Option Defect
  | [] => if depth = 0 then none else some .unbalanced
  | c :: rest =>
      match step region depth c with
      | .error defect => some defect
      | .ok (region, depth) => parenDefect? region depth rest

/-- The first defect of a script: its length comes first, then its characters, then its shape. -/
def defect? (limit : Int) (text : List Char) : Option Defect :=
  if limit < text.length then some (.tooLong text.length limit)
  else if text.contains '\x00' then some .nulCharacter
  else parenDefect? (.code none) 0 text

end Balance

end SchemaReader.Scan

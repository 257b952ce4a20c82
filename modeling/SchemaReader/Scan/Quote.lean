import SchemaReader.Text.Search

/-!
Quoted sections of a script.

Single quotes, double quotes and backticks open a section that ends at the same character.  Inside
single and double quotes a backslash takes the next character with it; backticks know no escape.  A
doubled quote closes a section and opens the next one, which leaves the scan inside quotes.
Parentheses match, and statements end, outside these sections.

A string literal stands between single or double quotes.  A doubled quote inside stands for one
quote; a backslash stands for a line break, tab or carriage return before `n`, `t` or `r`, and
otherwise for the character after it.
-/

namespace SchemaReader.Scan

open SchemaReader.Text (Shown shown)

inductive Delimiter where
  | single
  | double
  | backtick
  deriving DecidableEq, Repr

namespace Delimiter

def char : Delimiter → Char
  | single => '\''
  | double => '"'
  | backtick => '`'

/-- A backslash inside the section takes the next character with it. -/
def escapes : Delimiter → Bool
  | backtick => false
  | _ => true

def ofChar? (c : Char) : Option Delimiter :=
  if c = '\'' then some single
  else if c = '"' then some double
  else if c = '`' then some backtick
  else none

def ofLiteral? (c : Char) : Option Delimiter :=
  if c = '\'' then some single
  else if c = '"' then some double
  else none

end Delimiter

/-- Where a scan stands: outside quotes, inside a section, or inside after a backslash. -/
inductive Quote where
  | outside
  | inside (delimiter : Delimiter)
  | escaped (delimiter : Delimiter)
  deriving DecidableEq, Repr

namespace Quote

def isQuoted : Quote → Bool
  | outside => false
  | _ => true

/-- One character further, where `opens` tells which characters open a section. -/
def step (opens : Char → Option Delimiter) : Quote → Char → Quote
  | escaped d, _ => inside d
  | inside d, c =>
      if d.escapes && c == '\\' then escaped d
      else if c = d.char then outside
      else inside d
  | outside, c =>
      match opens c with
      | some d => inside d
      | none => outside

def feed (q : Quote) (c : Char) : Quote := q.step Delimiter.ofChar? c

/-- The character belongs to a quoted section; the delimiters themselves do. -/
def covers (q : Quote) (c : Char) : Bool := q.isQuoted || (q.feed c).isQuoted

def after (q : Quote) (text : List Char) : Quote := text.foldl feed q

def traceFrom (q : Quote) (out : List (Bool × Quote)) : List Char → List (Bool × Quote)
  | [] => out.reverse
  | c :: rest => traceFrom (q.feed c) ((q.covers c, q.feed c) :: out) rest

def trace (text : List Char) : List (Bool × Quote) := traceFrom outside [] text

end Quote

variable {α : Type} [Shown α]

/--
The index of the parenthesis that brings the depth back to zero.  The scan stands at `index` with
`depth` parentheses open.
-/
def closingFrom (quote : Quote) (depth index : Nat) : List α → Option Nat
  | [] => none
  | x :: rest =>
      let c := shown x
      let next := quote.feed c
      if quote.covers c then closingFrom next depth (index + 1) rest
      else if c = '(' then closingFrom next (depth + 1) (index + 1) rest
      else if c = ')' then
        if depth = 1 then some index else closingFrom next (depth - 1) (index + 1) rest
      else closingFrom next depth (index + 1) rest

def closing? (text : List α) : Option Nat :=
  if text.head?.map shown = some '(' then closingFrom .outside 0 0 text else none

def matchingParen? (text : List Char) (start : Int) : Option Nat :=
  if start < 0 then none
  else (closing? (text.drop start.toNat)).map (start.toNat + ·)

def parenthesised? (text : List α) : Option (List α × List α) :=
  (closing? text).map fun close => ((text.take close).drop 1, text.drop (close + 1))

def statementEndsFrom (quote : Quote) (index : Nat) (out : List Nat) : List Char → List Nat
  | [] => out.reverse
  | c :: rest =>
      statementEndsFrom (quote.feed c) (index + 1)
        (if !quote.covers c && c == ';' then index :: out else out) rest

def statementEnds (text : List Char) : List Nat := statementEndsFrom .outside 0 [] text

namespace Literal

def unescape (c : Char) : Char :=
  if c = 'n' then '\n'
  else if c = 't' then '\t'
  else if c = 'r' then '\r'
  else c

/--
The content of a literal and the index just after its closing quote.  The scan stands at `index`
inside the literal, and `content` is what it holds so far, in reverse.
-/
def readBody (quote : Char) (content : List Char) (index : Nat) :
    List Char → Option (List Char × Nat)
  | [] => none
  | [c] => if c = quote then some (content.reverse, index + 1) else none
  | c :: d :: rest =>
      if c = '\\' then readBody quote (unescape d :: content) (index + 2) rest
      else if c = quote then
        if d = quote then readBody quote (quote :: content) (index + 2) rest
        else some (content.reverse, index + 1)
      else readBody quote (c :: content) (index + 1) (d :: rest)

def read? : List Char → Option (List Char × Nat)
  | [] => none
  | c :: rest => if (Delimiter.ofLiteral? c).isSome then readBody c [] 1 rest else none

inductive Fault where
  | outOfRange
  deriving DecidableEq, Repr

def Fault.message : Fault → String
  | .outOfRange => "string index out of range"

/--
The literal at `start`, and the index after it.  A negative start counts from the end, and a scan
that starts there goes on at the beginning of the text.
-/
def readAt (text : List Char) (start : Int) : Except Fault (Option (List Char × Int)) :=
  let size := text.length
  let ending := fun (found : List Char × Nat) => (found.1, start + found.2)
  if 0 ≤ start then .ok ((read? (text.drop start.toNat)).map ending)
  else if start < -size then .error .outOfRange
  else .ok ((read? (text.drop (size + start).toNat ++ text)).map ending)

end Literal

end SchemaReader.Scan

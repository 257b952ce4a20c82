import SchemaReader.Text.Case
import SchemaReader.Text.Character

/-!
Texts quoted in messages, and texts given by code points.

A text is shown between single quotes, or between double quotes when it holds single quotes only.
The quote, the backslash and everything that cannot be printed are written as escapes.  Escapes can
name every code point.  Some of them, the surrogates, are no characters, and a text that holds one
has no encoding.
-/

namespace SchemaReader.Text

def hexDigit (n : Nat) : Char :=
  if n < 10 then Char.ofNat (48 + n) else Char.ofNat (87 + n)

def hexDigits : (width n : Nat) → List Char
  | 0, _ => []
  | width + 1, n => hexDigits width (n / 16) ++ [hexDigit (n % 16)]

/-- The shortest of the three numeric escapes that has room for the character. -/
def numericEscape (c : Char) : List Char :=
  let n := c.toNat
  if n < 0x100 then '\\' :: 'x' :: hexDigits 2 n
  else if n < 0x10000 then '\\' :: 'u' :: hexDigits 4 n
  else '\\' :: 'U' :: hexDigits 8 n

def quotedChar (quote c : Char) : List Char :=
  if c = quote || c = '\\' then ['\\', c]
  else if c = '\n' then ['\\', 'n']
  else if c = '\r' then ['\\', 'r']
  else if c = '\t' then ['\\', 't']
  else if isPrintable c then [c]
  else numericEscape c

def quoteFor (text : List Char) : Char :=
  if text.contains '\'' && !text.contains '"' then '"' else '\''

def quoted (text : List Char) : List Char :=
  let quote := quoteFor text
  quote :: text.flatMap (quotedChar quote) ++ [quote]

inductive CodePoint where
  | char (c : Char)
  | surrogate (n : Nat)
  deriving DecidableEq, Repr

namespace CodePoint

def ofNat (n : Nat) : CodePoint :=
  if 0xD800 ≤ n && n < 0xE000 then surrogate n else char (Char.ofNat n)

def isSurrogate : CodePoint → Bool
  | char _ => false
  | surrogate _ => true

def is (c : Char) : CodePoint → Bool
  | char d => c == d
  | surrogate _ => false

end CodePoint

def pointsOf (text : List Char) : List CodePoint := text.map .char

def charsOf? (points : List CodePoint) : Option (List Char) :=
  points.mapM fun point =>
    match point with
    | .char c => some c
    | .surrogate _ => none

def lowerPoints (points : List CodePoint) : List CodePoint :=
  match charsOf? points with
  | some text => pointsOf (lower text)
  | none =>
      points.flatMap fun point =>
        match point with
        | .char c => pointsOf (lower [c])
        | .surrogate n => [.surrogate n]

def quoteForPoints (points : List CodePoint) : Char :=
  if points.any (·.is '\'') && !points.any (·.is '"') then '"' else '\''

def quotedPoints (points : List CodePoint) : List Char :=
  let quote := quoteForPoints points
  quote :: (points.flatMap fun point =>
    match point with
    | .char c => quotedChar quote c
    | .surrogate n => '\\' :: 'u' :: hexDigits 4 n) ++ [quote]

/-- A run of surrogates in a text: its position, its first code point and its length. -/
structure EncodeFault where
  position : Nat
  point : Nat
  count : Nat
  deriving DecidableEq, Repr

def EncodeFault.message (fault : EncodeFault) : String :=
  let place :=
    if fault.count = 1 then
      "character '\\u" ++ String.ofList (hexDigits 4 fault.point) ++
        s!"' in position {fault.position}"
    else s!"characters in position {fault.position}-{fault.position + fault.count - 1}"
  s!"'utf-8' codec can't encode {place}: surrogates not allowed"

def encodeFault? (position : Nat) : List CodePoint → Option EncodeFault
  | [] => none
  | .char _ :: rest => encodeFault? (position + 1) rest
  | .surrogate n :: rest =>
      some ⟨position, n, 1 + (rest.takeWhile (·.isSurrogate)).length⟩

end SchemaReader.Text

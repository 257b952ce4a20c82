import Mathlib.Algebra.Field.Rat
import SchemaReader.Number.Numeral
import SchemaReader.Text.Quoted

/-!
# Reading JSON texts

A reader for the grammar of RFC 8259, written on its own and not after the writer.
It takes spaces between all tokens, every escape, pairs of surrogates, and numbers
with fractions and exponents, which it knows by their values.  Beyond that grammar
it takes the two words for infinities, the only way in which a document can hold
a default beyond all finite numbers.
-/

namespace SchemaReader.Output

open SchemaReader.Text (CodePoint)

inductive Datum where
  | null
  | bool (value : Bool)
  | number (value : ℚ)
  | infinity (negative : Bool)
  | string (value : String)
  | array (items : List Datum)
  | object (entries : List (String × Datum))

namespace Datum

def field? (key : String) : Datum → Option Datum
  | object entries => entries.lookup key
  | _ => none

def isSpace (c : Char) : Bool := c = ' ' || c = '\t' || c = '\n' || c = '\r'

def skip (text : List Char) : List Char := text.dropWhile isSpace

def hexValue? (c : Char) : Option Nat :=
  if '0' ≤ c ∧ c ≤ '9' then some (c.toNat - 48)
  else if 'a' ≤ c ∧ c ≤ 'f' then some (c.toNat - 87)
  else if 'A' ≤ c ∧ c ≤ 'F' then some (c.toNat - 55)
  else none

def hexValues? (digits : List Char) : Option Nat :=
  digits.foldlM (fun value c => (hexValue? c).map (16 * value + ·)) 0

def escaped? (c : Char) : Option Char :=
  [('"', '"'), ('\\', '\\'), ('/', '/'), ('b', '\x08'), ('f', '\x0c'), ('n', '\n'), ('r', '\r'),
    ('t', '\t')].lookup c

/-- What stands before the closing quote, and the text behind it. -/
def points? : List Char → Option (List CodePoint × List Char)
  | [] => none
  | c :: rest =>
      if c = '"' then some ([], rest)
      else if c = '\\' then
        match rest with
        | [] => none
        | e :: rest =>
            if e = 'u' then
              match rest with
              | a :: b :: c :: d :: rest =>
                  (hexValues? [a, b, c, d]).bind fun n =>
                    (points? rest).map fun (points, rest) => (.ofNat n :: points, rest)
              | _ => none
            else
              (escaped? e).bind fun c =>
                (points? rest).map fun (points, rest) => (.char c :: points, rest)
      else if c.toNat < 32 then none
      else (points? rest).map fun (points, rest) => (.char c :: points, rest)

/-- Two surrogates that belong together are one character, and others are none. -/
def joined? : List CodePoint → Option (List Char)
  | [] => some []
  | .char c :: rest => (joined? rest).map (c :: ·)
  | .surrogate high :: .surrogate low :: rest =>
      if high < 0xDC00 ∧ 0xDC00 ≤ low then
        (joined? rest).map
          (Char.ofNat (0x10000 + 0x400 * (high - 0xD800) + (low - 0xDC00)) :: ·)
      else none
  | .surrogate _ :: _ => none

def string? (text : List Char) : Option (String × List Char) :=
  (points? text).bind fun (points, rest) =>
    (joined? points).map fun chars => (String.ofList chars, rest)

def digits? (text : List Char) : Option (List Char × List Char) :=
  match text.span Char.isDigit with
  | ([], _) => none
  | (digits, rest) => some (digits, rest)

/-- A zero only leads where it stands alone. -/
def whole? (text : List Char) : Option (List Char × List Char) :=
  match digits? text with
  | some ('0' :: _ :: _, _) => none
  | read => read

def fraction? : List Char → Option (List Char × List Char)
  | '.' :: rest => digits? rest
  | rest => some ([], rest)

def exponent? : List Char → Option (Int × List Char)
  | [] => some (0, [])
  | c :: rest =>
      if c = 'e' ∨ c = 'E' then
        let (negative, rest) := Number.splitSign rest
        (digits? rest).map fun (digits, rest) =>
          let n : Int := Nat.ofDigitChars 10 digits 0
          (if negative then -n else n, rest)
      else some (0, c :: rest)

def signed (negative : Bool) (value : ℚ) : ℚ := if negative then -value else value

def number? (negative : Bool) (text : List Char) : Option (Datum × List Char) :=
  (whole? text).bind fun (whole, rest) =>
    (fraction? rest).bind fun (fraction, rest) =>
      (exponent? rest).map fun (exponent, rest) =>
        (.number (signed negative
          (Nat.ofDigitChars 10 (whole ++ fraction) 0 * (10 : ℚ) ^ (exponent - fraction.length))),
          rest)

def words : List (List Char × Datum) :=
  [(['n', 'u', 'l', 'l'], null), (['t', 'r', 'u', 'e'], bool true),
    (['f', 'a', 'l', 's', 'e'], bool false),
    (['I', 'n', 'f', 'i', 'n', 'i', 't', 'y'], infinity false),
    (['-', 'I', 'n', 'f', 'i', 'n', 'i', 't', 'y'], infinity true)]

def word? (text : List Char) : Option (Datum × List Char) :=
  (words.find? fun (word, _) => word.isPrefixOf text).map fun (word, datum) =>
    (datum, text.drop word.length)

def scalar? (text : List Char) : Option (Datum × List Char) :=
  match word? text with
  | some read => some read
  | none =>
      match text with
      | '"' :: rest => (string? rest).map fun (text, rest) => (.string text, rest)
      | '-' :: rest => number? true rest
      | rest => number? false rest

-- The number that goes down bounds how many values are read; the length of the text is enough.
mutual

def value? : Nat → List Char → Option (Datum × List Char)
  | 0, _ => none
  | left + 1, text =>
      match skip text with
      | '[' :: rest =>
          match skip rest with
          | ']' :: rest => some (.array [], rest)
          | rest => (items? left rest).map fun (items, rest) => (.array items, rest)
      | '\x7b' :: rest =>
          match skip rest with
          | '\x7d' :: rest => some (.object [], rest)
          | rest => (entries? left rest).map fun (entries, rest) => (.object entries, rest)
      | rest => scalar? rest

def items? : Nat → List Char → Option (List Datum × List Char)
  | 0, _ => none
  | left + 1, text =>
      (value? left text).bind fun (item, rest) =>
        match skip rest with
        | ',' :: rest => (items? left rest).map fun (items, rest) => (item :: items, rest)
        | ']' :: rest => some ([item], rest)
        | _ => none

def entries? : Nat → List Char → Option (List (String × Datum) × List Char)
  | 0, _ => none
  | left + 1, text =>
      match skip text with
      | '"' :: rest =>
          (string? rest).bind fun (key, rest) =>
            match skip rest with
            | ':' :: rest =>
                (value? left rest).bind fun (value, rest) =>
                  match skip rest with
                  | ',' :: rest =>
                      (entries? left rest).map fun (entries, rest) =>
                        ((key, value) :: entries, rest)
                  | '\x7d' :: rest => some ([(key, value)], rest)
                  | _ => none
            | _ => none
      | _ => none

end

def read? (text : String) : Option Datum :=
  match value? (text.toList.length + 1) text.toList with
  | some (datum, rest) => if (skip rest).isEmpty then some datum else none
  | none => none

example : read? "[1.50, -2e+2 , \x7b\"a\":[]\x7d]\n" =
    some (.array [.number (3 / 2), .number (-200), .object [("a", .array [])]]) := by cbv

end Datum

end SchemaReader.Output

import SchemaReader.Text.Search
import SchemaReader.Yaml.Token

/-!
What the nodes of a settings text stand for, as their tags say or as they are written.

A plain scalar without a tag is nothing, a boolean, a number, a date or a text, whichever it looks
like.
-/

namespace SchemaReader.Yaml

open SchemaReader.Number (splitSign)
open SchemaReader.Text (charsOf? splitAtChars)

inductive Kind where
  | null
  | bool
  | int
  | real
  | bytes
  | moment
  | text
  | list
  | mapping
  | set
  | pairs
  /-- A key whose value brings in the entries of other mappings. -/
  | merge
  /-- A key whose value stands for the whole mapping. -/
  | default
  | unknown
  deriving DecidableEq, Repr

def standardLead : List Char := "tag:yaml.org,2002:".toList

def standardKinds : List (String × Kind) :=
  [("null", .null), ("bool", .bool), ("int", .int), ("float", .real), ("binary", .bytes),
    ("timestamp", .moment), ("str", .text), ("seq", .list), ("map", .mapping), ("set", .set),
    ("omap", .pairs), ("pairs", .pairs), ("merge", .merge), ("value", .default)]

def Kind.ofTag (tag : List Char) : Kind :=
  if standardLead.isPrefixOf tag then
    (standardKinds.lookup (String.ofList (tag.drop standardLead.length))).getD .unknown
  else .unknown

def isOpenTag : Option (List Char) → Bool
  | none => true
  | some tag => tag == ['!']

def Kind.ofTagOr (otherwise : Kind) (tag : Option (List Char)) : Kind :=
  if isOpenTag tag then otherwise else (tag.map Kind.ofTag).getD otherwise

def isOneOf (words : List String) (text : List Char) : Bool := words.any (·.toList == text)

def boolWords : List String :=
  ["yes", "Yes", "YES", "no", "No", "NO", "true", "True", "TRUE", "false", "False", "FALSE", "on",
    "On", "ON", "off", "Off", "OFF"]

def nullWords : List String := ["", "~", "null", "Null", "NULL"]

def areDigits (base : Nat) (text : List Char) : Bool :=
  !text.isEmpty && text.all fun c => c == '_' || (hexValue? c).any (· < base)

def startsWithDigit (text : List Char) : Bool :=
  text.head?.any Char.isDigit && areDigits 10 text

def isSixtieth (text : List Char) : Bool :=
  match text with
  | [c] => c.isDigit
  | [c, d] => '0' ≤ c && c ≤ '5' && d.isDigit
  | _ => false

def isInt (text : List Char) : Bool :=
  match (splitSign text).2 with
  | '0' :: 'b' :: bits => areDigits 2 bits
  | '0' :: 'x' :: hex => areDigits 16 hex
  | ['0'] => true
  | '0' :: octal => areDigits 8 octal
  | digits =>
      match splitAtChars (· == ':') digits with
      | whole :: parts => startsWithDigit whole && parts.all isSixtieth
      | [] => false

def isExponent : List Char → Bool
  | [] => true
  | e :: sign :: digits =>
      (e == 'e' || e == 'E') && (sign == '-' || sign == '+') && !digits.isEmpty &&
        digits.all Char.isDigit
  | _ => false

def isReal (text : List Char) : Bool :=
  let digits := (splitSign text).2
  isOneOf [".inf", ".Inf", ".INF"] digits || isOneOf [".nan", ".NaN", ".NAN"] text ||
    match digits.takeWhile (· != '.'), digits.dropWhile (· != '.') with
    | whole, '.' :: rest =>
        let isFractionChar (c : Char) := c.isDigit || c == '_'
        let fraction := rest.takeWhile isFractionChar
        let after := rest.dropWhile isFractionChar
        if whole.isEmpty then
          text.head? == some '.' && startsWithDigit fraction && isExponent after
        else
          match splitAtChars (· == ':') whole with
          | [whole] => startsWithDigit whole && isExponent after
          | whole :: parts => startsWithDigit whole && parts.all isSixtieth && after.isEmpty
          | [] => false
    | _, _ => false

def dropLastBreak (text : List Char) : List Char :=
  if text.getLast? = some '\n' then text.dropLast else text

def Kind.ofPlain (written : List Char) : Kind :=
  let plain := dropLastBreak written
  if plain.isEmpty && !written.isEmpty then text
  else if isOneOf boolWords plain then bool
  else if isReal plain then real
  else if isInt plain then int
  else if isOneOf nullWords plain then null
  else if (Moment.ofPlain? plain).isSome then moment
  else if plain = ['<', '<'] then merge
  else if plain = ['='] then default
  else text

/-- The kind of a scalar with this tag; only plain ones and those with an open tag are looked at. -/
def Kind.ofScalar (tag : Option (List Char)) (isPlain : Bool)
    (written : List Text.CodePoint) : Kind :=
  if isOpenTag tag && (isPlain || tag.isSome) then ((charsOf? written).map ofPlain).getD text
  else ofTagOr text tag

end SchemaReader.Yaml

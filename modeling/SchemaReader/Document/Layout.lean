import SchemaReader.Text.Character

/-!
How a value is laid out in a message: its alignment, width, sign, digits and notation.

A layout is written as `[[fill]align][sign][z][#][0][width][, or _][.precision][code]`, where every
part may be missing.
-/

namespace SchemaReader.Document

inductive Alignment where
  | left
  | right
  | center
  | afterSign
  deriving DecidableEq, Repr

def Alignment.ofChar? (c : Char) : Option Alignment :=
  if c = '<' then some left
  else if c = '>' then some right
  else if c = '^' then some center
  else if c = '=' then some afterSign
  else none

inductive SignStyle where
  | none
  | plus
  | space
  deriving DecidableEq, Repr

def SignStyle.ofChar? (c : Char) : Option SignStyle :=
  if c = '+' then some plus
  else if c = ' ' then some space
  else if c = '-' then some none
  else Option.none

structure Layout where
  fill : Char := ' '
  alignment : Alignment
  sign : Option SignStyle := none
  unsignedZero : Bool := false
  alternate : Bool := false
  width : Option Nat := none
  separator : Option Char := none
  precision : Option Nat := none
  code : Option Char := none
  deriving DecidableEq, Repr

inductive LayoutFault where
  | tooManyDigits
  | bothSeparators
  | separatorWith (separator code : Char)
  | missingPrecision
  | notLayout (spec : List Char) (kind : String)
  | unknownCode (code : Char) (kind : String)
  | textSpace
  | textSign
  | textUnsignedZero
  | textAlternate
  | textAfterSign
  | integerPrecision
  | integerUnsignedZero
  | characterSign
  | characterAlternate
  | precisionTooBig
  | notCodePoint
  | tooLarge
  | tooWide
  | noLayout
  deriving DecidableEq, Repr

def shownCode (most : Nat) (c : Char) : String :=
  if 32 < c.toNat && c.toNat < most then c.toString
  else "\\x" ++ String.ofList (Nat.toDigits 16 c.toNat)

def LayoutFault.message : LayoutFault → String
  | tooManyDigits => "Too many decimal digits in format string"
  | bothSeparators => "Cannot specify both ',' and '_'."
  | separatorWith separator code =>
      "Cannot specify '" ++ separator.toString ++ "' with '" ++ shownCode 128 code ++ "'."
  | missingPrecision => "Format specifier missing precision"
  | notLayout spec kind =>
      "Invalid format specifier '" ++ String.ofList spec ++ "' for object of type '" ++ kind ++ "'"
  | unknownCode code kind =>
      "Unknown format code '" ++ shownCode 128 code ++ "' for object of type '" ++ kind ++ "'"
  | textSpace => "Space not allowed in string format specifier"
  | textSign => "Sign not allowed in string format specifier"
  | textUnsignedZero => "Negative zero coercion (z) not allowed in string format specifier"
  | textAlternate => "Alternate form (#) not allowed in string format specifier"
  | textAfterSign => "'=' alignment not allowed in string format specifier"
  | integerPrecision => "Precision not allowed in integer format specifier"
  | integerUnsignedZero => "Negative zero coercion (z) not allowed in integer format specifier"
  | characterSign => "Sign not allowed with integer format specifier 'c'"
  | characterAlternate => "Alternate form (#) not allowed with integer format specifier 'c'"
  | precisionTooBig => "precision too big"
  | notCodePoint => "%c arg not in range(0x110000)"
  | tooLarge => "int too large to convert to float"
  | tooWide => ""
  | noLayout => "unsupported format string"

def numberLimit : Nat := 9223372036854775808

def leadingNumber (value? : Option Nat) :
    List Char → Except LayoutFault (Option Nat × List Char)
  | [] => .ok (value?, [])
  | c :: rest =>
      match Text.digitValue? c with
      | none => .ok (value?, c :: rest)
      | some d =>
          let value := 10 * value?.getD 0 + d
          if numberLimit ≤ value then .error .tooManyDigits else leadingNumber (some value) rest

def alignmentPart : List Char → Option Char × Option Alignment × List Char
  | [] => (none, none, [])
  | c :: rest =>
      match rest.head?.bind Alignment.ofChar? with
      | some alignment => (some c, some alignment, rest.tail)
      | none =>
          match Alignment.ofChar? c with
          | some alignment => (none, some alignment, rest)
          | none => (none, none, c :: rest)

def takeChar (c : Char) (text : List Char) : Bool × List Char :=
  if text.head? = some c then (true, text.tail) else (false, text)

def signPart (text : List Char) : Option SignStyle × List Char :=
  match text.head?.bind SignStyle.ofChar? with
  | some sign => (some sign, text.tail)
  | none => (none, text)

def separatorPart (text : List Char) : Except LayoutFault (Option Char × List Char) :=
  let (comma, text) := takeChar ',' text
  let (underscore, text) := takeChar '_' text
  if underscore && (comma || text.head? == some ',') then .error .bothSeparators
  else .ok (if comma then some ',' else if underscore then some '_' else none, text)

def precisionPart (text : List Char) : Except LayoutFault (Option Nat × List Char) :=
  match text with
  | '.' :: rest =>
      match leadingNumber none rest with
      | .error fault => .error fault
      | .ok (none, _) => .error .missingPrecision
      | .ok (some precision, rest) => .ok (some precision, rest)
  | _ => .ok (none, text)

def codePart (spec : List Char) (kind : String) : List Char → Except LayoutFault (Option Char)
  | [] => .ok none
  | [c] => .ok (some c)
  | _ => .error (.notLayout spec kind)

def allowsSeparator (separator code : Char) : Bool :=
  ("defgEG%F".toList.contains code || code.toNat == 0) ||
    (separator == '_' && "boxX".toList.contains code)

structure LayoutStyle where
  kind : String
  alignment : Alignment
  code : Char
  deriving DecidableEq, Repr

/-- Zeros that fill a number up stand after its sign. -/
def zeroAlignment (usual : Alignment) (given : Option Alignment) : Alignment :=
  given.getD (if usual = .right then .afterSign else usual)

def Layout.ofSpec (style : LayoutStyle) (spec : List Char) : Except LayoutFault Layout := do
  let (fill?, alignment?, rest) := alignmentPart spec
  let (sign, rest) := signPart rest
  let (unsignedZero, rest) := takeChar 'z' rest
  let (alternate, rest) := takeChar '#' rest
  let (zero, rest) := if fill?.isSome then (false, rest) else takeChar '0' rest
  let (width, rest) ← leadingNumber none rest
  let (separator, rest) ← separatorPart rest
  let (precision, rest) ← precisionPart rest
  let code ← codePart spec style.kind rest
  match separator with
  | some c =>
      if !allowsSeparator c (code.getD style.code) then
        throw (.separatorWith c (code.getD style.code))
  | none => pure ()
  return {
    fill := if zero then '0' else fill?.getD ' '
    alignment :=
      if zero then zeroAlignment style.alignment alignment?
      else alignment?.getD style.alignment
    sign, unsignedZero, alternate, width, separator, precision, code }

end SchemaReader.Document

import SchemaReader.Number.Binary64
import SchemaReader.Text.Character
import SchemaReader.Text.Quoted

/-!
Numbers written in texts.

A decimal numeral may use the digits of any script and has at most `maxDigits` digits.  An integer
may have the mark of its base before its digits, and a floating-point number may be a word for
infinity or for no number at all.
-/

namespace SchemaReader.Number

open SchemaReader.Text (digitValue? dropPadding isDigit quoted)

def digitsValue (digits : List Char) : Nat :=
  digits.foldl (fun value c => 10 * value + (digitValue? c).getD 0) 0

def maxDigits : Nat := 4300

inductive NumeralFault where
  | tooLong (digits : Nat)
  | notNumeral (text : List Char)
  deriving DecidableEq, Repr

def shownInMessage : Nat := 200

def NumeralFault.message : NumeralFault → String
  | .tooLong digits =>
      s!"Exceeds the limit ({maxDigits} digits) for integer string conversion: " ++
        s!"value has {digits} digits; use sys.set_int_max_str_digits() to increase the limit"
  | .notNumeral text =>
      "invalid literal for int() with base 10: " ++
        String.ofList ((quoted text).take shownInMessage)

/-- A numeral without a sign.  Its length is checked before what follows its digits. -/
def readNatural (text : List Char) : Except NumeralFault Nat :=
  let digits := text.takeWhile isDigit
  if maxDigits < digits.length then .error (.tooLong digits.length)
  else if digits.isEmpty || digits.length < text.length then .error (.notNumeral text)
  else .ok (digitsValue digits)

def splitSign : List Char → Bool × List Char
  | '-' :: rest => (true, rest)
  | '+' :: rest => (false, rest)
  | rest => (false, rest)

def digitIn? (base : Nat) (c : Char) : Option Nat :=
  let value? :=
    match digitValue? c with
    | some d => some d
    | none =>
        if 'a' ≤ c && c ≤ 'z' then some (c.toNat - 87)
        else if 'A' ≤ c && c ≤ 'Z' then some (c.toNat - 55)
        else none
  value?.filter (· < base)

def baseLetter? (base : Nat) : Option Char :=
  if base = 2 then some 'b' else if base = 8 then some 'o' else if base = 16 then some 'x' else none

def dropBaseMark (base : Nat) : List Char → List Char
  | '0' :: c :: rest => if baseLetter? base = some c.toLower then rest else '0' :: c :: rest
  | text => text

inductive IntegerFault where
  | tooLong (digits : Nat)
  | notInteger
  deriving DecidableEq, Repr

/-- The integer that a text denotes in a base.  Only decimal digits are limited in number, and they
are counted before what follows them is looked at. -/
def readIntegerIn (base : Nat) (text : List Char) : Except IntegerFault Int :=
  let (negative, marked) := splitSign (dropPadding text)
  let written := dropBaseMark base marked
  let digits := written.takeWhile fun c => (digitIn? base c).isSome
  if base = 10 && maxDigits < digits.length then .error (.tooLong digits.length)
  else if digits.isEmpty || digits.length < written.length then .error .notInteger
  else
    let n : Int := digits.foldl (fun n c => base * n + (digitIn? base c).getD 0) (0 : Nat)
    .ok (if negative then -n else n)

def isDecimalDigit (c : Char) : Bool := (digitValue? c).isSome

def exponent? : List Char → Option Int
  | [] => some 0
  | e :: rest =>
      let (negative, digits) := splitSign rest
      if e.toLower = 'e' && !digits.isEmpty && digits.all isDecimalDigit then
        let n : Int := digitsValue digits
        some (if negative then -n else n)
      else none

def unboundedWords : List String := ["inf", "infinity", "nan"]

def fractionPart : List Char → List Char × List Char
  | '.' :: rest => (rest.takeWhile isDecimalDigit, rest.dropWhile isDecimalDigit)
  | rest => ([], rest)

/-- The floating-point number that a text denotes.  What is no number is not told apart from an
infinite one. -/
def readReal? (text : List Char) : Option Binary64 :=
  let (negative, written) := splitSign (dropPadding text)
  if unboundedWords.contains (String.ofList (written.map Char.toLower)) then
    some (.infinite negative)
  else
    let whole := written.takeWhile isDecimalDigit
    let (fraction, rest) := fractionPart (written.dropWhile isDecimalDigit)
    if whole.isEmpty && fraction.isEmpty then none
    else
      (exponent? rest).map fun exponent =>
        .ofDecimal negative (digitsValue (whole ++ fraction)) (exponent - fraction.length)

end SchemaReader.Number

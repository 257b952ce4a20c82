import SchemaReader.Document.Value
import SchemaReader.Number.Binary64
import SchemaReader.Text.Encoding
import SchemaReader.Yaml.Kind

/-!
The values of scalars.
-/

namespace SchemaReader.Yaml

open SchemaReader.Document (Value)
open SchemaReader.Number (Binary64)
open SchemaReader.Text (CodePoint charsOf? pointsOf splitAtChars)

def signOf : List CodePoint → Bool × List CodePoint
  | .char '-' :: rest => (true, rest)
  | .char '+' :: rest => (false, rest)
  | rest => (false, rest)

def dropUnderscores (text : List CodePoint) : List CodePoint := text.filter fun p => !p.is '_'

def hasColon (text : List CodePoint) : Bool := text.any (·.is ':')

def betweenColons (text : List CodePoint) : List (List CodePoint) :=
  splitAtChars (fun p : CodePoint => p.is ':') text

def integerIn (base : Nat) (text : List CodePoint) : Except ScalarFault Int :=
  match charsOf? text with
  | none => .error (.notInteger base text)
  | some chars =>
      match Number.readIntegerIn base chars with
      | .ok n => .ok n
      | .error (.tooLong count) => .error (.tooManyDigits count)
      | .error .notInteger => .error (.notInteger base text)

/-- The integer that a text denotes, underscores apart; each of the numbers between colons counts
sixty of the next. -/
def intValue (text : List CodePoint) : Except ScalarFault Int :=
  let (negative, digits) := signOf (dropUnderscores text)
  let value : Except ScalarFault Int :=
    match digits with
    | [] => .error .emptyNumber
    | [.char '0'] => .ok 0
    | .char '0' :: .char 'b' :: bits => integerIn 2 bits
    | .char '0' :: .char 'x' :: hex => integerIn 16 hex
    | .char '0' :: _ => integerIn 8 digits
    | _ =>
        ((betweenColons digits).mapM (integerIn 10)).map fun parts =>
          parts.foldl (fun n part => 60 * n + part) 0
  value.map fun n => if negative then -n else n

def realPart (text : List CodePoint) : Except ScalarFault Binary64 :=
  match (charsOf? text).bind Number.readReal? with
  | some x => .ok x
  | none => .error (.notReal text)

def sumFrom (unit : Nat) (sum : Binary64) : List Binary64 → Except ScalarFault Binary64
  | [] => .ok sum
  | part :: parts =>
      match Binary64.ofInt? unit with
      | some factor => sumFrom (60 * unit) (sum.add (part.mul factor)) parts
      | none => .error .tooLarge

def zero : Binary64 := .ofDecimal false 0 0

/-- The number that a text denotes, underscores apart.  What is no number is not told apart from an
infinite one. -/
def realValue (text : List CodePoint) : Except ScalarFault Binary64 :=
  match Text.lowerPoints (dropUnderscores text) with
  | [] => .error .emptyNumber
  | written =>
      let (negative, digits) := signOf written
      let value : Except ScalarFault Binary64 :=
        if digits = pointsOf ".inf".toList || digits = pointsOf ".nan".toList then
          .ok (.infinite false)
        else if hasColon digits then do
          let parts ← (betweenColons digits).mapM realPart
          sumFrom 1 zero parts.reverse
        else realPart digits
      value.map fun x => if negative then x.neg else x

def trueWords : List String := ["yes", "true", "on"]

def falseWords : List String := ["no", "false", "off"]

def boolValue (text : List CodePoint) : Except ScalarFault Bool :=
  let word := Text.lowerPoints text
  match charsOf? word with
  | some chars =>
      if isOneOf trueWords chars then .ok true
      else if isOneOf falseWords chars then .ok false
      else .error (.notBool word)
  | none => .error (.notBool word)

def momentValue (text : List CodePoint) : Except ScalarFault Value :=
  match charsOf? text with
  | none => .error .notMoment
  | some chars =>
      match Moment.ofText? (dropLastBreak chars) with
      | none => .error .notMoment
      | some moment =>
          match moment.fault? with
          | some fault => .error (.moment fault)
          | none => .ok (.date (String.ofList chars))

def textValue (text : List CodePoint) : Value :=
  match charsOf? text with
  | some chars => .text (String.ofList chars)
  | none => .broken text

def bytesValue (text : List CodePoint) : Except YamlFault Value :=
  match (charsOf? text).filter fun chars => chars.all (·.toNat < 128) with
  | none => .error .badBase64
  | some chars =>
      match Text.Base64.decode? chars with
      | some content => .ok (.bytes content)
      | none => .error .badBase64

def ofScalar {α : Type} (make : α → Value) : Except ScalarFault α → Except YamlFault Value
  | .ok value => .ok (make value)
  | .error fault => .error (.scalar fault)

def scalarValue (kind : Kind) (text : List CodePoint) : Except YamlFault Value :=
  match kind with
  | .null => .ok .null
  | .bool => ofScalar .bool (boolValue text)
  | .int => ofScalar .int (intValue text)
  | .real => ofScalar .real (realValue text)
  | .bytes => bytesValue text
  | .moment => ofScalar id (momentValue text)
  | .text => .ok (textValue text)
  | _ => .error .unknownTag

end SchemaReader.Yaml

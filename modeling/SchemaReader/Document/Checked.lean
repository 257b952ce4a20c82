import SchemaReader.Document.Value
import SchemaReader.Text.Character
import SchemaReader.Text.Encoding

/-!
Reading records from documents.

Every field is checked, and all issues are collected.  Some values are accepted for others: `0`, `1`
and a few words for booleans, and texts and whole numbers for integers.
-/

namespace SchemaReader.Document

/-- A value, or all that is wrong with the document it was read from. -/
inductive Checked (α : Type) where
  | valid (value : α)
  | invalid (issues : List Issue)
  deriving DecidableEq, Repr

namespace Checked

variable {α β : Type}

def issue (kind : IssueKind) : Checked α := invalid [⟨[], kind⟩]

def issues : Checked α → List Issue
  | valid _ => []
  | invalid issues => issues

def map (f : α → β) : Checked α → Checked β
  | valid value => valid (f value)
  | invalid issues => invalid issues

/-- Both are checked, and the issues of both are kept. -/
def seq (f : Checked (α → β)) (x : Unit → Checked α) : Checked β :=
  match f, x () with
  | valid f, valid x => valid (f x)
  | f, x => invalid (f.issues ++ x.issues)

instance : Applicative Checked where
  pure := valid
  map := map
  seq := seq

def under (key : String) : Checked α → Checked α
  | valid value => valid value
  | invalid issues => invalid (issues.map (·.under key))

def toExcept : Checked α → Except (List Issue) α
  | valid value => .ok value
  | invalid issues => .error issues

def all (read : Value → Checked α) (index : Nat) : List Value → Checked (List α)
  | [] => valid []
  | item :: items =>
      List.cons <$> (read item).under (toString index) <*> all read (index + 1) items

end Checked

open Checked

def readText : Value → Checked String
  | .text text => valid text
  | .bytes content =>
      match Text.decodeUtf8 content with
      | .ok text => valid (String.ofList text)
      | .error _ => issue .stringUnicode
  | .broken _ => issue .stringUnicode
  | _ => issue .stringType

def readName (value : Value) : Checked String :=
  match readText value with
  | .valid text => if text.isEmpty then issue .stringTooShort else valid text
  | .invalid issues => .invalid issues

def trueWords : List String := ["1", "on", "t", "true", "y", "yes"]

def falseWords : List String := ["0", "off", "f", "false", "n", "no"]

def boolOfWord? (word : String) : Option Bool :=
  let lowered := String.ofList (word.toList.map Char.toLower)
  if trueWords.contains lowered then some true
  else if falseWords.contains lowered then some false
  else none

def boolOfInt? (n : Int) : Option Bool :=
  if n = 0 then some false else if n = 1 then some true else none

def ofOption {α : Type} (kind : IssueKind) : Option α → Checked α
  | some value => valid value
  | none => issue kind

def isWord (n : Int) : Bool := -(Nat.pow 2 63 : Int) ≤ n && n < (Nat.pow 2 63 : Int)

def wholeOf? (x : Number.Binary64) : Option Int :=
  x.toInt?.filter fun n => n.natAbs < Nat.pow 2 63

def wordOf? (content : List UInt8) : Option String :=
  match Text.decodeUtf8 content with
  | .ok text => some (String.ofList text)
  | .error _ => none

def readBool : Value → Checked Bool
  | .bool value => valid value
  | .int n => if isWord n then ofOption .boolParsing (boolOfInt? n) else issue .boolType
  | .real x =>
      match wholeOf? x with
      | some n => ofOption .boolParsing (boolOfInt? n)
      | none => issue .boolType
  | .text word => ofOption .boolParsing (boolOfWord? word)
  | .bytes content => ofOption .boolParsing ((wordOf? content).bind boolOfWord?)
  | .broken _ => issue .stringUnicode
  | _ => issue .boolType

def dropZeroFraction (text : List Char) : List Char :=
  match text.dropWhile (· != '.') with
  | '.' :: zeros => if zeros.all (· == '0') then text.takeWhile (· != '.') else text
  | _ => text

def hasDoubleUnderscore : List Char → Bool
  | '_' :: '_' :: _ => true
  | _ :: rest => hasDoubleUnderscore rest
  | [] => false

def dropUnderscores? (text : List Char) : Option (List Char) :=
  if text.head? = some '_' || text.getLast? = some '_' || hasDoubleUnderscore text then none
  else some (text.filter (· != '_'))

def natOfDigits? (text : List Char) : Option Nat :=
  if !text.isEmpty && text.all Char.isDigit then
    some (text.foldl (fun n c => 10 * n + (c.toNat - 48)) 0)
  else none

def intOfDigits? : List Char → Option Int
  | '-' :: digits => (natOfDigits? digits).map fun n => -(n : Int)
  | '+' :: digits => (natOfDigits? digits).map fun n => (n : Int)
  | digits => (natOfDigits? digits).map fun n => (n : Int)

def maxIntText : Nat := 4300

def readIntText (text : String) : Checked Int :=
  let bare := Text.dropPadding text.toList
  if maxIntText < bare.length then issue .intParsingSize
  else ofOption .intParsing ((dropUnderscores? (dropZeroFraction bare)).bind intOfDigits?)

def intOfReal (x : Number.Binary64) : Checked Int :=
  match x with
  | .infinite _ => issue .finiteNumber
  | x =>
      match x.toInt?, wholeOf? x with
      | none, _ => issue .intFromFloat
      | some _, some n => valid n
      | some _, none => issue .intParsingSize

def readInt : Value → Checked Int
  | .int n => valid n
  | .bool value => valid (if value then 1 else 0)
  | .real x => intOfReal x
  | .text text => readIntText text
  | _ => issue .intType

def readNullable {α : Type} (read : Value → Checked α) : Value → Checked (Option α)
  | .null => valid none
  | value => some <$> read value

def readChoice {α : Type} (ofName? : String → Option α) : Value → Checked α
  | .text name => ofOption .choice (ofName? name)
  | _ => issue .choice

def readList {α : Type} (read : Value → Checked α) : Value → Checked (List α)
  | .list items => Checked.all read 0 items
  | _ => issue .tupleType

def fieldsOf? (entries : List (Value × Value)) : Option Fields :=
  entries.mapM fun (key, value) =>
    match key with
    | .text name => some (name, value)
    | _ => none

def readRecord {α : Type} (read : Fields → Checked α) : Value → Checked α
  | .mapping entries =>
      match fieldsOf? entries with
      | some fields => read fields
      | none => issue .recordType
  | _ => issue .recordType

def Fields.find? (fields : Fields) (keys : List String) : Option (String × Value) :=
  keys.findSome? fun key => (fields.get? key).map (key, ·)

/-- A field that must be present.  It is asked for under its first key and may have others. -/
def required {α : Type} (fields : Fields) (keys : List String) (read : Value → Checked α) :
    Checked α :=
  match fields.find? keys with
  | some (key, value) => (read value).under key
  | none => (issue .missing).under (keys.headD "")

def optional {α : Type} (fields : Fields) (keys : List String) (absent : α)
    (read : Value → Checked α) : Checked α :=
  match fields.find? keys with
  | some (key, value) => (read value).under key
  | none => valid absent

def closed {α : Type} (fields : Fields) (keys : List String) (record : Checked α) : Checked α :=
  match (fields.filter fun (key, _) => !keys.contains key).map fun (key, _) => key with
  | [] => record
  | unknown => invalid (record.issues ++ unknown.map fun key => ⟨[key], .unknownKey⟩)

end SchemaReader.Document

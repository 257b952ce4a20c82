import SchemaReader.Number.Numeral
import SchemaReader.Text.Quoted
import SchemaReader.Yaml.Moment

/-!
What can be wrong with a settings text.
-/

namespace SchemaReader.Yaml

open SchemaReader.Text (CodePoint)

inductive ScalarFault where
  | moment (fault : MomentFault)
  | notMoment
  | momentInMapping
  | notBool (text : List CodePoint)
  | emptyNumber
  | tooManyDigits (count : Nat)
  | notInteger (base : Nat) (text : List CodePoint)
  | notReal (text : List CodePoint)
  | tooLarge
  | notCodePoint
  | notWord
  deriving DecidableEq, Repr

def ScalarFault.message : ScalarFault → String
  | moment fault => fault.message
  | notMoment => "no date"
  | momentInMapping => "expected string or bytes-like object"
  | notBool text => String.ofList (Text.quotedPoints text)
  | emptyNumber => "string index out of range"
  | tooManyDigits count => (Number.NumeralFault.tooLong count).message
  | notInteger base text =>
      s!"invalid literal for int() with base {base}: " ++
        String.ofList ((Text.quotedPoints text).take Number.shownInMessage)
  | notReal text =>
      "could not convert string to float: " ++ String.ofList (Text.quotedPoints text)
  | tooLarge => "int too large to convert to float"
  | notCodePoint => "chr() arg not in range(0x110000)"
  | notWord => "Python int too large to convert to C int"

/-- What is wrong with a settings text.  Of all but scalars and depth, users are told no more than
that the text cannot be read. -/
inductive YamlFault where
  | unprintable
  | keyWithoutColon
  | entryNotAllowed
  | keyNotAllowed
  | valueNotAllowed
  | badCharacter
  | badDirective
  | badAnchor
  | badTag
  | badBlockHeader
  | badEscape
  | unclosedQuote
  | markerInQuote
  | unexpectedToken
  | duplicateDocument
  | badVersion
  | duplicateHandle
  | unknownHandle
  | duplicateAnchor
  | unknownAlias
  | unknownTag
  | misplacedTag
  | badKey
  | badMerge
  | badBase64
  | tooDeep
  | scalar (fault : ScalarFault)
  deriving DecidableEq, Repr

end SchemaReader.Yaml

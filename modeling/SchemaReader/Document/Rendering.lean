import SchemaReader.Document.Layout
import SchemaReader.Document.Value
import SchemaReader.Number.Binary64
import SchemaReader.Number.Shortest

/-!
Values laid out in messages.

A number consists of a sign, a mark of its base, digits and the rest from the point on.  Only the
digits are grouped, and zeros that fill a number up are grouped with them.
-/

namespace SchemaReader.Document

open SchemaReader.Number (Binary64)

def widthLimit : Nat := 10000000

def padding (layout : Layout) (length : Nat) : List Char × List Char × List Char :=
  let count := layout.width.getD 0 - length
  let fill (n : Nat) := List.replicate n layout.fill
  match layout.alignment with
  | .left => ([], [], fill count)
  | .right => (fill count, [], [])
  | .center => (fill (count / 2), [], fill (count - count / 2))
  | .afterSign => ([], fill count, [])

def textStyle : LayoutStyle := ⟨"str", .left, 's'⟩

def textFault? (layout : Layout) : Option LayoutFault :=
  match layout.sign with
  | some .space => some .textSpace
  | some _ => some .textSign
  | none =>
      if layout.unsignedZero then some .textUnsignedZero
      else if layout.alternate then some .textAlternate
      else if layout.alignment = .afterSign then some .textAfterSign
      else if widthLimit < layout.width.getD 0 then some .tooWide
      else none

def renderText (text spec : List Char) : Except LayoutFault (List Char) := do
  let layout ← Layout.ofSpec textStyle spec
  let code := layout.code.getD textStyle.code
  if code ≠ 's' then throw (.unknownCode code textStyle.kind)
  match textFault? layout with
  | some fault => throw fault
  | none =>
      let text := text.take (layout.precision.getD text.length)
      let (before, _, after) := padding layout text.length
      return before ++ text ++ after

structure NumberParts where
  negative : Bool
  mark : List Char := []
  digits : List Char
  rest : List Char := []
  deriving DecidableEq, Repr

def signText (style : Option SignStyle) (negative : Bool) : List Char :=
  if negative then ['-']
  else match style with
    | some .plus => ['+']
    | some .space => [' ']
    | _ => []

/-- Digits in groups from the right, with zeros before them up to a least width.  Digits and result
are in reverse. -/
def groupFrom (size : Nat) (separator : Char) (digits : List Char) (least : Nat) :
    Nat → List Char
  | 0 => digits
  | fuel + 1 =>
      let length := min size (max (max digits.length least) 1)
      let group := digits.take length
      let zeros := List.replicate (length - digits.length) '0'
      let rest := digits.drop length
      if rest.isEmpty && least ≤ length then group ++ zeros
      else
        group ++ zeros ++
          separator :: groupFrom size separator rest (least - length - 1) fuel

def grouped (size : Nat) (separator : Option Char) (least : Nat) (digits : List Char) :
    List Char :=
  match separator with
  | none => List.replicate (least - digits.length) '0' ++ digits
  | some c => (groupFrom size c digits.reverse least (digits.length + least)).reverse

def renderParts (layout : Layout) (size : Nat) (parts : NumberParts) :
    Except LayoutFault (List Char) :=
  let width := layout.width.getD 0
  if widthLimit < width then .error .tooWide
  else
    let sign := signText layout.sign parts.negative
    let others := sign.length + parts.mark.length + parts.rest.length
    let least :=
      if layout.fill = '0' && layout.alignment = .afterSign then width - others else 0
    let digits :=
      if parts.digits.isEmpty then [] else grouped size layout.separator least parts.digits
    let (before, inside, after) := padding layout (others + digits.length)
    .ok (before ++ sign ++ parts.mark ++ inside ++ digits ++ parts.rest ++ after)

def realStyle : LayoutStyle := ⟨"float", .right, Char.ofNat 0⟩

def greatestPrecision : Nat := 2147483647

def magnitude (code : Char) (precision : Option Nat) (keepPoint : Bool) (m : Nat) (e : Int) :
    List Char :=
  if code = 'f' || code = '%' then Binary64.fixedText (precision.getD 6) keepPoint m e
  else if code = 'e' then Binary64.exponentialText (precision.getD 6) keepPoint m e
  else if code = 'g' || code = 'n' then
    Binary64.generalText (precision.getD 6) false keepPoint m e
  else match precision with
    | some digits => Binary64.generalText digits true keepPoint m e
    | none => Binary64.shortestText keepPoint m e

def isZeroText (text : List Char) : Bool :=
  (text.takeWhile (· != 'e')).all fun c => c == '0' || c == '.'

def capitals (text : List Char) : List Char := text.map Char.toUpper

def realParts (layout : Layout) (code : Char) (x : Binary64) : NumberParts :=
  let lower := code.toLower
  let x := if code = '%' then x.percent else x
  let percent := if code = '%' then ['%'] else []
  let shape (text : List Char) := if code.isUpper then capitals text else text
  match x with
  | .infinite negative => ⟨negative, [], [], shape "inf".toList ++ percent⟩
  | .finite negative m e =>
      let text := magnitude lower layout.precision layout.alternate m e
      ⟨negative && !(layout.unsignedZero && isZeroText text), [], text.takeWhile Char.isDigit,
        shape (text.dropWhile Char.isDigit) ++ percent⟩

def renderRealWith (layout : Layout) (code : Char) (x : Binary64) :
    Except LayoutFault (List Char) :=
  let precision := layout.precision.getD 0
  if greatestPrecision < precision then .error .precisionTooBig
  else if widthLimit < precision then .error .tooWide
  else renderParts layout 3 (realParts layout code x)

def renderReal (x : Binary64) (spec : List Char) : Except LayoutFault (List Char) := do
  let layout ← Layout.ofSpec realStyle spec
  let code := layout.code.getD realStyle.code
  if code.toNat = 0 || "eEfFgGn%".toList.contains code then renderRealWith layout code x
  else throw (.unknownCode code realStyle.kind)

def integerStyle (kind : String) : LayoutStyle := ⟨kind, .right, 'd'⟩

def baseOf (code : Char) : Nat × List Char :=
  if code = 'b' then (2, ['0', 'b'])
  else if code = 'o' then (8, ['0', 'o'])
  else if code = 'x' then (16, ['0', 'x'])
  else if code = 'X' then (16, ['0', 'X'])
  else (10, [])

def integerParts (layout : Layout) (code : Char) (n : Int) : NumberParts :=
  let (base, mark) := baseOf code
  let digits := Nat.toDigits base n.natAbs
  ⟨n < 0, if layout.alternate then mark else [], if code = 'X' then capitals digits else digits, []⟩

def characterParts (layout : Layout) (n : Int) : Except LayoutFault NumberParts :=
  if layout.sign.isSome then .error .characterSign
  else if layout.alternate then .error .characterAlternate
  else if n < 0 || 0x10FFFF < n then .error .notCodePoint
  else .ok ⟨false, [], [], [Char.ofNat n.toNat]⟩

def renderIntegerWith (layout : Layout) (code : Char) (n : Int) :
    Except LayoutFault (List Char) :=
  if layout.precision.isSome then .error .integerPrecision
  else if layout.unsignedZero then .error .integerUnsignedZero
  else if code = 'c' then (characterParts layout n).bind (renderParts layout 3)
  else renderParts layout (if (baseOf code).1 = 10 then 3 else 4) (integerParts layout code n)

def renderInteger (kind : String) (n : Int) (spec : List Char) :
    Except LayoutFault (List Char) := do
  let style := integerStyle kind
  let layout ← Layout.ofSpec style spec
  let code := layout.code.getD style.code
  if "bcdoxXn".toList.contains code then renderIntegerWith layout code n
  else if "eEfFgG%".toList.contains code then
    match Binary64.ofInt? n with
    | some x => renderRealWith layout code x
    | none => throw .tooLarge
  else throw (.unknownCode code kind)

def Value.render (value : Value) (spec : List Char) : Except LayoutFault (List Char) :=
  if spec.isEmpty then .ok value.display.toList
  else match value with
    | .text written => renderText written.toList spec
    | .int n => renderInteger "int" n spec
    | .bool b => renderInteger "bool" (if b then 1 else 0) spec
    | .real x => renderReal x spec
    | _ => .error .noLayout

end SchemaReader.Document

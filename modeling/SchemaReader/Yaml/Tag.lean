import SchemaReader.Text.Encoding
import SchemaReader.Yaml.Token

/-!
Names in a settings text: anchors, tags and directives.
-/

namespace SchemaReader.Yaml

def isAnchorChar (c : Char) : Bool := c.isAlphanum || c == '-' || c == '_'

def anchorName (cursor : Cursor) : Except YamlFault (List Char × Cursor) :=
  let (name, place) := cursor.takeWhile isAnchorChar
  let ended := isGap place.head || place.head.any fun c => "?:,]\x7d%@`".toList.contains c
  if name.isEmpty || !ended then .error .badAnchor else .ok (name, place)

def isTagChar (c : Char) : Bool :=
  c.isAlphanum || "-;/?:@&=+$,_.!~*'()[]%".toList.contains c

def escapedBytes (cursor : Cursor) (bytes : List UInt8) :
    Nat → Except YamlFault (List UInt8 × Cursor)
  | 0 => .ok (bytes.reverse, cursor)
  | fuel + 1 =>
      match cursor.rest with
      | '%' :: a :: b :: _ =>
          match hexNumber? [a, b] with
          | some n => escapedBytes (cursor.skip 3) (UInt8.ofNat n :: bytes) fuel
          | none => .error .badTag
      | '%' :: _ => .error .badTag
      | _ => .ok (bytes.reverse, cursor)

/-- The characters of a tag; escaped bytes form characters of their own. -/
def tagCharsFrom (cursor : Cursor) (out : List Char) (bound : Nat) :
    Nat → Except YamlFault (List Char × Cursor)
  | 0 => .ok (out.reverse, cursor)
  | fuel + 1 =>
      match cursor.head with
      | none => .ok (out.reverse, cursor)
      | some c =>
          if c = '%' then do
            let (bytes, place) ← escapedBytes cursor [] bound
            match Text.decodeUtf8 bytes with
            | .ok text => tagCharsFrom place (text.reverse ++ out) bound fuel
            | .error _ => throw .badTag
          else if isTagChar c then tagCharsFrom cursor.next (c :: out) bound fuel
          else .ok (out.reverse, cursor)

def tagChars (bound : Nat) (cursor : Cursor) : Except YamlFault (List Char × Cursor) := do
  let (text, place) ← tagCharsFrom cursor [] bound bound
  if text.isEmpty then throw .badTag else return (text, place)

def tagHandle (cursor : Cursor) : Except YamlFault (List Char × Cursor) :=
  if cursor.head ≠ some '!' then .error .badTag
  else if cursor.peek 1 = some ' ' then .ok (['!'], cursor.next)
  else
    let (name, place) := cursor.next.takeWhile isAnchorChar
    if place.head = some '!' then .ok ('!' :: name ++ ['!'], place.next) else .error .badTag

def hasHandle (cursor : Cursor) : Bool :=
  (cursor.next.rest.takeWhile fun c => !isSpaceOrEnd (some c)).contains '!'

def tagName (bound : Nat) (cursor : Cursor) : Except YamlFault (TagName × Cursor) := do
  let (tag, place) ←
    if cursor.peek 1 = some '<' then do
      let (suffix, place) ← tagChars bound (cursor.skip 2)
      if place.head = some '>' then pure (TagName.mk none suffix, place.next)
      else throw YamlFault.badTag
    else if isGap (cursor.peek 1) then pure (TagName.mk none ['!'], cursor.next)
    else do
      let (handle, place) ←
        if hasHandle cursor then tagHandle cursor else pure (['!'], cursor.next)
      let (suffix, place) ← tagChars bound place
      pure (TagName.mk (some handle) suffix, place)
  if isSpaceOrEnd place.head then return (tag, place) else throw .badTag

def versionNumber (cursor : Cursor) : Except YamlFault (Nat × Cursor) :=
  let (digits, place) := cursor.takeWhile Char.isDigit
  if digits.isEmpty then .error .badDirective
  else if Number.maxDigits < digits.length then
    .error (.scalar (.tooManyDigits digits.length))
  else .ok (Number.digitsValue digits, place)

def version (cursor : Cursor) : Except YamlFault (Nat × Cursor) := do
  let (major, place) ← versionNumber cursor.skipSpaces
  if place.head ≠ some '.' then throw .badDirective
  let (_, place) ← versionNumber place.next
  if isSpaceOrEnd place.head then return (major, place) else throw .badDirective

def handleMeaning (bound : Nat) (cursor : Cursor) :
    Except YamlFault (Directive × Cursor) := do
  let (name, place) ← tagHandle cursor.skipSpaces
  if place.head ≠ some ' ' then throw .badDirective
  let (lead, place) ← tagChars bound place.skipSpaces
  if isSpaceOrEnd place.head then return (.handle name lead, place) else throw .badDirective

def afterLine (cursor : Cursor) : Except YamlFault Cursor :=
  let place := cursor.skipSpaces
  let place := if place.head = some '#' then (place.takeWhile (!isBreak ·)).2 else place
  if !isLineEnd place.head then .error .badDirective
  else match place.lineBreak? with
    | some (_, next) => .ok next
    | none => .ok place

def directive (bound : Nat) (cursor : Cursor) : Except YamlFault (Directive × Cursor) := do
  let (name, place) := cursor.takeWhile isAnchorChar
  if name.isEmpty || !isSpaceOrEnd place.head then throw .badDirective
  if name = "YAML".toList then
    let (major, place) ← version place
    return (.version major, ← afterLine place)
  else if name = "TAG".toList then
    let (meaning, place) ← handleMeaning bound place
    return (meaning, ← afterLine place)
  else return (.other, ← afterLine (place.takeWhile (!isBreak ·)).2)

end SchemaReader.Yaml

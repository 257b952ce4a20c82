import SchemaReader.Yaml.Fault

/-!
The tokens of a settings text.

Lines and columns decide how a settings text is nested, so a cursor counts them as it advances.
-/

namespace SchemaReader.Yaml

def isBreak (c : Char) : Bool :=
  c == '\n' || c == '\r' || c.toNat == 0x85 || c.toNat == 0x2028 || c.toNat == 0x2029

def isGap : Option Char → Bool
  | none => true
  | some c => c == ' ' || c == '\t' || isBreak c

def isLineEnd : Option Char → Bool
  | none => true
  | some c => isBreak c

def isSpaceOrEnd (c : Option Char) : Bool := c == some ' ' || isLineEnd c

structure Cursor where
  rest : List Char
  index : Nat
  line : Nat
  column : Nat
  deriving Repr

namespace Cursor

def start (text : List Char) : Cursor := ⟨text, 0, 0, 0⟩

def peek (cursor : Cursor) (ahead : Nat) : Option Char := cursor.rest[ahead]?

def head (cursor : Cursor) : Option Char := cursor.rest.head?

def next (cursor : Cursor) : Cursor :=
  match cursor.rest with
  | [] => cursor
  | c :: rest =>
      if isBreak c then ⟨rest, cursor.index + 1, cursor.line + 1, 0⟩
      else if c.toNat = 0xFEFF then ⟨rest, cursor.index + 1, cursor.line, cursor.column⟩
      else ⟨rest, cursor.index + 1, cursor.line, cursor.column + 1⟩

def skip : Nat → Cursor → Cursor
  | 0, cursor => cursor
  | n + 1, cursor => skip n cursor.next

def takeWhile (test : Char → Bool) (cursor : Cursor) : List Char × Cursor :=
  let taken := cursor.rest.takeWhile test
  (taken, cursor.skip taken.length)

def skipSpaces (cursor : Cursor) : Cursor := (cursor.takeWhile (· == ' ')).2

def atMarker (mark : Char) (cursor : Cursor) : Bool :=
  cursor.column == 0 && cursor.peek 0 == some mark && cursor.peek 1 == some mark &&
    cursor.peek 2 == some mark && isGap (cursor.peek 3)

def atAnyMarker (cursor : Cursor) : Bool := cursor.atMarker '-' || cursor.atMarker '.'

def lineBreak? (cursor : Cursor) : Option (Char × Cursor) :=
  match cursor.rest with
  | [] => none
  | c :: _ =>
      if !isBreak c then none
      else if c.toNat = 0x2028 || c.toNat = 0x2029 then some (c, cursor.next)
      else some ('\n', cursor.next)

end Cursor

open SchemaReader.Text (CodePoint pointsOf)

structure TagName where
  handle : Option (List Char)
  suffix : List Char
  deriving DecidableEq, Repr

inductive Directive where
  | version (major : Nat)
  | handle (name lead : List Char)
  | other
  deriving DecidableEq, Repr

inductive Token where
  | directive (directive : Directive)
  | documentStart
  | documentEnd
  | blockSequenceStart
  | blockMappingStart
  | blockEnd
  | flowSequenceStart
  | flowSequenceEnd
  | flowMappingStart
  | flowMappingEnd
  | blockEntry
  | flowEntry
  | key
  | value
  | alias (name : List Char)
  | anchor (name : List Char)
  | tag (name : TagName)
  | scalar (text : List CodePoint) (plain : Bool)
  | streamEnd
  | broken (fault : YamlFault)
  deriving DecidableEq, Repr

/-! Loops over a text take at most as many steps as it has characters, which is their `bound`. -/

def plainRun (inFlow : Bool) (out : List Char) : List Char → List Char
  | [] => out
  | c :: rest =>
      let stops := isGap (some c) ||
        (c == ':' && (isGap rest.head? ||
          (inFlow && rest.head?.any fun d => [',', '[', ']', '\x7b', '\x7d'].contains d))) ||
        (inFlow && [',', '?', '[', ']', '\x7b', '\x7d'].contains c)
      if stops then out else plainRun inFlow (c :: out) rest

/-- Spaces and line breaks, up to a document marker: the breaks, in reverse, and whether a marker
follows. -/
def foldBreaks (cursor : Cursor) (breaks : List Char) : Nat → List Char × Bool × Cursor
  | 0 => (breaks, false, cursor)
  | fuel + 1 =>
      match cursor.lineBreak? with
      | some (c, next) =>
          if next.atAnyMarker then (c :: breaks, true, next) else foldBreaks next (c :: breaks) fuel
      | none =>
          if cursor.head = some ' ' then foldBreaks cursor.next breaks fuel
          else (breaks, false, cursor)

def folded (first : Char) (breaks : List Char) : List Char :=
  if first ≠ '\n' then first :: breaks
  else if breaks.isEmpty then [' ']
  else breaks

/-- The gap after a run of a plain scalar: what it stands for if the scalar goes on, whether it
holds a line break, and the place after it. -/
def plainGap (bound : Nat) (cursor : Cursor) : List Char × Bool × Cursor :=
  let (spaces, after) := cursor.takeWhile (· == ' ')
  match after.lineBreak? with
  | none => (spaces, false, after)
  | some (first, next) =>
      if next.atAnyMarker then ([], true, next)
      else
        let (breaks, marker, place) := foldBreaks next [] bound
        (if marker then [] else folded first breaks.reverse, true, place)

def plainFrom (inFlow : Bool) (indent : Int) (cursor : Cursor) (out gap : List Char)
    (broken : Bool) (bound : Nat) : Nat → List Char × Bool × Cursor
  | 0 => (out.reverse, broken, cursor)
  | fuel + 1 =>
      let run := plainRun inFlow [] cursor.rest
      if cursor.head = some '#' || run.isEmpty then (out.reverse, broken, cursor)
      else
        let out := run ++ gap.reverse ++ out
        let (gap, broken, place) := plainGap bound (cursor.skip run.length)
        if gap.isEmpty || place.head = some '#' || (!inFlow && (place.column : Int) < indent) then
          (out.reverse, broken, place)
        else plainFrom inFlow indent place out gap broken bound fuel

def hexValue? (c : Char) : Option Nat :=
  if c.isDigit then some (c.toNat - 48)
  else if 'a' ≤ c && c ≤ 'f' then some (c.toNat - 87)
  else if 'A' ≤ c && c ≤ 'F' then some (c.toNat - 55)
  else none

def hexNumber? (digits : List Char) : Option Nat :=
  digits.foldl (fun n c => n.bind fun n => (hexValue? c).map (16 * n + ·)) (some 0)

def escapeWidth? (c : Char) : Option Nat :=
  if c = 'x' then some 2 else if c = 'u' then some 4 else if c = 'U' then some 8 else none

def escapeChar? (c : Char) : Option Char :=
  [('0', 0), ('a', 7), ('b', 8), ('t', 9), ('\t', 9), ('n', 10), ('v', 11), ('f', 12), ('r', 13),
    ('e', 27), (' ', 32), ('"', 34), ('\\', 92), ('/', 47), ('N', 0x85), ('_', 0xA0),
    ('L', 0x2028), ('P', 0x2029)].lookup c |>.map Char.ofNat

def quotedBreaks (cursor : Cursor) (breaks : List Char) :
    Nat → Except YamlFault (List Char × Cursor)
  | 0 => .ok (breaks.reverse, cursor)
  | fuel + 1 =>
      if cursor.atAnyMarker then .error .markerInQuote
      else
        let place := (cursor.takeWhile fun c => c == ' ' || c == '\t').2
        match place.lineBreak? with
        | some (c, next) => quotedBreaks next (c :: breaks) fuel
        | none => .ok (breaks.reverse, place)

def quotedGap (bound : Nat) (cursor : Cursor) : Except YamlFault (List Char × Cursor) :=
  let (blanks, place) := cursor.takeWhile fun c => c == ' ' || c == '\t'
  if place.rest.isEmpty then .error .unclosedQuote
  else match place.lineBreak? with
    | none => .ok (blanks, place)
    | some (first, next) =>
        (quotedBreaks next [] bound).map fun (breaks, place) => (folded first breaks, place)

def codePoint (n : Nat) : Except YamlFault CodePoint :=
  if n < 0x110000 then .ok (.ofNat n)
  else .error (.scalar (if n < 0x80000000 then .notCodePoint else .notWord))

def escape (bound : Nat) (cursor : Cursor) : Except YamlFault (List CodePoint × Cursor) :=
  match cursor.rest with
  | [] => .error .badEscape
  | c :: rest =>
      match escapeChar? c, escapeWidth? c with
      | some d, _ => .ok ([.char d], cursor.next)
      | none, some width =>
          let digits := rest.take width
          match hexNumber? digits with
          | some n =>
              if digits.length < width then .error .badEscape
              else (codePoint n).map fun point => ([point], cursor.skip (width + 1))
          | none => .error .badEscape
      | none, none =>
          match cursor.lineBreak? with
          | some (_, next) =>
              (quotedBreaks next [] bound).map fun (breaks, place) => (pointsOf breaks, place)
          | none => .error .badEscape

def quotedFrom (double : Bool) (cursor : Cursor) (out : List CodePoint) (bound : Nat) :
    Nat → Except YamlFault (List CodePoint × Cursor)
  | 0 => .error .unclosedQuote
  | fuel + 1 =>
      match cursor.rest with
      | [] => .error .unclosedQuote
      | c :: rest =>
          if !double && c == '\'' && rest.head? == some '\'' then
            quotedFrom double (cursor.skip 2) (.char '\'' :: out) bound fuel
          else if c = (if double then '"' else '\'') then .ok (out.reverse, cursor.next)
          else if double && c == '\\' then
            match escape bound cursor.next with
            | .ok (text, place) => quotedFrom double place (text.reverse ++ out) bound fuel
            | .error fault => .error fault
          else if isGap (some c) then
            match quotedGap bound cursor with
            | .ok (text, place) =>
                quotedFrom double place ((pointsOf text).reverse ++ out) bound fuel
            | .error fault => .error fault
          else quotedFrom double cursor.next (.char c :: out) bound fuel

structure BlockHeader where
  chomping : Option Bool
  indent : Option Nat
  deriving Repr

def chompingOf? (c : Char) : Option Bool :=
  if c = '+' then some true else if c = '-' then some false else none

def blockSigns (cursor : Cursor) : Except YamlFault (BlockHeader × Cursor) :=
  let indentOf (c : Option Char) : Except YamlFault (Option Nat) :=
    match c with
    | some d =>
        if d = '0' then .error .badBlockHeader
        else if d.isDigit then .ok (some (d.toNat - 48))
        else .ok none
    | none => .ok none
  match cursor.head.bind chompingOf? with
  | some keep =>
      (indentOf (cursor.peek 1)).map fun indent =>
        (⟨some keep, indent⟩, cursor.skip (if indent.isSome then 2 else 1))
  | none =>
      (indentOf cursor.head).map fun indent =>
        match indent with
        | none => (⟨none, none⟩, cursor)
        | some n =>
            match (cursor.peek 1).bind chompingOf? with
            | some keep => (⟨some keep, some n⟩, cursor.skip 2)
            | none => (⟨none, some n⟩, cursor.next)

def blockHeader (cursor : Cursor) : Except YamlFault (BlockHeader × Cursor) := do
  let (header, place) ← blockSigns cursor
  if isSpaceOrEnd place.head then return (header, place) else throw .badBlockHeader

def afterHeader (cursor : Cursor) : Except YamlFault Cursor :=
  let place := cursor.skipSpaces
  let place := if place.head = some '#' then (place.takeWhile (!isBreak ·)).2 else place
  if place.rest.isEmpty then .ok place
  else match place.lineBreak? with
    | some (_, next) => .ok next
    | none => .error .badBlockHeader

def leadingBreaks (cursor : Cursor) (breaks : List Char) (deepest : Nat) :
    Nat → List Char × Nat × Cursor
  | 0 => (breaks.reverse, deepest, cursor)
  | fuel + 1 =>
      if cursor.head = some ' ' then
        leadingBreaks cursor.next breaks (max deepest cursor.next.column) fuel
      else match cursor.lineBreak? with
        | some (c, next) => leadingBreaks next (c :: breaks) deepest fuel
        | none => (breaks.reverse, deepest, cursor)

def skipIndent (indent : Nat) (cursor : Cursor) : Nat → Cursor
  | 0 => cursor
  | fuel + 1 =>
      if cursor.column < indent && cursor.head == some ' ' then skipIndent indent cursor.next fuel
      else cursor

def innerBreaks (indent : Nat) (cursor : Cursor) (breaks : List Char) : Nat → List Char × Cursor
  | 0 => (breaks.reverse, cursor)
  | fuel + 1 =>
      let place := skipIndent indent cursor indent
      match place.lineBreak? with
      | some (c, next) => innerBreaks indent next (c :: breaks) fuel
      | none => (breaks.reverse, place)

/-- The lines of a block scalar; `out` is the text so far, in reverse, `last` the line break before
this line and `breaks` the empty lines after it. -/
def blockLines (foldLines keepLast keepAll : Bool) (indent : Nat) (cursor : Cursor)
    (out last breaks : List Char) (bound : Nat) : Nat → List Char × Cursor
  | 0 => (out.reverse, cursor)
  | fuel + 1 =>
      let finish (out last breaks : List Char) (place : Cursor) : List Char × Cursor :=
        let out := if keepLast then last ++ out else out
        let out := if keepAll then breaks.reverse ++ out else out
        (out.reverse, place)
      if cursor.column ≠ indent || cursor.rest.isEmpty then finish out last breaks cursor
      else
        let out := breaks.reverse ++ out
        let leadingText := !(cursor.head == some ' ' || cursor.head == some '\t')
        let (line, place) := cursor.takeWhile (!isBreak ·)
        let out := line.reverse ++ out
        match place.lineBreak? with
        | none => finish out [] [] place
        | some (c, next) =>
            let (breaks, place) := innerBreaks indent next [] bound
            if place.column = indent && !place.rest.isEmpty then
              let nextText := !(place.head == some ' ' || place.head == some '\t')
              let out :=
                if foldLines && c == '\n' && leadingText && nextText then
                  if breaks.isEmpty then ' ' :: out else out
                else c :: out
              blockLines foldLines keepLast keepAll indent place out [] breaks bound fuel
            else finish out [c] breaks place

def blockScalar (foldLines : Bool) (outer : Int) (bound : Nat) (cursor : Cursor) :
    Except YamlFault (List Char × Cursor) := do
  let (header, place) ← blockHeader cursor
  let place ← afterHeader place
  let least := max (outer + 1) 1
  let keepLast := header.chomping != some false
  let keepAll := header.chomping == some true
  match header.indent with
  | some n =>
      let indent := (least - 1 + n).toNat
      let (breaks, place) := innerBreaks indent place [] bound
      return blockLines foldLines keepLast keepAll indent place [] [] breaks bound bound
  | none =>
      let (breaks, deepest, place) := leadingBreaks place [] 0 bound
      let indent := max least.toNat deepest
      return blockLines foldLines keepLast keepAll indent place [] [] breaks bound bound

end SchemaReader.Yaml

import SchemaReader.Yaml.Tag

/-!
A settings text as a sequence of tokens.

Outside brackets, indentation opens and closes blocks.  A scalar may turn out to be a key when a
colon follows it on its line, so the place of the last candidate on each level of brackets is kept
until then.  Tokens from the first candidate on are not settled.  Where the text cannot be read on,
the settled tokens still count, and the fault comes after them.
-/

namespace SchemaReader.Yaml

open SchemaReader.Text (CodePoint pointsOf)

/-- A token that a colon would turn into a key. -/
structure Candidate where
  position : Nat
  required : Bool
  index : Nat
  line : Nat
  column : Nat
  deriving Repr

structure ScanState where
  cursor : Cursor
  bound : Nat
  tokens : Array Token := #[]
  flowLevel : Int := 0
  indent : Int := -1
  outer : List Int := []
  keyAllowed : Bool := true
  candidates : List (Int × Candidate) := []

namespace ScanState

def inFlow (s : ScanState) : Bool := s.flowLevel != 0

def push (s : ScanState) (token : Token) : ScanState := { s with tokens := s.tokens.push token }

def unwind (column : Int) : Nat → ScanState → ScanState
  | 0, s => s
  | fuel + 1, s =>
      if s.inFlow || s.indent ≤ column then s
      else
        unwind column fuel
          { s with indent := s.outer.headD (-1), outer := s.outer.tail,
                   tokens := s.tokens.push .blockEnd }

def unwindTo (column : Int) (s : ScanState) : ScanState := unwind column (s.outer.length + 1) s

def opensBlock (s : ScanState) (column : Int) : Bool := s.indent < column

def enter (s : ScanState) (column : Int) : ScanState :=
  { s with indent := column, outer := s.indent :: s.outer }

def candidate? (s : ScanState) : Option Candidate := s.candidates.lookup s.flowLevel

def forget (s : ScanState) : ScanState :=
  { s with candidates := s.candidates.filter fun (level, _) => level != s.flowLevel }

/-- The candidate on this level is given up; one that had to be a key is a fault. -/
def dropCandidate (s : ScanState) : Except YamlFault ScanState :=
  if (s.candidate?.map (·.required)).getD false then .error .keyWithoutColon else .ok s.forget

def saveCandidate (s : ScanState) : Except YamlFault ScanState :=
  if s.keyAllowed then do
    let required := !s.inFlow && s.indent == s.cursor.column
    let s ← s.dropCandidate
    let candidate : Candidate :=
      ⟨s.tokens.size, required, s.cursor.index, s.cursor.line, s.cursor.column⟩
    return { s with candidates := (s.flowLevel, candidate) :: s.candidates }
  else .ok s

def longestKey : Nat := 1024

def isStale (s : ScanState) (c : Candidate) : Bool :=
  c.line != s.cursor.line || longestKey < s.cursor.index - c.index

def dropStale (s : ScanState) : Except YamlFault ScanState :=
  if s.candidates.any fun (_, c) => s.isStale c && c.required then .error .keyWithoutColon
  else .ok { s with candidates := s.candidates.filter fun (_, c) => !s.isStale c }

def toNextToken : Nat → ScanState → ScanState
  | 0, s => s
  | fuel + 1, s =>
      let place := s.cursor.skipSpaces
      let place := if place.head = some '#' then (place.takeWhile (!isBreak ·)).2 else place
      match place.lineBreak? with
      | some (_, next) =>
          toNextToken fuel { s with cursor := next, keyAllowed := s.keyAllowed || !s.inFlow }
      | none => { s with cursor := place }

def take (s : ScanState) (token : Token) (place : Cursor) : ScanState :=
  { s.push token with cursor := place, keyAllowed := false }

def closeBlocks (s : ScanState) : Except YamlFault ScanState := (s.unwindTo (-1)).dropCandidate

def takeMarker (s : ScanState) (token : Token) : Except YamlFault ScanState :=
  s.closeBlocks.map fun s => s.take token (s.cursor.skip 3)

def takeDirective (s : ScanState) : Except YamlFault ScanState := do
  let s ← s.closeBlocks
  let (content, place) ← directive s.bound s.cursor.next
  return s.take (.directive content) place

def takeFlowStart (s : ScanState) (token : Token) : Except YamlFault ScanState := do
  let s ← s.saveCandidate
  return { s.push token with
    flowLevel := s.flowLevel + 1, keyAllowed := true, cursor := s.cursor.next }

def takeFlowEnd (s : ScanState) (token : Token) : Except YamlFault ScanState := do
  let s ← s.dropCandidate
  return { s.push token with
    flowLevel := s.flowLevel - 1, keyAllowed := false, cursor := s.cursor.next }

def takeFlowEntry (s : ScanState) : Except YamlFault ScanState := do
  let s ← s.dropCandidate
  return { s.push .flowEntry with keyAllowed := true, cursor := s.cursor.next }

def openBlock (s : ScanState) (token : Token) (refusal : YamlFault) :
    Except YamlFault ScanState :=
  if s.inFlow then .ok s
  else if !s.keyAllowed then .error refusal
  else if s.opensBlock s.cursor.column then .ok ((s.enter s.cursor.column).push token)
  else .ok s

def takeBlockEntry (s : ScanState) : Except YamlFault ScanState := do
  let s ← s.openBlock .blockSequenceStart .entryNotAllowed
  let s ← s.dropCandidate
  return { s.push .blockEntry with keyAllowed := true, cursor := s.cursor.next }

def takeKey (s : ScanState) : Except YamlFault ScanState := do
  let s ← s.openBlock .blockMappingStart .keyNotAllowed
  let s ← s.dropCandidate
  return { s.push .key with keyAllowed := !s.inFlow, cursor := s.cursor.next }

/-- The key token, and the start of a mapping if it is the first key of one, before a candidate. -/
def insertKey (s : ScanState) (c : Candidate) : ScanState :=
  let keyed := s.tokens.insertIdxIfInBounds c.position .key
  if !s.inFlow && s.opensBlock c.column then
    { s.enter c.column with tokens := keyed.insertIdxIfInBounds c.position .blockMappingStart }
  else { s with tokens := keyed }

def takeValue (s : ScanState) : Except YamlFault ScanState :=
  match s.candidate? with
  | some c => .ok ((s.forget.insertKey c).take .value s.cursor.next)
  | none => do
      let s ← s.openBlock .blockMappingStart .valueNotAllowed
      let s ← s.dropCandidate
      return { s.push .value with keyAllowed := !s.inFlow, cursor := s.cursor.next }

def takeNode {α : Type} (s : ScanState) (read : Cursor → Except YamlFault (α × Cursor))
    (token : α → Token) : Except YamlFault ScanState := do
  let s ← s.saveCandidate
  let (content, place) ← read s.cursor
  return s.take (token content) place

def takeQuoted (s : ScanState) (double : Bool) : Except YamlFault ScanState :=
  s.takeNode (fun place => quotedFrom double place.next [] s.bound s.bound) (.scalar · false)

def takePlain (s : ScanState) : Except YamlFault ScanState := do
  let s ← s.saveCandidate
  let (text, broken, place) :=
    plainFrom s.inFlow (s.indent + 1) s.cursor [] [] false s.bound s.bound
  return { s.push (.scalar (pointsOf text) true) with cursor := place, keyAllowed := broken }

def takeBlockScalar (s : ScanState) (foldLines : Bool) : Except YamlFault ScanState := do
  let s ← s.dropCandidate
  let (text, place) ← blockScalar foldLines s.indent s.bound s.cursor.next
  return { s.push (.scalar (pointsOf text) false) with cursor := place, keyAllowed := true }

def indicators : List Char :=
  "-?:,[]\x7b\x7d#&*!|>'\"%@`".toList

def startsPlain (s : ScanState) (c : Char) (next : Option Char) : Bool :=
  (!isGap (some c) && !indicators.contains c) ||
    (!isGap next && (c == '-' || (!s.inFlow && (c == '?' || c == ':'))))

def takeToken (s : ScanState) (c : Char) : Except YamlFault ScanState :=
  let cursor := s.cursor
  let next := cursor.peek 1
  if c = '%' && cursor.column == 0 then s.takeDirective
  else if cursor.atMarker '-' then s.takeMarker .documentStart
  else if cursor.atMarker '.' then s.takeMarker .documentEnd
  else if c = '[' then s.takeFlowStart .flowSequenceStart
  else if c = '\x7b' then s.takeFlowStart .flowMappingStart
  else if c = ']' then s.takeFlowEnd .flowSequenceEnd
  else if c = '\x7d' then s.takeFlowEnd .flowMappingEnd
  else if c = ',' then s.takeFlowEntry
  else if c = '-' && isGap next then s.takeBlockEntry
  else if c = '?' && (s.inFlow || isGap next) then s.takeKey
  else if c = ':' && (s.inFlow || isGap next) then s.takeValue
  else if c = '*' then s.takeNode (fun place => anchorName place.next) .alias
  else if c = '&' then s.takeNode (fun place => anchorName place.next) .anchor
  else if c = '!' then s.takeNode (tagName s.bound) .tag
  else if c = '|' && !s.inFlow then s.takeBlockScalar false
  else if c = '>' && !s.inFlow then s.takeBlockScalar true
  else if c = '\'' then s.takeQuoted false
  else if c = '"' then s.takeQuoted true
  else if s.startsPlain c next then s.takePlain
  else .error .badCharacter

def fetch (s : ScanState) : Except YamlFault (ScanState × Bool) := do
  let s := toNextToken s.bound s
  let s ← s.dropStale
  let s := s.unwindTo s.cursor.column
  match s.cursor.head with
  | none =>
      let s ← s.closeBlocks
      return (s.push .streamEnd, true)
  | some c => return (← s.takeToken c, false)

def settled (s : ScanState) : Nat :=
  s.candidates.foldl (fun least (_, c) => min least c.position) s.tokens.size

/-- The tokens of the text; every step takes at least one character, and `sure` tokens are settled
before it. -/
def scanFrom (sure : Nat) (s : ScanState) : Nat → List Token
  | 0 => s.tokens.toList
  | fuel + 1 =>
      let stop (s : ScanState) (fault : YamlFault) : List Token :=
        s.tokens.toList.take sure ++ [.broken fault]
      match s.fetch with
      | .error fault => stop s fault
      | .ok (s, true) => s.tokens.toList
      | .ok (s, false) =>
          match s.dropStale with
          | .error fault => stop s fault
          | .ok s => scanFrom s.settled s fuel

end ScanState

def isAllowed (c : Char) : Bool :=
  let n := c.toNat
  n == 9 || n == 10 || n == 13 || (0x20 ≤ n && n ≤ 0x7E) || n == 0x85 || (0xA0 ≤ n && n ≤ 0xFFFD) ||
    0x10000 ≤ n

def startCursor (text : List Char) : Cursor :=
  let cursor := Cursor.start text
  if cursor.head.any (·.toNat == 0xFEFF) then cursor.next else cursor

def tokens (text : List Char) : List Token :=
  if text.all isAllowed then
    let bound := text.length + 2
    ScanState.scanFrom 0 { cursor := startCursor text, bound := bound } bound
  else [.broken .unprintable]

end SchemaReader.Yaml

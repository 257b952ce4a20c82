import SchemaReader.Yaml.Kind

/-!
The nodes of a settings text.

A node may stand in several places, even inside itself, so nodes refer to each other by their
numbers in a graph.  A merging key has a mapping, or a list of mappings, whose entries count unless
the mapping has entries of its own under the same keys.
-/

namespace SchemaReader.Yaml

open SchemaReader.Text (CodePoint)

inductive Node where
  | scalar (kind : Kind) (text : List CodePoint)
  | sequence (kind : Kind) (items : List Nat)
  | mapping (kind : Kind) (entries : List (Nat × Nat))
  deriving DecidableEq, Repr

def Node.absent : Node := .scalar .null []

structure Graph where
  nodes : Array Node := #[]
  anchors : List (List Char × Nat) := []
  handles : List (List Char × List Char) := []
  deriving Repr

namespace Graph

def usualHandles : List (List Char × List Char) :=
  [(['!'], ['!']), (['!', '!'], standardLead)]

def add (graph : Graph) (node : Node) : Nat × Graph :=
  (graph.nodes.size, { graph with nodes := graph.nodes.push node })

def put (graph : Graph) (number : Nat) (node : Node) : Graph :=
  { graph with nodes := graph.nodes.setIfInBounds number node }

def name (graph : Graph) (name? : Option (List Char)) (number : Nat) : Graph :=
  match name? with
  | some name => { graph with anchors := (name, number) :: graph.anchors }
  | none => graph

def addNamed (graph : Graph) (name? : Option (List Char)) (node : Node) : Nat × Graph :=
  let (number, graph) := graph.add node
  (number, graph.name name? number)

def fullTag (graph : Graph) (tag : TagName) : Except YamlFault (List Char) :=
  match tag.handle with
  | none => .ok tag.suffix
  | some handle =>
      match graph.handles.lookup handle with
      | some lead => .ok (lead ++ tag.suffix)
      | none => .error .unknownHandle

end Graph

namespace Node

abbrev Found := Nat × Graph × List Token

def isBroken : List Token → Bool
  | .broken _ :: _ => true
  | _ => false

def unexpected : List Token → YamlFault
  | .broken fault :: _ => fault
  | _ => .unexpectedToken

def properties : List Token → Except YamlFault (Option (List Char) × Option TagName × List Token)
  | .anchor name :: .tag tag :: rest => .ok (some name, some tag, rest)
  | .tag tag :: .anchor name :: rest => .ok (some name, some tag, rest)
  | .anchor _ :: .broken fault :: _ | .tag _ :: .broken fault :: _ => .error fault
  | .anchor name :: rest => .ok (some name, none, rest)
  | .tag tag :: rest => .ok (none, some tag, rest)
  | rest => .ok (none, none, rest)

def headIn (tokens : List Token) (ends : List Token) : Bool :=
  tokens.head?.any ends.contains

inductive Place where
  | flow
  | block
  | blockValue
  deriving DecidableEq, Repr

def deepest : Nat := 489

/-- What is known of a node before its content: its name, its full tag, and how many lists and
mappings it stands in. -/
structure Start where
  name : Option (List Char)
  tag : Option (List Char)
  depth : Nat

inductive Content where
  | scalar (text : List CodePoint) (plain : Bool)
  | indentless
  | flowSequence
  | flowMapping
  | blockSequence
  | blockMapping
  deriving DecidableEq, Repr

def contentAt? (place : Place) : List Token → Option (Content × List Token)
  | .scalar text plain :: rest => some (.scalar text plain, rest)
  | .flowSequenceStart :: rest => some (.flowSequence, rest)
  | .flowMappingStart :: rest => some (.flowMapping, rest)
  | .blockEntry :: rest =>
      if place = .blockValue then some (.indentless, .blockEntry :: rest) else none
  | .blockSequenceStart :: rest => if place = .flow then none else some (.blockSequence, rest)
  | .blockMappingStart :: rest => if place = .flow then none else some (.blockMapping, rest)
  | _ => none

/-- A list or mapping is known under its name before its content is read. -/
def reserve (start : Start) (graph : Graph) : Except YamlFault (Nat × Graph) :=
  if deepest ≤ start.depth then .error .tooDeep else .ok (graph.addNamed start.name absent)

def endSequence (start : Start) (number : Nat) (items : List Nat) (graph : Graph)
    (tokens : List Token) : Found :=
  (number, graph.put number (.sequence (.ofTagOr .list start.tag) items.reverse), tokens)

def endMapping (start : Start) (number : Nat) (entries : List (Nat × Nat)) (graph : Graph)
    (tokens : List Token) : Found :=
  (number, graph.put number (.mapping (.ofTagOr .mapping start.tag) entries.reverse), tokens)

def addAbsent (graph : Graph) (tokens : List Token) : Found :=
  let (number, graph) := graph.add absent
  (number, graph, tokens)

mutual

def read (place : Place) (depth : Nat) (graph : Graph) (tokens : List Token) :
    Nat → Except YamlFault Found
  | 0 => .error .unexpectedToken
  | fuel + 1 =>
      match tokens with
      | .alias name :: rest =>
          match graph.anchors.lookup name with
          | some number => .ok (number, graph, rest)
          | none => .error .unknownAlias
      | _ => do
          let (name, tagName, rest) ← properties tokens
          let tag ← tagName.mapM graph.fullTag
          let start : Start := ⟨name, tag, depth⟩
          let isRepeated := name.any fun name => (graph.anchors.lookup name).isSome
          match contentAt? place rest with
          | none =>
              if (name.isNone && tag.isNone) || isBroken rest then throw (unexpected rest)
              else if isRepeated then throw .duplicateAnchor
              else
                let kind := Kind.ofScalar tag true []
                let (number, graph) := graph.addNamed name (.scalar kind [])
                return (number, graph, rest)
          | some (content, rest) =>
              if isRepeated then throw .duplicateAnchor
              else match content with
              | .scalar text plain =>
                  let kind := Kind.ofScalar tag plain text
                  let (number, graph) := graph.addNamed name (.scalar kind text)
                  return (number, graph, rest)
              | .indentless => do
                  let (number, graph) ← reserve start graph
                  readIndentless start number [] graph rest fuel
              | .flowSequence => do
                  let (number, graph) ← reserve start graph
                  readFlowItems start number [] graph rest fuel
              | .flowMapping => do
                  let (number, graph) ← reserve start graph
                  readFlowEntries start number [] graph rest fuel
              | .blockSequence => do
                  let (number, graph) ← reserve start graph
                  readItems start number [] graph rest fuel
              | .blockMapping => do
                  let (number, graph) ← reserve start graph
                  readEntries start number [] graph rest fuel
termination_by structural fuel => fuel

def readUnless (ends : List Token) (place : Place) (depth : Nat) (graph : Graph)
    (tokens : List Token) : Nat → Except YamlFault Found
  | 0 => .error .unexpectedToken
  | fuel + 1 =>
      if headIn tokens ends then .ok (addAbsent graph tokens)
      else read place depth graph tokens fuel
termination_by structural fuel => fuel

def readValue (ends : List Token) (place : Place) (depth : Nat) (graph : Graph)
    (tokens : List Token) : Nat → Except YamlFault Found
  | 0 => .error .unexpectedToken
  | fuel + 1 =>
      match tokens with
      | .value :: rest => readUnless ends place depth graph rest fuel
      | _ => .ok (addAbsent graph tokens)
termination_by structural fuel => fuel

def readItems (start : Start) (number : Nat) (out : List Nat) (graph : Graph)
    (tokens : List Token) : Nat → Except YamlFault Found
  | 0 => .error .unexpectedToken
  | fuel + 1 =>
      match tokens with
      | .blockEntry :: rest => do
          let (item, graph, rest) ←
            readUnless [.blockEntry, .blockEnd] .block (start.depth + 1) graph rest fuel
          readItems start number (item :: out) graph rest fuel
      | .blockEnd :: rest => .ok (endSequence start number out graph rest)
      | tokens => .error (unexpected tokens)
termination_by structural fuel => fuel

/-- The items of a sequence at the column of the mapping around it. -/
def readIndentless (start : Start) (number : Nat) (out : List Nat) (graph : Graph)
    (tokens : List Token) : Nat → Except YamlFault Found
  | 0 => .error .unexpectedToken
  | fuel + 1 =>
      match tokens with
      | .blockEntry :: rest => do
          let (item, graph, rest) ←
            readUnless [.blockEntry, .key, .value, .blockEnd] .block (start.depth + 1) graph rest
              fuel
          readIndentless start number (item :: out) graph rest fuel
      | tokens => .ok (endSequence start number out graph tokens)
termination_by structural fuel => fuel

def readEntries (start : Start) (number : Nat) (out : List (Nat × Nat)) (graph : Graph)
    (tokens : List Token) : Nat → Except YamlFault Found
  | 0 => .error .unexpectedToken
  | fuel + 1 =>
      match tokens with
      | .key :: rest => do
          let (key, graph, rest) ←
            readUnless [.key, .value, .blockEnd] .blockValue (start.depth + 1) graph rest fuel
          let (value, graph, rest) ←
            readValue [.key, .value, .blockEnd] .blockValue (start.depth + 1) graph rest fuel
          readEntries start number ((key, value) :: out) graph rest fuel
      | .blockEnd :: rest => .ok (endMapping start number out graph rest)
      | tokens => .error (unexpected tokens)
termination_by structural fuel => fuel

def readFlowItems (start : Start) (number : Nat) (out : List Nat) (graph : Graph)
    (tokens : List Token) : Nat → Except YamlFault Found
  | 0 => .error .unexpectedToken
  | fuel + 1 =>
      let more (tokens : List Token) : Except YamlFault Found :=
        match tokens with
        | .flowSequenceEnd :: rest => .ok (endSequence start number out graph rest)
        | .key :: rest => do
            let single : Start := ⟨none, none, start.depth + 1⟩
            let (item, graph) ← reserve single graph
            let (key, graph, rest) ←
              readUnless [.value, .flowEntry, .flowSequenceEnd] .flow (single.depth + 1) graph rest
                fuel
            let (value, graph, rest) ←
              readValue [.flowEntry, .flowSequenceEnd] .flow (single.depth + 1) graph rest fuel
            let (item, graph, rest) := endMapping single item [(key, value)] graph rest
            readFlowItems start number (item :: out) graph rest fuel
        | tokens => do
            let (item, graph, rest) ← read .flow (start.depth + 1) graph tokens fuel
            readFlowItems start number (item :: out) graph rest fuel
      match out, tokens with
      | [], tokens => more tokens
      | _, .flowEntry :: rest => more rest
      | _, .flowSequenceEnd :: rest => .ok (endSequence start number out graph rest)
      | _, tokens => .error (unexpected tokens)
termination_by structural fuel => fuel

def readFlowEntries (start : Start) (number : Nat) (out : List (Nat × Nat)) (graph : Graph)
    (tokens : List Token) : Nat → Except YamlFault Found
  | 0 => .error .unexpectedToken
  | fuel + 1 =>
      let more (tokens : List Token) : Except YamlFault Found :=
        match tokens with
        | .flowMappingEnd :: rest => .ok (endMapping start number out graph rest)
        | .key :: rest => do
            let (key, graph, rest) ←
              readUnless [.value, .flowEntry, .flowMappingEnd] .flow (start.depth + 1) graph rest
                fuel
            let (value, graph, rest) ←
              readValue [.flowEntry, .flowMappingEnd] .flow (start.depth + 1) graph rest fuel
            readFlowEntries start number ((key, value) :: out) graph rest fuel
        | tokens => do
            let (key, graph, rest) ← read .flow (start.depth + 1) graph tokens fuel
            let (value, graph, rest) := addAbsent graph rest
            readFlowEntries start number ((key, value) :: out) graph rest fuel
      match out, tokens with
      | [], tokens => more tokens
      | _, .flowEntry :: rest => more rest
      | _, .flowMappingEnd :: rest => .ok (endMapping start number out graph rest)
      | _, tokens => .error (unexpected tokens)
termination_by structural fuel => fuel

end

def fuelFor (tokens : List Token) : Nat := 4 * tokens.length + 4

def atStreamEnd (tokens : List Token) : Except YamlFault Unit :=
  match tokens.dropWhile (· == .documentEnd) with
  | .streamEnd :: _ => .ok ()
  | .broken fault :: _ => .error fault
  | _ => .error .duplicateDocument

def readDirectives (versioned : Bool) (handles : List (List Char × List Char)) :
    List Token → Except YamlFault (List (List Char × List Char) × List Token)
  | .directive (.version major) :: rest =>
      if versioned || major ≠ 1 then .error .badVersion else readDirectives true handles rest
  | .directive (.handle name lead) :: rest =>
      if (handles.lookup name).isSome then .error .duplicateHandle
      else readDirectives versioned ((name, lead) :: handles) rest
  | .directive .other :: rest => readDirectives versioned handles rest
  | tokens => .ok (handles, tokens)

def readDocument (handles : List (List Char × List Char)) (tokens : List Token) :
    Except YamlFault (Nat × Graph) := do
  let (number, graph, rest) ← read .block 0 { handles := handles } tokens (fuelFor tokens)
  atStreamEnd rest
  return (number, graph)

def startsDocument : Token → Bool
  | .directive _ | .documentStart | .documentEnd | .streamEnd => true
  | _ => false

def readMarked (handles : List (List Char × List Char)) (tokens : List Token) :
    Except YamlFault (Nat × Graph) := do
  if tokens.head?.any startsDocument then
    atStreamEnd tokens
    return Graph.add { handles := handles } absent
  else readDocument handles tokens

def ofTokens? (tokens : List Token) : Except YamlFault (Option (Nat × Graph)) := do
  match tokens with
  | [] | .streamEnd :: _ => return none
  | .directive _ :: _ | .documentStart :: _ =>
      let (handles, rest) ← readDirectives false [] tokens
      match rest with
      | .documentStart :: rest => return some (← readMarked (handles ++ Graph.usualHandles) rest)
      | rest => throw (unexpected rest)
  | _ => return some (← readDocument Graph.usualHandles tokens)

def kind : Node → Kind
  | scalar kind _ | sequence kind _ | mapping kind _ => kind

def withKind (kind : Kind) : Node → Node
  | scalar _ text => scalar kind text
  | sequence _ items => sequence kind items
  | mapping _ entries => mapping kind entries

def entries : Node → List (Nat × Nat)
  | mapping _ entries => entries
  | _ => []

end Node

namespace Graph

def node (graph : Graph) (number : Nat) : Node := graph.nodes[number]?.getD .absent

def isOfKind (graph : Graph) (kind : Kind) (number : Nat) : Bool := (graph.node number).kind == kind

def entriesAt (graph : Graph) (number : Nat) : List (Nat × Nat) := (graph.node number).entries

def setEntries (graph : Graph) (number : Nat) (entries : List (Nat × Nat)) : Graph :=
  graph.put number (.mapping (graph.node number).kind entries)

def settleDefaults (graph : Graph) (number : Nat) : Graph :=
  (graph.entriesAt number).foldl
    (fun graph (key, _) =>
      if graph.isOfKind .default key then
        graph.put key ((graph.node key).withKind .text)
      else graph)
    graph

def mergeAll (merge : Graph → Nat → Except YamlFault Graph) (graph : Graph)
    (out : List (Nat × Nat)) : List Nat → Except YamlFault (Graph × List (Nat × Nat))
  | [] => .ok (graph, out)
  | item :: items =>
      match graph.node item with
      | .mapping _ _ => do
          let graph ← merge graph item
          mergeAll merge graph (graph.entriesAt item ++ out) items
      | _ => .error .badMerge

def mergeValue (merge : Graph → Nat → Except YamlFault Graph) (graph : Graph) (value : Nat) :
    Except YamlFault (Graph × List (Nat × Nat)) :=
  match graph.node value with
  | .mapping _ _ => mergeAll merge graph [] [value]
  | .sequence _ items => mergeAll merge graph [] items
  | .scalar _ _ => .error .badMerge

/-- At most `count` merging entries of a mapping are replaced by what they bring in, which comes
before its own entries. -/
def mergeEntries (merge : Graph → Nat → Except YamlFault Graph) (number : Nat) (graph : Graph)
    (merged : List (Nat × Nat)) : (count : Nat) → Except YamlFault Graph
  | 0 => .ok (graph.setEntries number (merged ++ graph.entriesAt number))
  | count + 1 =>
      let entries := graph.entriesAt number
      match entries.findIdx? fun (key, _) => graph.isOfKind .merge key with
      | none => .ok (graph.setEntries number (merged ++ entries))
      | some index => do
          let value := (entries[index]?.map (·.2)).getD 0
          let graph := graph.setEntries number (entries.eraseIdx index)
          let (graph, more) ← mergeValue merge graph value
          mergeEntries merge number graph (merged ++ more) count

/-- The graph after the entries of other mappings were merged into one.  Every step inwards takes a
merging entry away, so a step for each node is enough. -/
def flattenTo : (fuel : Nat) → Graph → Nat → Except YamlFault Graph
  | 0, _, _ => .error .tooDeep
  | fuel + 1, graph, number =>
      let graph := graph.settleDefaults number
      mergeEntries (flattenTo fuel) number graph [] (graph.entriesAt number).length

def flatten (graph : Graph) (number : Nat) : Except YamlFault Graph :=
  flattenTo (graph.nodes.size + 1) graph number

end Graph

end SchemaReader.Yaml

import SchemaReader.Yaml.Node
import SchemaReader.Yaml.Scalar
import SchemaReader.Yaml.Tokens

/-!
The value of a settings text.

Nodes get their values level by level.  A list or mapping has a value at once, and what it holds is
looked at later, so a node may hold itself.  Only the outermost mapping keeps its entries: settings
are not nested.

This and the modules below it stand for the safe loader of the library `yaml`, which knows the
standard tags and no others.  What is proved of the command holds of whatever settings the loader
gives: no result depends on how it reads them.
-/

namespace SchemaReader.Yaml

open SchemaReader.Document (Value)
open SchemaReader.Text (CodePoint)

namespace Graph

def textAt (graph : Graph) : (fuel : Nat) → Nat → Except YamlFault (List CodePoint)
  | 0, _ => .error .tooDeep
  | fuel + 1, number =>
      match graph.node number with
      | .scalar _ text => .ok text
      | .sequence _ _ => .error .misplacedTag
      | .mapping _ entries =>
          match entries.find? fun (key, _) => graph.isOfKind .default key with
          | some (_, value) => graph.textAt fuel value
          | none => .error .misplacedTag

def scalarAt (graph : Graph) (number : Nat) : Except YamlFault Value := do
  let text ← graph.textAt (graph.nodes.size + 1) number
  match graph.node number with
  | .mapping .moment _ => throw (.scalar .momentInMapping)
  | node => scalarValue node.kind text

end Graph

structure Building where
  graph : Graph
  values : Array (Option Value)
  waiting : Array Nat := #[]

namespace Building

def put (b : Building) (number : Nat) (value : Value) : Building :=
  { b with values := b.values.setIfInBounds number (some value) }

def later (b : Building) (number : Nat) (value : Value) : Building × Value :=
  ({ b.put number value with waiting := b.waiting.push number }, value)

def valueAt (b : Building) (number : Nat) : Except YamlFault (Building × Value) :=
  match b.values[number]?.join with
  | some value => .ok (b, value)
  | none =>
      match (b.graph.node number).kind with
      | .list | .set | .pairs => .ok (b.later number (.list []))
      | .mapping => .ok (b.later number (.mapping []))
      | .merge | .default | .unknown => .error .unknownTag
      | _ => (b.graph.scalarAt number).map fun value => (b.put number value, value)

def isKeyValue : Value → Bool
  | .list _ | .mapping _ => false
  | _ => true

def visitItems (b : Building) : List Nat → Except YamlFault Building
  | [] => .ok b
  | item :: items => do
      let (b, _) ← b.valueAt item
      b.visitItems items

def visitEntries (b : Building) (out : List (Value × Value)) :
    List (Nat × Nat) → Except YamlFault (Building × List (Value × Value))
  | [] => .ok (b, out.reverse)
  | (key, value) :: entries => do
      let (b, key) ← b.valueAt key
      if isKeyValue key then
        let (b, value) ← b.valueAt value
        b.visitEntries ((key, value) :: out) entries
      else throw .badKey

def visitPairs (b : Building) : List Nat → Except YamlFault Building
  | [] => .ok b
  | item :: items =>
      match b.graph.node item with
      | .mapping _ [(key, value)] => do
          let b ← b.visitItems [key, value]
          b.visitPairs items
      | _ => .error .misplacedTag

/-- What a list or mapping holds; a tag may say that it is another kind than it is. -/
def visit (b : Building) (number : Nat) : Except YamlFault (Building × List (Value × Value)) :=
  match (b.graph.node number).kind, b.graph.node number with
  | .list, .sequence _ items => (b.visitItems items).map (·, [])
  | .pairs, .sequence _ items => (b.visitPairs items).map (·, [])
  | .mapping, .mapping _ _ | .set, .mapping _ _ => do
      let graph ← b.graph.flatten number
      { b with graph := graph }.visitEntries [] (graph.entriesAt number)
  | _, _ => .error .misplacedTag

/-- All that waits is visited in the order of its coming; each node waits once at most. -/
def visitFrom (b : Building) (next : Nat) : (fuel : Nat) → Except YamlFault Unit
  | 0 => .ok ()
  | fuel + 1 =>
      match b.waiting[next]? with
      | none => .ok ()
      | some number => do
          let (b, _) ← b.visit number
          b.visitFrom (next + 1) fuel

end Building

def putEntry (key value : Value) : List (Value × Value) → List (Value × Value)
  | [] => [(key, value)]
  | (k, v) :: rest =>
      match key, k with
      | .text a, .text b =>
          if a = b then (key, value) :: rest else (k, v) :: putEntry key value rest
      | _, _ => (k, v) :: putEntry key value rest

def Graph.value (graph : Graph) (number : Nat) : Except YamlFault Value := do
  let start : Building :=
    { graph := graph, values := Array.replicate graph.nodes.size none }
  let (b, value) ← start.valueAt number
  match value with
  | .mapping _ =>
      let (b, entries) ← b.visit number
      b.visitFrom 1 graph.nodes.size
      return .mapping (entries.foldl (fun out entry => putEntry entry.1 entry.2 out) [])
  | value =>
      b.visitFrom 0 graph.nodes.size
      return value

def load (text : List Char) : Except YamlFault Value := do
  match ← Node.ofTokens? (tokens text) with
  | none => return .null
  | some (number, graph) => graph.value number

end SchemaReader.Yaml

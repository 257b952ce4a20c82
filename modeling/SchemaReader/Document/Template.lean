import SchemaReader.Document.Rendering

/-!
Message templates.

A field in braces stands for a value, and a doubled brace for a brace.  A field names a value,
perhaps a part of it, and may say how the value is shown and laid out:
`{name.part[item]!conversion:layout}`.  A layout may hold fields of its own.
-/

namespace SchemaReader.Document

open SchemaReader.Text

inductive TemplateFault where
  | missing (name : List Char)
  | missingIndex (index : Nat)
  | position (index : Nat)
  | listIndex
  | textIndex
  | noItems
  | noPart
  | loneOpening
  | loneClosing
  | braceInName
  | unclosed
  | unclosedLayout
  | noConversion
  | afterConversion
  | unknownConversion (c : Char)
  | emptyPart
  | afterBracket
  | unclosedBracket
  | tooDeep
  | layout (fault : LayoutFault)
  deriving DecidableEq, Repr

def TemplateFault.message : TemplateFault → String
  | .missing name => String.ofList (quoted name)
  | .missingIndex index => toString index
  | .position index => s!"Replacement index {index} out of range for positional args tuple"
  | .listIndex => "list index out of range"
  | .textIndex => "string index out of range"
  | .noItems => "no such item"
  | .noPart => "no such part"
  | .loneOpening => "Single '\x7b' encountered in format string"
  | .loneClosing => "Single '\x7d' encountered in format string"
  | .braceInName => "unexpected '\x7b' in field name"
  | .unclosed => "expected '\x7d' before end of string"
  | .unclosedLayout => "unmatched '\x7b' in format spec"
  | .noConversion => "end of string while looking for conversion specifier"
  | .afterConversion => "expected ':' after conversion specifier"
  | .unknownConversion c => "Unknown conversion specifier " ++ shownCode 127 c
  | .emptyPart => "Empty attribute in format string"
  | .afterBracket => "Only '.' or '[' may follow ']' in format field specifier"
  | .unclosedBracket => "Missing ']' in format string"
  | .tooDeep => "Max string recursion exceeded"
  | .layout fault => fault.message

structure Field where
  name : List Char
  conversion : Option Char := none
  layout : List Char := []
  deriving DecidableEq, Repr

inductive Piece where
  | char (c : Char)
  | field (field : Field)
  deriving DecidableEq, Repr

def fieldName (name : List Char) (inBrackets : Bool) :
    List Char → Except TemplateFault (List Char × Char × List Char)
  | [] => .error .unclosed
  | c :: rest =>
      if inBrackets then fieldName (c :: name) (c != ']') rest
      else if c = '\x7b' then .error .braceInName
      else if c = '\x7d' || c = ':' || c = '!' then .ok (name.reverse, c, rest)
      else fieldName (c :: name) (c == '[') rest

def fieldLayout (layout : List Char) (depth : Nat) :
    List Char → Except TemplateFault (List Char × List Char)
  | [] => .error .unclosedLayout
  | c :: rest =>
      if c = '\x7b' then fieldLayout (c :: layout) (depth + 1) rest
      else if c = '\x7d' then
        match depth with
        | 0 => .ok (layout.reverse, rest)
        | depth + 1 => fieldLayout (c :: layout) depth rest
      else fieldLayout (c :: layout) depth rest

def readField (text : List Char) : Except TemplateFault (Field × List Char) := do
  let (name, sign, rest) ← fieldName [] false text
  if sign = '\x7d' then return (⟨name, none, []⟩, rest)
  else if sign = ':' then
    let (layout, rest) ← fieldLayout [] 0 rest
    return (⟨name, none, layout⟩, rest)
  else
    match rest with
    | [] => throw .noConversion
    | [_] => throw .unclosedLayout
    | c :: d :: rest =>
        if d = '\x7d' then return (⟨name, some c, []⟩, rest)
        else if d = ':' then
          let (layout, rest) ← fieldLayout [] 0 rest
          return (⟨name, some c, layout⟩, rest)
        else throw .afterConversion

def readPiece (c : Char) (rest : List Char) : Except TemplateFault (Piece × List Char) :=
  if c = '\x7b' then
    match rest with
    | [] => .error .loneOpening
    | d :: after =>
        if d = '\x7b' then .ok (.char c, after)
        else (readField rest).map fun (field, rest) => (.field field, rest)
  else if c = '\x7d' then
    match rest with
    | [] => .error .loneClosing
    | d :: after => if d = '\x7d' then .ok (.char c, after) else .error .loneClosing
  else .ok (.char c, rest)

/-- The pieces of a template up to the first fault in it, and that fault. -/
def piecesOf : (fuel : Nat) → List Char → List Piece × Option TemplateFault
  | _, [] | 0, _ => ([], none)
  | fuel + 1, c :: rest =>
      match readPiece c rest with
      | .error fault => ([], some fault)
      | .ok (piece, rest) =>
          let (pieces, fault?) := piecesOf fuel rest
          (piece :: pieces, fault?)

inductive Referent where
  | value (value : Value)
  | kind (name : String)

namespace Referent

def kindName : Referent → String
  | value v => v.kindName
  | kind _ => "type"

def indexFrom (index? : Option Nat) : List Char → Except TemplateFault (Option Nat)
  | [] => .ok index?
  | c :: rest =>
      match digitValue? c with
      | none => .ok none
      | some d =>
          let index := 10 * index?.getD 0 + d
          if numberLimit ≤ index then .error (.layout .tooManyDigits)
          else indexFrom (some index) rest

def part (referent : Referent) (name : String) : Except TemplateFault Referent :=
  if name = "__class__" then .ok (kind referent.kindName)
  else match referent with
    | kind name' =>
        if name = "__name__" || name = "__qualname__" then .ok (value (.text name'))
        else if name = "__module__" then .ok (value (.text "builtins"))
        else .error .noPart
    | value (.int n) => integerPart n
    | value (.bool b) => integerPart (if b then 1 else 0)
    | value (.real _) =>
        if name = "real" then .ok referent
        else if name = "imag" then .ok (value (.real (.ofDecimal false 0 0)))
        else .error .noPart
    | _ => .error .noPart
where
  integerPart (n : Int) : Except TemplateFault Referent :=
    if name = "real" || name = "numerator" then .ok (value (.int n))
    else if name = "imag" then .ok (value (.int 0))
    else if name = "denominator" then .ok (value (.int 1))
    else .error .noPart

def item (referent : Referent) (key : List Char) : Except TemplateFault Referent := do
  let index? ← indexFrom none key
  match referent, index? with
  | value (.list items), some index =>
      match items[index]? with
      | some item => return value item
      | none => throw .listIndex
  | value (.text text), some index =>
      match text.toList[index]? with
      | some c => return value (.text c.toString)
      | none => throw .textIndex
  | value (.mapping _), some index => throw (.missingIndex index)
  | value (.mapping entries), none =>
      match entries.reverse.find? fun entry => entry.1.isKey (String.ofList key) with
      | some entry => return value entry.2
      | none => throw (.missing key)
  | _, _ => throw .noItems

def display : Referent → String
  | value v => v.display
  | kind name => s!"<class '{name}'>"

def inner : Referent → String
  | value v => v.inner
  | kind name => s!"<class '{name}'>"

def escaped (text : String) : String :=
  String.ofList (text.toList.flatMap fun c => if c.toNat < 128 then [c] else numericEscape c)

def converted (referent : Referent) (conversion : Char) : Except TemplateFault Referent :=
  if conversion = 'r' then .ok (value (.text referent.inner))
  else if conversion = 's' then .ok (value (.text referent.display))
  else if conversion = 'a' then .ok (value (.text (escaped referent.inner)))
  else if conversion.toNat = 0 then .ok referent
  else .error (.unknownConversion conversion)

def render (referent : Referent) (spec : List Char) : Except TemplateFault (List Char) :=
  match referent with
  | value v =>
      match v.render spec with
      | .ok text => .ok text
      | .error fault => .error (.layout fault)
  | kind _ => if spec.isEmpty then .ok referent.display.toList else .error (.layout .noLayout)

end Referent

def isPartSign (c : Char) : Bool := c == '.' || c == '['

def follow (referent : Referent) : (fuel : Nat) → List Char → Except TemplateFault Referent
  | _, [] | 0, _ => .ok referent
  | fuel + 1, c :: rest => do
      if c = '.' then
        let name := rest.takeWhile (!isPartSign ·)
        if name.isEmpty then throw .emptyPart
        follow (← referent.part (String.ofList name)) fuel (rest.dropWhile (!isPartSign ·))
      else if c = '[' then
        let key := rest.takeWhile (· != ']')
        match rest.dropWhile (· != ']') with
        | [] => throw .unclosedBracket
        | _ :: rest =>
            if key.isEmpty then throw .emptyPart
            follow (← referent.item key) fuel rest
      else throw .afterBracket

def lookUp (arguments : Fields) (name : List Char) : Except TemplateFault Referent := do
  let first := name.takeWhile (!isPartSign ·)
  let rest := name.dropWhile (!isPartSign ·)
  match ← Referent.indexFrom none first with
  | some index => throw (.position index)
  | none =>
      if first.isEmpty then throw (.position 0)
      else match arguments.get? (String.ofList first) with
        | some value => follow (.value value) rest.length rest
        | none => throw (.missing first)

def deepest : Nat := 2

/-- The text of a template with these values, whose fields may be nested `depth` deep. -/
def fillTo (arguments : Fields) : (depth : Nat) → List Char → Except TemplateFault (List Char)
  | 0, _ => .error .tooDeep
  | depth + 1, template => do
      let (pieces, fault?) := piecesOf template.length template
      let texts ← pieces.mapM fun piece =>
        match piece with
        | .char c => .ok [c]
        | .field field => do
            let referent ← lookUp arguments field.name
            let referent ←
              match field.conversion with
              | some c => referent.converted c
              | none => .ok referent
            let layout ←
              if field.layout.contains '\x7b' then fillTo arguments depth field.layout
              else .ok field.layout
            referent.render layout
      match fault? with
      | some fault => throw fault
      | none => return texts.flatten

def fill (arguments : Fields) (template : String) : Except TemplateFault String :=
  (fillTo arguments deepest template.toList).map String.ofList

end SchemaReader.Document

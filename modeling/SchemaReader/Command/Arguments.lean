import SchemaReader.Text.Character
import SchemaReader.Text.Quoted
import SchemaReader.Text.Search

/-!
Arguments of a command.

A command declares its options and the names of its positional arguments.  Long options may be
abbreviated as long as they stay unambiguous; short ones may be joined.  After two dashes everything
is positional.
-/

namespace SchemaReader.Command

structure OptionSpec where
  spellings : List String
  takesValue : Bool
  description : String
  deriving DecidableEq, Repr

def OptionSpec.name (option : OptionSpec) : String := String.intercalate "/" option.spellings

inductive UsageFault where
  | ambiguous (argument : String) (matching : List String)
  | expectedValue (option : String)
  | ignoredValue (option value : String)
  | missing (names : List String)
  | unrecognized (arguments : List String)
  | unknownCommand (name : String) (known : List String)
  deriving DecidableEq, Repr

def quotedArgument (text : String) : String := String.ofList (Text.quoted text.toList)

def UsageFault.message : UsageFault → String
  | .ambiguous argument matching =>
      s!"ambiguous option: {argument} could match " ++ String.intercalate ", " matching
  | .expectedValue option => s!"argument {option}: expected one argument"
  | .ignoredValue option value =>
      s!"argument {option}: ignored explicit argument {quotedArgument value}"
  | .missing names => "the following arguments are required: " ++ String.intercalate ", " names
  | .unrecognized arguments => "unrecognized arguments: " ++ String.intercalate " " arguments
  | .unknownCommand name known =>
      s!"argument command: invalid choice: {quotedArgument name} (choose from " ++
        String.intercalate ", " (known.map quotedArgument) ++ ")"

inductive Attached where
  | equals (value : String)
  | joined (text : String)
  deriving DecidableEq, Repr

structure Use where
  option : OptionSpec
  spelling : String
  attached : Option Attached
  deriving DecidableEq, Repr

inductive Argument where
  | positional (text : String)
  | separator
  | option (use : Use)
  | unknown (text : String)
  deriving DecidableEq, Repr

def find? (options : List OptionSpec) (spelling : String) : Option OptionSpec :=
  options.find? (·.spellings.contains spelling)

def splitEquals? (text : List Char) : Option (String × String) :=
  match text.dropWhile (· != '=') with
  | '=' :: value => some (String.ofList (text.takeWhile (· != '=')), String.ofList value)
  | _ => none

def abbreviated (options : List OptionSpec) (text : List Char) : List Use :=
  let (lead, attached) :=
    match splitEquals? text with
    | some (lead, value) => (lead, some (Attached.equals value))
    | none => (String.ofList text, none)
  options.flatMap fun option =>
    (option.spellings.filter (lead.toList.isPrefixOf ·.toList)).map fun spelling =>
      ⟨option, spelling, attached⟩

def joined (options : List OptionSpec) (text : List Char) : List Use :=
  options.flatMap fun option =>
    option.spellings.filterMap fun spelling =>
      if spelling.toList = text.take 2 then
        some ⟨option, spelling, some (.joined (String.ofList (text.drop 2)))⟩
      else if text.isPrefixOf spelling.toList then some ⟨option, spelling, none⟩
      else none

/-- The digits end the text, or the line when nothing comes after it. -/
def areFinalDigits (digits : List Char) : Bool :=
  let rest := digits.dropWhile Text.isDigit
  digits.head?.any Text.isDigit && (rest.isEmpty || rest = ['\n'])

def isNegativeNumber : List Char → Bool
  | '-' :: digits =>
      areFinalDigits digits ||
        match digits.dropWhile Text.isDigit with
        | '.' :: fraction => areFinalDigits fraction
        | _ => false
  | _ => false

/-- What an argument is that starts with a dash, is no spelling itself and has something after
it. -/
def classifyDashed (options : List OptionSpec) (text : String) : Except UsageFault Argument :=
  let chars := text.toList
  let exact := (splitEquals? chars).bind fun (spelling, value) =>
    (find? options spelling).map fun option => (⟨option, spelling, some (.equals value)⟩ : Use)
  match exact with
  | some use => .ok (.option use)
  | none =>
      let uses := if ['-', '-'].isPrefixOf chars then abbreviated options chars
        else joined options chars
      match uses with
      | [use] => .ok (.option use)
      | _ :: _ => .error (.ambiguous text (uses.map (·.spelling)))
      | [] =>
          .ok (if isNegativeNumber chars || chars.contains ' ' then .positional text
            else .unknown text)

def classify (options : List OptionSpec) (text : String) : Except UsageFault Argument :=
  match text.toList with
  | '-' :: _ :: _ =>
      match find? options text with
      | some option => .ok (.option ⟨option, text, none⟩)
      | none => classifyDashed options text
  | _ => .ok (.positional text)

def classifyAll (options : List OptionSpec) (separated : Bool) :
    List String → Except UsageFault (List Argument)
  | [] => .ok []
  | text :: rest => do
      if separated then
        let others ← classifyAll options true rest
        return .positional text :: others
      else if text = "--" then
        let others ← classifyAll options true rest
        return .separator :: others
      else
        let argument ← classify options text
        let others ← classifyAll options false rest
        return argument :: others

abbrev OptionList := List (OptionSpec × Option String)

structure Applied where
  options : OptionList
  extra : List String
  rest : List Argument
  deriving DecidableEq, Repr

def applyToNext (option : OptionSpec) (rest : List Argument) : Except UsageFault Applied :=
  match rest with
  | .positional value :: rest => .ok ⟨[(option, some value)], [], rest⟩
  | _ => .error (.expectedValue option.name)

def applyAlone (option : OptionSpec) (rest : List Argument) : Except UsageFault Applied :=
  if option.takesValue then applyToNext option rest else .ok ⟨[(option, none)], [], rest⟩

def applyEquals (option : OptionSpec) (value : String) (rest : List Argument) :
    Except UsageFault Applied :=
  if option.takesValue then .ok ⟨[(option, some value)], [], rest⟩
  else .error (.ignoredValue option.name value)

/-- A short option without a value, and the text joined to it.  Each character of the text is one
more short option, until one takes what follows as its value or is not known. -/
def applyJoined (options : List OptionSpec) (option : OptionSpec) (rest : List Argument) :
    List Char → Except UsageFault Applied
  | [] => .ok ⟨[(option, none)], [], rest⟩
  | c :: tail =>
      if c = '-' then .error (.ignoredValue option.name (String.ofList (c :: tail)))
      else
        match find? options (String.ofList ['-', c]) with
        | none => .ok ⟨[(option, none)], [String.ofList ('-' :: c :: tail)], rest⟩
        | some next =>
            let applied :=
              match tail with
              | [] => applyAlone next rest
              | '=' :: value => applyEquals next (String.ofList value) rest
              | _ =>
                  if next.takesValue then .ok ⟨[(next, some (String.ofList tail))], [], rest⟩
                  else applyJoined options next rest tail
            applied.map fun a => { a with options := (option, none) :: a.options }

def applyUse (options : List OptionSpec) (use : Use) (rest : List Argument) :
    Except UsageFault Applied :=
  match use.attached with
  | none => applyAlone use.option rest
  | some (.equals value) => applyEquals use.option value rest
  | some (.joined text) =>
      if use.option.takesValue then .ok ⟨[(use.option, some text)], [], rest⟩
      else applyJoined options use.option rest text.toList

structure Given where
  options : OptionList := []
  positional : Option String := none
  extra : List String := []
  deriving DecidableEq, Repr

def isPlain : Argument → Bool
  | .positional _ | .separator => true
  | _ => false

def plainText : Argument → String
  | .positional text => text
  | _ => "--"

def isSeparator : Argument → Bool
  | .separator => true
  | _ => false

def takePositional? (arguments : List Argument) : Option (String × List Argument) :=
  match arguments.dropWhile isSeparator with
  | .positional text :: rest => some (text, rest.dropWhile isSeparator)
  | _ => none

/-- Options are applied from left to right until one of those in `stops` is met.  The first
positional argument is kept, and all others are extra. -/
def collect (options stops : List OptionSpec) (given : Given) (arguments : List Argument) :
    Nat → Except UsageFault Given
  | 0 => .ok given
  | fuel + 1 =>
      match arguments with
      | [] => .ok given
      | .option use :: rest => do
          let applied ← applyUse options use rest
          let given := { given with
            options := given.options ++ applied.options
            extra := given.extra ++ applied.extra }
          if applied.options.any fun (option, _) => stops.contains option then return given
          else collect options stops given applied.rest fuel
      | .unknown text :: rest =>
          collect options stops { given with extra := given.extra ++ [text] } rest fuel
      | arguments =>
          match if given.positional.isNone then takePositional? arguments else none with
          | some (text, rest) =>
              collect options stops { given with positional := some text } rest fuel
          | none =>
              let extra := (arguments.takeWhile isPlain).map plainText
              collect options stops { given with extra := given.extra ++ extra }
                (arguments.dropWhile isPlain) fuel

def readArguments (options stops : List OptionSpec) (arguments : List String) :
    Except UsageFault Given := do
  let classified ← classifyAll options false arguments
  collect options stops {} classified (classified.length + 1)

end SchemaReader.Command

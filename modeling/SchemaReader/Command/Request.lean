import SchemaReader.Command.Arguments

/-!
What users can ask for.

The command has one subcommand, `parse`, which reads a script file and writes its schema.
-/

namespace SchemaReader.Command

structure ParseRequest where
  file : String
  output : Option String
  simplified : Bool
  noComments : Bool
  noEnums : Bool
  relations : Bool
  config : Option String
  verbosity : Nat
  deriving DecidableEq, Repr

inductive Request.Topic where
  | program
  | parse
  deriving DecidableEq, Repr

inductive Request where
  | help (topic : Request.Topic)
  | version
  | none
  | parse (request : ParseRequest)
  deriving DecidableEq, Repr

namespace Request

def helpOption : OptionSpec := ⟨["-h", "--help"], false, "show this help message and exit"⟩

def versionOption : OptionSpec :=
  ⟨["--version"], false, "show program's version number and exit"⟩

def outputOption : OptionSpec :=
  ⟨["-o", "--output"], true, "Write JSON to this path instead of stdout"⟩

def simplifiedOption : OptionSpec :=
  ⟨["--simplified"], false, "Only table/field names, types and comments"⟩

def noCommentsOption : OptionSpec :=
  ⟨["--no-comments"], false, "Drop column comments from the output"⟩

def noEnumsOption : OptionSpec :=
  ⟨["--no-enums"], false, "Do not decode 【枚举】 comments"⟩

def relationsOption : OptionSpec :=
  ⟨["--relations"], false, "Add table relations to the output"⟩

def configOption : OptionSpec := ⟨["--config"], true, "YAML file with parser settings"⟩

def verboseOption : OptionSpec :=
  ⟨["-v", "--verbose"], false, "-v for INFO, -vv for DEBUG"⟩

def mainOptions : List OptionSpec := [helpOption, versionOption]

def parseOptions : List OptionSpec :=
  [helpOption, outputOption, simplifiedOption, noCommentsOption, noEnumsOption, relationsOption,
    configOption, verboseOption]

def lastValue? (options : OptionList) (option : OptionSpec) : Option String :=
  ((options.filter fun (o, _) => o = option).getLast?).bind fun (_, value) => value

def isGiven (options : OptionList) (option : OptionSpec) : Bool :=
  options.any fun (o, _) => o = option

def count (options : OptionList) (option : OptionSpec) : Nat :=
  (options.filter fun (o, _) => o = option).length

def ofParse (arguments : List String) : Except UsageFault (Request × List String) := do
  let given ← readArguments parseOptions [helpOption] arguments
  if isGiven given.options helpOption then return (.help .parse, [])
  else
    match given.positional with
    | Option.none => throw (.missing ["file"])
    | some file =>
        let options := given.options
        return (.parse
          { file := file
            output := lastValue? options outputOption
            simplified := isGiven options simplifiedOption
            noComments := isGiven options noCommentsOption
            noEnums := isGiven options noEnumsOption
            relations := isGiven options relationsOption
            config := lastValue? options configOption
            verbosity := count options verboseOption }, given.extra)

def splitCommand (extra : List String) :
    List (String × Argument) → Except UsageFault (Option Request × List String × List String)
  | [] => .ok (Option.none, extra, [])
  | (text, argument) :: rest =>
      match argument with
      | .option use => do
          let applied ← applyUse mainOptions use []
          match applied.options with
          | (option, _) :: _ =>
              return (some (if option = versionOption then .version else .help .program), extra, [])
          | [] => splitCommand extra rest
      | .unknown text => splitCommand (extra ++ [text]) rest
      | _ => .ok (Option.none, extra, text :: rest.map (·.1))

def ofArguments (arguments : List String) : Except UsageFault Request := do
  let classified ← classifyAll mainOptions false arguments
  let (stop, extra, command) ← splitCommand [] (arguments.zip classified)
  let finish (request : Request) (extra : List String) : Except UsageFault Request :=
    if extra.isEmpty then .ok request else .error (.unrecognized extra)
  match stop, command with
  | some request, _ => return request
  | _, [] => finish .none extra
  | _, ["--"] => finish .none (extra ++ ["--"])
  | _, "parse" :: rest => do
      let (request, unknown) ← ofParse rest
      if request = .help .parse then return request else finish request (extra ++ unknown)
  | _, name :: _ => throw (.unknownCommand name ["parse"])

end Request

end SchemaReader.Command

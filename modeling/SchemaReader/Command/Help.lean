import SchemaReader.Command.Request

/-!
What the command says about itself.

A help shows how the command is called, the arguments it takes and what each of them is for.  It is
set for a terminal of 80 columns.  The arguments stand in one column and their descriptions in
another; an argument too long for its column has its description on the next line.
-/

namespace SchemaReader.Command

def OptionSpec.placeholder (option : OptionSpec) : String :=
  let long := (option.spellings.getLast?.getD "").toList.dropWhile (· == '-')
  String.ofList (long.map fun c => if c = '-' then '_' else c.toUpper)

def OptionSpec.withValue (option : OptionSpec) (spelling : String) : String :=
  if option.takesValue then spelling ++ " " ++ option.placeholder else spelling

def OptionSpec.inUsage (option : OptionSpec) : String :=
  "[" ++ option.withValue (option.spellings.headD "") ++ "]"

namespace Help

def width : Nat := 78

def lastColumn : Nat := 24

def spaces (count : Nat) : String := String.ofList (List.replicate count ' ')

def fillFrom (room : Nat) (line : String) : List String → List String
  | [] => [line]
  | part :: parts =>
      let longer := line ++ " " ++ part
      if longer.length ≤ room then fillFrom room longer parts else line :: fillFrom room part parts

def fill (room : Nat) : List String → List String
  | [] => []
  | part :: parts => fillFrom room part parts

/-- When one line has no room for the usage, the positional arguments begin a line of their own. -/
def usage (program : String) (options positional : List String) : String :=
  let lead := "usage: " ++ program ++ " "
  let line := lead ++ String.intercalate " " (options ++ positional)
  if line.length ≤ width then line
  else
    let room := width - lead.length
    let lines := fill room options ++ fill room positional
    lead ++ String.intercalate ("\n" ++ spaces lead.length) lines

structure Row where
  indent : Nat := 2
  shown : String
  description : String
  deriving DecidableEq, Repr

def Row.ofOption (option : OptionSpec) : Row where
  shown := String.intercalate ", " (option.spellings.map option.withValue)
  description := option.description

def columnOf (rows : List Row) : Nat :=
  (rows.foldl (fun longest row => max longest (row.indent + row.shown.length)) 0 + 2).min lastColumn

def Row.text (column : Nat) (row : Row) : String :=
  let lead := spaces row.indent ++ row.shown
  if row.description = "" then lead ++ "\n"
  else
    let gap :=
      if lead.length + 2 ≤ column then spaces (column - lead.length) else "\n" ++ spaces column
    lead ++ gap ++ row.description ++ "\n"

def arguments (positional : List Row) (options : List OptionSpec) : String :=
  let optional := options.map Row.ofOption
  let column := columnOf (positional ++ optional)
  "positional arguments:\n" ++ String.join (positional.map (·.text column)) ++
    "\noptions:\n" ++ String.join (optional.map (·.text column))

def examples : String :=
  "Examples:\n" ++
    "  # Full schema as JSON on stdout\n" ++
    "  ddlschema parse schema.sql\n\n" ++
    "  # Simplified name/type/comment map written to a file\n" ++
    "  ddlschema parse schema.sql --simplified -o build/schema.json\n\n" ++
    "  # Include foreign key and <entity>_id relations, with debug logging\n" ++
    "  ddlschema parse schema.sql --relations -vv\n" ++
    "        \n"

def ofProgram : String :=
  usage "ddlschema" (Request.mainOptions.map (·.inUsage)) ["\x7bparse\x7d ..."] ++ "\n\n" ++
    "Extract table schemas from SQL CREATE TABLE scripts\n\n" ++
    arguments
      [{ shown := "\x7bparse\x7d", description := "" },
        { indent := 4, shown := "parse",
          description := "Parse a DDL file and print its schema as JSON" }]
      Request.mainOptions ++
    "\n" ++ examples

def ofParse : String :=
  usage "ddlschema parse" (Request.parseOptions.map (·.inUsage)) ["file"] ++ "\n\n" ++
    arguments [{ shown := "file", description := "Path to the .sql file" }] Request.parseOptions

def text : Request.Topic → String
  | .program => ofProgram
  | .parse => ofParse

end Help

end SchemaReader.Command

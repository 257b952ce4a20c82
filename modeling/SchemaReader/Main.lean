import SchemaReader.Command.Run

/-!
The command line program.

The files that the arguments name are read, the command is run on them, and what it says is printed
and written.
-/

namespace SchemaReader.Command

def inputPaths (arguments : List String) : List String :=
  match Request.ofArguments arguments with
  | .ok (.parse request) => request.file :: request.config.toList
  | _ => []

def Ending.report : Ending → Option String
  | .exit _ => none
  | .fault (.numeral cause) => some cause.message
  | .fault (.settingsUndecodable cause) => some cause.message
  | .fault (.settingsScalar cause) => some cause.message
  | .fault .settingsKey => some "the keys of the settings must be texts"
  | .fault .settingsTooDeep => some "the settings are nested too deep"
  | .fault (.unencodable cause) => some cause.message
  | .fault .nameTooLong => some "a file name is too long"
  | .fault .unknownHome => some "the home directory is not known"
  | .fault _ => some "a definition cannot be represented"
  | .unwritable .isDirectory => some "the output path is a directory"
  | .unwritable .notDirectory => some "the output path passes through a file"
  | .unwritable .fileExists => some "the output directory is a file"
  | .unwritable .nameTooLong => some "the name of the output is too long"
  | .unwritable .nullCharacter => some "embedded null byte"

def Outcome.report (outcome : Outcome) : List String :=
  (match outcome.usage, outcome.ending with
    | some fault, _ => [s!"ddlschema: error: {fault.message}"]
    | none, .exit 2 => [Help.text .program]
    | none, ending => ending.report.toList) ++
  outcome.journal.map fun entry => s!"{entry.severity.name} {entry.message}"

def Ending.exitCode : Ending → UInt32
  | .exit code => code.toUInt32
  | _ => 1

def systemPath (home path : String) : String :=
  match (Path.ofText path).expand? home with
  | some place => place.text
  | none => path

def contentAt? (path : String) : IO (Option (String × List UInt8)) := do
  let .ok bytes ← (IO.FS.readBinFile path).toBaseIO | return none
  return some (path, bytes.data.toList)

def readFiles (home : String) (paths : List String) : IO Files := do
  return Files.ofList home (← paths.filterMapM fun path => contentAt? (systemPath home path))

def applyChanges (before after : Files) : IO Unit := do
  for location in Files.newDirectories before after do
    IO.FS.createDirAll (Files.pathOf location)
  for (location, bytes) in Files.changes before after do
    IO.FS.writeBinFile (Files.pathOf location) ⟨bytes.toArray⟩

end SchemaReader.Command

open SchemaReader SchemaReader.Command in
def main (arguments : List String) : IO UInt32 := do
  let home := (← IO.getEnv "HOME").getD "/"
  let files ← readFiles home (inputPaths arguments)
  let outcome := run files arguments
  applyChanges files outcome.files
  IO.print outcome.output
  for line in outcome.report do
    IO.eprintln line
  return outcome.ending.exitCode

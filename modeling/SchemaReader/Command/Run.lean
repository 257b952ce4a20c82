import SchemaReader.Command.Help
import SchemaReader.Output
import SchemaReader.Reading.File
import SchemaReader.Settings

/-!
Running the command.

A run takes the arguments and the files there are, and says what is printed, what the files are
afterwards, what the journal shows and how the run ends.  The document is made before anything is
printed or written.
-/

namespace SchemaReader.Command

def versionText : String := "ddlschema 0.1.0\n"

/-- How a run ends: with an exit code, or with a fault that users are not expected to meet. -/
inductive Ending where
  | exit (code : Nat)
  | fault (fault : Fault)
  | unwritable (fault : Files.WriteFault)
  deriving DecidableEq, Repr

structure Outcome where
  ending : Ending
  usage : Option UsageFault := none
  level : Int := 0
  output : String := ""
  files : Files
  journal : List Entry := []
  deriving DecidableEq, Repr

/-- Settings with what the request overrides.  An empty output counts as none. -/
def override (request : ParseRequest) (settings : Settings) : Settings :=
  { settings with
    output :=
      if request.output.getD "" = "" then settings.output else request.output.map .path
    simplified := settings.simplified || request.simplified
    includeComments := settings.includeComments && !request.noComments
    parseEnums := settings.parseEnums && !request.noEnums
    relations := settings.relations || request.relations }

def settingsOf (files : Files) (request : ParseRequest) : Except Fault Settings :=
  let path := request.config.getD ""
  (if path = "" then .ok {} else Settings.load files path).map (override request)

def levelOf (request : ParseRequest) (settings : Settings) : Int :=
  if request.verbosity = 0 then settings.level
  else Journal.levelFromVerbosity request.verbosity

def failed (files : Files) (level : Int) (journal : List Entry) (fault : Fault) : Outcome :=
  match fault.notice? with
  | some notice =>
      { ending := .exit 1
        level := level
        files := files
        journal := Journal.shownAt level
          (journal ++ [⟨.error, s!"Parsing failed: {notice.text}"⟩]) }
  | none =>
      { ending := .fault fault
        level := level
        files := files
        journal := Journal.shownAt level journal }

def contentOf (settings : Settings) : Output.Content :=
  ⟨settings.simplified, settings.relations, settings.inferRelations⟩

def document (settings : Settings) (catalogue : Schema.Catalogue) : String :=
  (Output.payload (contentOf settings) catalogue).render ++ "\n"

/-- The end of a run that could not write; directories that it made are left. -/
def unwritten (files : Files) (level : Int) (journal : List Entry) (fault : Files.WriteFault) :
    Outcome :=
  { ending := .unwritable fault
    level := level
    files := files
    journal := Journal.shownAt level journal }

def deliverTo (files : Files) (level : Int) (journal : List Entry) (path text : String) : Outcome :=
  match files.path? path with
  | none => failed files level journal .unknownHome
  | some place =>
      match files.write place text.toUTF8.data.toList with
      | (left, .error fault) => unwritten left level journal fault
      | (written, .ok ()) =>
          { ending := .exit 0
            level := level
            files := written
            journal := Journal.shownAt level
              (journal ++ [⟨.info, s!"Schema written to {place.text}"⟩]) }

/-- Nothing is written to an output whose name holds surrogates; the directories before that name
are made all the same. -/
def refuse (files : Files) (level : Int) (journal : List Entry) (points : List Text.CodePoint) :
    Outcome :=
  let path := BrokenPath.ofPoints points
  let unnamed (left : Files) : Outcome :=
    match Text.encodeFault? 0 path.points with
    | some fault => failed left level journal (.unencodable fault)
    | none => failed left level journal .unknownHome
  match path.parent? with
  | none => unnamed files
  | some parent =>
      match parent.expand? files.home with
      | none => failed files level journal .unknownHome
      | some place =>
          match files.makeParent place with
          | (left, .error fault) => unwritten left level journal fault
          | (left, .ok _) => unnamed left

def deliver (files : Files) (level : Int) (journal : List Entry) (output : Option OutputName)
    (text : String) : Outcome :=
  match output with
  | none | some (.path "") =>
      { ending := .exit 0
        level := level
        output := text
        files := files
        journal := Journal.shownAt level journal }
  | some (.path path) => deliverTo files level journal path text
  | some (.broken points) => refuse files level journal points

def runParse (files : Files) (request : ParseRequest) : Outcome :=
  match settingsOf files request with
  | .error fault => failed files 0 [] fault
  | .ok settings =>
      let level := levelOf request settings
      let reading := Reading.readScriptAt settings.readOptions .utf8 files request.file
      match reading.result with
      | .error fault => failed files level reading.journal fault
      | .ok catalogue =>
          deliver files level reading.journal settings.output (document settings catalogue)

def run (files : Files) (arguments : List String) : Outcome :=
  match Request.ofArguments arguments with
  | .error fault => { ending := .exit 2, usage := some fault, files := files }
  | .ok (.help topic) => { ending := .exit 0, output := Help.text topic, files := files }
  | .ok .version => { ending := .exit 0, output := versionText, files := files }
  | .ok .none => { ending := .exit 2, files := files }
  | .ok (.parse request) => runParse files request

end SchemaReader.Command

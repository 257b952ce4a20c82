import SchemaReader.Files
import SchemaReader.Journal
import SchemaReader.Notice
import SchemaReader.Reading.Column
import SchemaReader.Yaml.Load

/-!
Settings of the command, which a file may hold.

The file is YAML.  Its loader, in the modules of `Yaml`, stands for that of a library.
-/

namespace SchemaReader

open SchemaReader.Document

/-- The name of an output.  One that holds surrogates names no file. -/
inductive OutputName where
  | path (text : String)
  | broken (points : List Text.CodePoint)
  deriving DecidableEq, Repr

structure Settings where
  includeComments : Bool := true
  parseEnums : Bool := true
  logLevel : String := "WARNING"
  simplified : Bool := false
  relations : Bool := false
  inferRelations : Bool := true
  output : Option OutputName := none
  deriving DecidableEq, Repr

namespace Settings

def keys : List String :=
  ["include_comments", "parse_enums", "log_level", "simplified", "relations", "infer_relations",
    "output"]

def readLevel (value : Value) : Checked String :=
  match readText value with
  | .valid name =>
      let level := Journal.levelName name
      if (Journal.levelOf? level).isSome then .valid level else Checked.issue .value
  | .invalid issues => .invalid issues

def readOutput : Value → Checked OutputName
  | .broken points => .valid (.broken points)
  | value => (readText value).map .path

def read (fields : Fields) : Checked Settings :=
  let absent : Settings := {}
  closed fields keys
    (Settings.mk <$> optional fields ["include_comments"] absent.includeComments readBool
      <*> optional fields ["parse_enums"] absent.parseEnums readBool
      <*> optional fields ["log_level"] absent.logLevel readLevel
      <*> optional fields ["simplified"] absent.simplified readBool
      <*> optional fields ["relations"] absent.relations readBool
      <*> optional fields ["infer_relations"] absent.inferRelations readBool
      <*> optional fields ["output"] absent.output (readNullable readOutput))

def readOptions (settings : Settings) : ReadOptions :=
  ⟨settings.includeComments, settings.parseEnums⟩

def level (settings : Settings) : Int :=
  (Journal.levelOf? settings.logLevel).getD Journal.defaultLevel

def unknownLevel : String := "Unknown log level: "

/-- A level whose name holds surrogates cannot even be reported. -/
def levelFault? (entries : List (Value × Value)) : Option Text.EncodeFault :=
  match entries.reverse.find? fun entry => entry.1.isKey "log_level" with
  | some (_, .broken points) => Text.encodeFault? unknownLevel.length points
  | _ => none

def isTextKey : Value → Bool
  | .text _ | .broken _ => true
  | _ => false

def ofEntries (path : String) (entries : List (Value × Value)) : Except Fault Settings :=
  if !entries.all fun (key, _) => isTextKey key then .error .settingsKey
  else match levelFault? entries, fieldsOf? entries with
    | some fault, _ => .error (.unencodable fault)
    | none, none => .error (.settingsRejected path [⟨[], .stringUnicode⟩])
    | none, some fields =>
        match read fields with
        | .valid settings => .ok settings
        | .invalid issues => .error (.settingsRejected path issues)

def ofValue (path : String) : Value → Except Fault Settings
  | .null => .ok {}
  | .mapping entries => ofEntries path entries
  | _ => .error (.settingsNotMapping path)

/-- Text that ends inside a character is counted from the start of that character. -/
def relativeToEnd (fault : Text.DecodeFault) : Text.DecodeFault :=
  if fault.reason = .endOfData then { fault with position := 0 } else fault

def load (files : Files) (path : String) : Except Fault Settings :=
  match files.path? path with
  | none => .error .unknownHome
  | some place =>
      match files.read place with
      | .error .missing => .error (.settingsMissing place.text)
      | .error .nameTooLong => .error .nameTooLong
      | .ok bytes =>
          match Text.decodeUtf8 bytes with
          | .error fault => .error (.settingsUndecodable (relativeToEnd fault))
          | .ok text =>
              match Yaml.load (Text.unifyLineBreaks text) with
              | .error (.scalar fault) => .error (.settingsScalar fault)
              | .error .tooDeep => .error .settingsTooDeep
              | .error _ => .error (.settingsUnreadable place.text)
              | .ok value => ofValue place.text value

end Settings

end SchemaReader

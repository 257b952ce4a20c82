import SchemaReader.Document.Template
import SchemaReader.Document.Value
import SchemaReader.Number.Numeral
import SchemaReader.Text.Encoding
import SchemaReader.Yaml.Fault

/-!
What can go wrong, and what users are told.

Faults that users are expected to meet have a code and a description; the others say that a value
cannot be represented.  Notices can also be made from templates.
-/

namespace SchemaReader

inductive FaultCode where
  | validationFailed
  | settingsInvalid
  | noTableFound
  | fileNotFound
  deriving DecidableEq, Repr

namespace FaultCode

def number : FaultCode → String
  | validationFailed => "100001"
  | settingsInvalid => "100002"
  | noTableFound => "200001"
  | fileNotFound => "200002"

def description : FaultCode → String
  | validationFailed => "Input validation failed"
  | settingsInvalid => "Invalid parser configuration"
  | noTableFound => "No valid CREATE TABLE statement found"
  | fileNotFound => "DDL file not found"

def name : FaultCode → String
  | validationFailed => "COMMON_VALIDATION_FAILED"
  | settingsInvalid => "CONFIG_INVALID"
  | noTableFound => "DDL_NO_TABLE_FOUND"
  | fileNotFound => "DDL_FILE_NOT_FOUND"

def all : List FaultCode := [validationFailed, settingsInvalid, noTableFound, fileNotFound]

def ofName? (name : String) : Option FaultCode := all.find? (·.name == name)

end FaultCode

structure Notice where
  code : FaultCode
  message : String
  deriving DecidableEq, Repr

def Notice.text (notice : Notice) : String :=
  s!"error_code={notice.code.number}, error_message={notice.message}"

inductive Fault where
  | notScript (kind : String)
  | noTable
  | unknownHome
  | nameTooLong
  | scriptMissing (path : String)
  | unknownEncoding (name : String)
  | scriptUndecodable (path encoding : String) (fault : Text.DecodeFault)
  | settingsMissing (path : String)
  | settingsUnreadable (path : String)
  | settingsNotMapping (path : String)
  | settingsRejected (path : String) (issues : List Document.Issue)
  | settingsUndecodable (fault : Text.DecodeFault)
  | settingsScalar (fault : Yaml.ScalarFault)
  | settingsTooDeep
  | settingsKey
  | unencodable (fault : Text.EncodeFault)
  | numeral (fault : Number.NumeralFault)
  | rejected (issues : List Document.Issue)
  deriving DecidableEq, Repr

namespace Fault

/-- What users are told; faults without a code have no notice. -/
def notice? : Fault → Option Notice
  | notScript kind =>
      some ⟨.validationFailed, s!"Invalid SQL input: SQL must be a string, got {kind}"⟩
  | noTable => some ⟨.noTableFound, FaultCode.description .noTableFound⟩
  | scriptMissing path => some ⟨.fileNotFound, s!"DDL file not found: {path}"⟩
  | scriptUndecodable path encoding fault =>
      some ⟨.validationFailed, s!"Cannot decode {path} as {encoding}: {fault.message}"⟩
  | settingsMissing path => some ⟨.fileNotFound, s!"Config file not found: {path}"⟩
  | settingsUnreadable path => some ⟨.settingsInvalid, s!"Cannot read {path}"⟩
  | settingsNotMapping path => some ⟨.settingsInvalid, s!"{path} must contain a mapping"⟩
  | settingsRejected path _ => some ⟨.settingsInvalid, s!"Invalid config {path}"⟩
  | unknownHome | nameTooLong | unknownEncoding _ | settingsUndecodable _ | settingsScalar _
  | settingsTooDeep | settingsKey | unencodable _ | numeral _ | rejected _ => none

def issues? : Fault → Option (List Document.Issue)
  | settingsRejected _ issues | rejected issues => some issues
  | _ => none

end Fault

end SchemaReader

namespace SchemaReader.Notice

/-- The notice with a code.  Without a message the description of the code is used; the message is
filled in only when there are values for it. -/
def ofTemplate (code : FaultCode) (message? : Option String) (arguments : Document.Fields) :
    Except Document.TemplateFault Notice :=
  let message := message?.getD code.description
  if arguments.isEmpty then .ok ⟨code, message⟩
  else (Document.fill arguments message).map (⟨code, ·⟩)

end SchemaReader.Notice

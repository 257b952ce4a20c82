import SchemaReader.Text.Case
import SchemaReader.Text.Quoted

/-!
The journal of what happened, and how much of it is shown.
-/

namespace SchemaReader

inductive Severity where
  | info
  | warning
  | error
  deriving DecidableEq, Repr

namespace Severity

def name : Severity → String
  | info => "INFO"
  | warning => "WARNING"
  | error => "ERROR"

def level : Severity → Int
  | info => 20
  | warning => 30
  | error => 40

end Severity

structure Entry where
  severity : Severity
  message : String
  deriving DecidableEq, Repr

namespace Journal

def rootName : String := "ddlschema"

def nameOf (part : String) : String :=
  if part = rootName || part.startsWith (rootName ++ ".") then part else rootName ++ "." ++ part

def levels : List (String × Int) :=
  [("CRITICAL", 50), ("FATAL", 50), ("ERROR", 40), ("WARN", 30), ("WARNING", 30), ("INFO", 20),
    ("DEBUG", 10), ("NOTSET", 0)]

def defaultLevel : Int := 30

def levelName (name : String) : String := String.ofList (Text.upper name.toList)

def levelOf? (name : String) : Option Int := levels.lookup name

def levelFromVerbosity (count : Int) : Int :=
  if 2 ≤ count then 10 else if count = 1 then 20 else defaultLevel

structure Setup where
  handlers : Nat := 0
  level : Int := 0
  deriving DecidableEq, Repr

inductive LevelChoice where
  | number (level : Int)
  | name (name : String)
  deriving DecidableEq, Repr

structure UnknownLevel where
  name : String
  deriving DecidableEq, Repr

def UnknownLevel.message (fault : UnknownLevel) : String :=
  "Unknown level: " ++ String.ofList (Text.quoted ("Level " ++ fault.name).toList)

/-- The handler is replaced before the level is looked up, so a fault leaves the level as it was. -/
def Setup.configure (setup : Setup) (choice : LevelChoice) : Setup × Except UnknownLevel Int :=
  match choice with
  | .number level => (⟨1, level⟩, .ok level)
  | .name name =>
      match levelOf? (levelName name) with
      | some level => (⟨1, level⟩, .ok level)
      | none => ({ setup with handlers := 1 }, .error ⟨levelName name⟩)

/-- An unset level lets warnings and errors through. -/
def threshold (level : Int) : Int := if level = 0 then defaultLevel else level

def shownAt (level : Int) (entries : List Entry) : List Entry :=
  entries.filter fun entry => threshold level ≤ entry.severity.level

end Journal

end SchemaReader

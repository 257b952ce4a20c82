import SchemaReader.Text.Quoted
import SchemaReader.Text.Search

/-!
Paths, and the files they lead to.

A path is a sequence of names separated by slashes.  Files and directories are found from the
working directory; `..` goes back to the directory that holds the present one, and `~` at the start
stands for the home directory.
-/

namespace SchemaReader

structure Path where
  root : String
  names : List String
  deriving DecidableEq, Repr

namespace Path

/-- One slash at the start leads to the root, and so do three; two are kept. -/
def rootOf (text : List Char) : String :=
  match (text.takeWhile (· == '/')).length with
  | 0 => ""
  | 2 => "//"
  | _ => "/"

def ofText (text : String) : Path where
  root := rootOf text.toList
  names := ((Text.splitAtChars (· == '/') text.toList).map String.ofList).filter fun name =>
    name != "" && name != "."

def text (path : Path) : String :=
  if path.root = "" && path.names.isEmpty then "."
  else path.root ++ String.intercalate "/" path.names

/-- The path with a tilde at its start replaced by the home directory.  The homes of other users,
which are asked for by name, are not known. -/
def expand? (home : String) (path : Path) : Option Path :=
  match path.names with
  | first :: rest =>
      if path.root = "" && first = "~" then
        some ⟨(ofText home).root, (ofText home).names ++ rest⟩
      else if path.root = "" && ['~'].isPrefixOf first.toList then none
      else some path
  | [] => some path

end Path

structure BrokenPath where
  root : String
  names : List (List Text.CodePoint)

namespace BrokenPath

open SchemaReader.Text (CodePoint charsOf? pointsOf)

def leadingChars : List CodePoint → List Char
  | .char c :: rest => c :: leadingChars rest
  | _ => []

def ofPoints (points : List CodePoint) : BrokenPath where
  root := Path.rootOf (leadingChars points)
  names := (Text.splitAtChars (fun p : CodePoint => p.is '/') points).filter fun name =>
    !name.isEmpty && name != [.char '.']

def points (path : BrokenPath) : List CodePoint :=
  pointsOf path.root.toList ++ List.intercalate [.char '/'] path.names

def parent? (path : BrokenPath) : Option Path :=
  (path.names.dropLast.mapM charsOf?).map fun names =>
    ⟨path.root, names.map String.ofList ++ [""]⟩

end BrokenPath

/-- The names that lead from the working directory to a file or directory.  An absolute location
starts with a slash, and one outside the working directory with `..`. -/
abbrev Location := List String

structure Files where
  home : String
  files : List (Location × List UInt8)
  directories : List Location
  deriving DecidableEq, Repr

namespace Files

def start (path : Path) : Location := if path.root = "" then [] else ["/"]

def step (location : Location) (name : String) : Location :=
  if name ≠ ".." then location ++ [name]
  else match location.getLast? with
    | none | some ".." => location ++ [".."]
    | some "/" => location
    | some _ => location.dropLast

def locationOf (path : Path) : Location := path.names.foldl step (start path)

def passed (location : Location) : List String → List Location
  | [] => []
  | name :: names => location :: passed (step location name) names

def ofList (home : String) (contents : List (String × List UInt8)) : Files where
  home := home
  files := contents.map fun (path, bytes) => (locationOf (Path.ofText path), bytes)
  directories := contents.flatMap fun (path, _) =>
    passed (start (Path.ofText path)) (Path.ofText path).names

def content? (files : Files) (location : Location) : Option (List UInt8) :=
  files.files.lookup location

def isFile (files : Files) (location : Location) : Bool := (files.content? location).isSome

def isDirectory (files : Files) (location : Location) : Bool :=
  location.all (· == "..") || location = ["/"] || files.directories.contains location

inductive ReadFault where
  | missing
  | nameTooLong
  deriving DecidableEq, Repr

def longestName : Nat := 255

def longestPath : Nat := 4095

def isLongName (name : String) : Bool := longestName < name.utf8ByteSize

def isLongPath (path : Path) : Bool := longestPath < path.text.utf8ByteSize

def walk (files : Files) (location : Location) : List String → Except ReadFault Location
  | [] => .ok location
  | name :: names =>
      if !files.isDirectory location then .error .missing
      else if isLongName name then .error .nameTooLong
      else walk files (step location name) names

def path? (files : Files) (text : String) : Option Path := (Path.ofText text).expand? files.home

def read (files : Files) (path : Path) : Except ReadFault (List UInt8) :=
  if isLongPath path then .error .nameTooLong
  else match files.walk (start path) path.names with
    | .error fault => .error fault
    | .ok location =>
        match files.content? location with
        | some bytes => .ok bytes
        | none => .error .missing

inductive WriteFault where
  | isDirectory
  | notDirectory
  | fileExists
  | nameTooLong
  | nullCharacter
  deriving DecidableEq, Repr

def put (location : Location) (bytes : List UInt8) :
    List (Location × List UInt8) → List (Location × List UInt8)
  | [] => [(location, bytes)]
  | (l, b) :: rest =>
      if l = location then (location, bytes) :: rest else (l, b) :: put location bytes rest

/-- The directories on the way of the names, made where they are missing, and where they lead.  What
was made before a fault stays. -/
def makeDirectories (files : Files) (location : Location) :
    List String → Files × Except WriteFault Location
  | [] => (files, .ok location)
  | name :: names =>
      let next := step location name
      if isLongName name then (files, .error .nameTooLong)
      else if files.isFile next then
        (files, .error (if names.isEmpty then .fileExists else .notDirectory))
      else if files.isDirectory next then makeDirectories files next names
      else makeDirectories { files with directories := files.directories ++ [next] } next names

def hasNull (path : Path) : Bool := path.names.any fun name => name.toList.contains (Char.ofNat 0)

def refusal? (path : Path) : Option WriteFault :=
  if hasNull path then some .nullCharacter
  else if isLongPath path then some .nameTooLong
  else none

def makeParent (files : Files) (path : Path) : Files × Except WriteFault Location :=
  let parent : Path := ⟨path.root, path.names.dropLast⟩
  match refusal? parent with
  | some fault => (files, .error fault)
  | none => files.makeDirectories (start parent) parent.names

def target (files : Files) (directory : Location) (path : Path) : Except WriteFault Location :=
  match refusal? path, path.names.getLast? with
  | some fault, _ => .error fault
  | none, none => .error .isDirectory
  | none, some name =>
      if isLongName name then .error .nameTooLong
      else if name = ".." || files.isDirectory (step directory name) then .error .isDirectory
      else .ok (step directory name)

def write (files : Files) (path : Path) (bytes : List UInt8) : Files × Except WriteFault Unit :=
  match files.makeParent path with
  | (made, .error fault) => (made, .error fault)
  | (made, .ok directory) =>
      match made.target directory path with
      | .error fault => (made, .error fault)
      | .ok location => ({ made with files := put location bytes made.files }, .ok ())

def pathOf : Location → String
  | "/" :: names => "/" ++ String.intercalate "/" names
  | names => String.intercalate "/" names

def isInside (location : Location) : Bool :=
  location.head? != some "/" && location.head? != some ".."

def newDirectories (before after : Files) : List Location :=
  after.directories.filter fun location => !before.isDirectory location

def changes (before after : Files) : List (Location × List UInt8) :=
  after.files.filter fun (location, bytes) => before.content? location != some bytes

end Files

end SchemaReader

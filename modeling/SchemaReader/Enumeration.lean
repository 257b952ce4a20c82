import SchemaReader.Number.Numeral
import SchemaReader.Schema.Basic
import SchemaReader.Text.Character
import SchemaReader.Text.Search

/-!
Enumerations inside comments.

A comment may list the codes of a column after a marker: `状态【枚举】：0-待处理，1-处理中`.  The marker
is followed by a colon, then by items between commas.  An item is a number, a separator and a label;
colons and commas may be full-width.  The list ends at the first full stop, semicolon or line break.
-/

namespace SchemaReader.Enumeration

open SchemaReader.Number SchemaReader.Text
open SchemaReader.Schema (EnumEntry)

def marker : List Char := "【枚举】".toList

def colons : List Char := [':', '：']

def delimiters : List Char := [',', '，']

def separators : List Char := ['-', '—', ':', '：']

def terminators : List Char := ['。', '；', ';', '\n']

def afterText? : (lead text : List Char) → Option (List Char)
  | [], text => some text
  | _ :: _, [] => none
  | l :: lead, c :: rest => if l = c then afterText? lead rest else none

def afterMarkerHere? (text : List Char) : Option (List Char) :=
  (afterText? marker text).bind fun rest =>
    match trimLeft rest with
    | c :: items => if c ∈ colons then some items else none
    | [] => none

def afterMarker? : List Char → Option (List Char)
  | [] => none
  | c :: rest =>
      match afterMarkerHere? (c :: rest) with
      | some items => some items
      | none => afterMarker? rest

def hasMarker (comment : List Char) : Bool := (afterMarker? comment).isSome

def itemParts? (item : List Char) : Option (List Char × List Char) :=
  let digits := item.takeWhile isDigit
  match trimLeft (item.dropWhile isDigit) with
  | c :: rest =>
      let label := trim rest
      if !digits.isEmpty && separators.contains c && !label.isEmpty then some (digits, label)
      else none
  | [] => none

def readItem (item : List Char) : Except NumeralFault (Option EnumEntry) :=
  match itemParts? (trim item) with
  | none => .ok none
  | some (digits, label) =>
      (readNatural digits).map fun value => some ⟨value, String.ofList label⟩

def readItems (items : List Char) : Except NumeralFault (List EnumEntry) :=
  ((splitAtChars (delimiters.contains ·) items).mapM readItem).map (·.filterMap id)

/-- The enumeration in a comment; one without a single valid item is none. -/
def decode (comment : List Char) : Except NumeralFault (Option (List EnumEntry)) :=
  match afterMarker? comment with
  | none => .ok none
  | some rest =>
      (readItems (rest.takeWhile fun c => !terminators.contains c)).map fun entries =>
        if entries.isEmpty then none else some entries

structure Style where
  separator : String := "-"
  delimiter : String := "，"
  colon : String := "："
  deriving DecidableEq, Repr

inductive WriteFault where
  | separator (text : String)
  | delimiter (text : String)
  | colon (text : String)
  | value
  deriving DecidableEq, Repr

def WriteFault.message : WriteFault → String
  | .separator text => "Unsupported enum separator: " ++ String.ofList (quoted text.toList)
  | .delimiter text => "Unsupported enum delimiter: " ++ String.ofList (quoted text.toList)
  | .colon text => "Unsupported enum colon: " ++ String.ofList (quoted text.toList)
  | .value =>
      s!"Exceeds the limit ({maxDigits} digits) for integer string conversion; " ++
        "use sys.set_int_max_str_digits() to increase the limit"

def isSign (signs : List Char) (text : String) : Bool :=
  match text.toList with
  | [c] => signs.contains c
  | _ => false

def Style.fault? (style : Style) : Option WriteFault :=
  if !isSign separators style.separator then some (.separator style.separator)
  else if !isSign delimiters style.delimiter then some (.delimiter style.delimiter)
  else if !isSign colons style.colon then some (.colon style.colon)
  else none

/-- Numbers are written up to the length to which they are read; a sign does not count. -/
def hasRoom (entry : EnumEntry) : Bool :=
  (Nat.toDigits 10 entry.value.natAbs).length ≤ maxDigits

def itemText (style : Style) (entry : EnumEntry) : String :=
  toString entry.value ++ style.separator ++ entry.label

def encode (style : Style) (lead : String) (entries : List EnumEntry) :
    Except WriteFault String :=
  match style.fault? with
  | some fault => .error fault
  | none =>
      if entries.all hasRoom then
        .ok (lead ++ String.ofList marker ++ style.colon ++
          String.intercalate style.delimiter (entries.map (itemText style)))
      else .error .value

end SchemaReader.Enumeration

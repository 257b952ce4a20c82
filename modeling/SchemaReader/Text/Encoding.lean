import SchemaReader.Text.Quoted
import SchemaReader.Text.Search

/-!
Texts as bytes, and bytes written in base 64.

Bytes are decoded one at a time.  Where they form no text, the fault names the longest start of a
character that was read and why it cannot be completed.  In base 64 four characters of six bits
stand for three bytes; characters outside the alphabet are passed over, and the text ends where
padding completes a group of four.
-/

namespace SchemaReader.Text.Base64

def value? (c : Char) : Option Nat :=
  if 'A' ≤ c && c ≤ 'Z' then some (c.toNat - 65)
  else if 'a' ≤ c && c ≤ 'z' then some (c.toNat - 71)
  else if '0' ≤ c && c ≤ '9' then some (c.toNat + 4)
  else if c = '+' then some 62
  else if c = '/' then some 63
  else none

/-- A group of four that is being read: how many characters of it were read, the bits that do not
make a byte yet, and how much padding was seen. -/
structure Group where
  count : Nat := 0
  bits : Nat := 0
  pads : Nat := 0
  deriving DecidableEq, Repr

def Group.push (group : Group) (v : Nat) : Group × List UInt8 :=
  match group.count with
  | 0 => (⟨1, v, 0⟩, [])
  | 1 => (⟨2, v % 16, 0⟩, [UInt8.ofNat (group.bits * 4 + v / 16)])
  | 2 => (⟨3, v % 4, 0⟩, [UInt8.ofNat (group.bits * 16 + v / 4)])
  | _ => (⟨0, 0, 0⟩, [UInt8.ofNat (group.bits * 64 + v)])

def decodeFrom (group : Group) (out : List UInt8) : List Char → Option (List UInt8)
  | [] => if group.count = 0 then some out.reverse else none
  | c :: rest =>
      if c = '=' then
        if group.count < 2 then decodeFrom group out rest
        else if 4 ≤ group.count + (group.pads + 1) then some out.reverse
        else decodeFrom { group with pads := group.pads + 1 } out rest
      else match value? c with
        | none => decodeFrom group out rest
        | some v =>
            let (group, bytes) := group.push v
            decodeFrom group (bytes ++ out) rest

def decode? (text : List Char) : Option (List UInt8) := decodeFrom {} [] text

end SchemaReader.Text.Base64

namespace SchemaReader.Text

inductive Encoding where
  | utf8
  /-- Like `utf8`, with a byte order mark at the start that is not part of the text. -/
  | utf8Marked
  | latin1
  | ascii
  deriving DecidableEq, Repr

namespace Encoding

def name : Encoding → String
  | utf8 => "utf-8"
  | utf8Marked => "utf-8-sig"
  | latin1 => "latin-1"
  | ascii => "ascii"

def names : Encoding → List String
  | utf8 => ["utf_8", "utf8", "u8", "utf", "utf8_ucs2", "utf8_ucs4", "cp65001"]
  | utf8Marked => ["utf_8_sig"]
  | latin1 =>
      ["latin_1", "latin1", "latin", "l1", "8859", "cp819", "csisolatin1", "ibm819", "iso8859",
        "iso8859_1", "iso_8859_1", "iso_8859_1_1987", "iso_ir_100"]
  | ascii =>
      ["ascii", "us_ascii", "us", "646", "ansi_x3.4_1968", "ansi_x3.4_1986", "ansi_x3_4_1968",
        "cp367", "csascii", "ibm367", "iso646_us", "iso_646.irv_1991", "iso_ir_6"]

def all : List Encoding := [utf8, utf8Marked, latin1, ascii]

def plainName (name : String) : String :=
  let letters := name.toList.map Char.toLower
  let words := (splitAtChars (fun c => !(c.isAlphanum || c == '.')) letters).filter (!·.isEmpty)
  "_".intercalate (words.map String.ofList)

def ofName? (name : String) : Option Encoding := all.find? (·.names.contains (plainName name))

end Encoding

inductive DecodeReason where
  | badStart
  | badContinuation
  | endOfData
  | notAscii
  deriving DecidableEq, Repr

def DecodeReason.message : DecodeReason → String
  | badStart => "invalid start byte"
  | badContinuation => "invalid continuation byte"
  | endOfData => "unexpected end of data"
  | notAscii => "ordinal not in range(128)"

/-- Bytes that form no character: the position and value of the first, and how many they are. -/
structure DecodeFault where
  position : Nat
  byte : Nat
  count : Nat
  reason : DecodeReason
  deriving DecidableEq, Repr

namespace DecodeFault

def codec (fault : DecodeFault) : String :=
  if fault.reason = .notAscii then "ascii" else "utf-8"

def place (fault : DecodeFault) : String :=
  if fault.count = 1 then
    s!"byte 0x{String.ofList (hexDigits 2 fault.byte)} in position {fault.position}"
  else s!"bytes in position {fault.position}-{fault.position + fault.count - 1}"

def message (fault : DecodeFault) : String :=
  s!"'{fault.codec}' codec can't decode {fault.place}: {fault.reason.message}"

end DecodeFault

structure ByteRange where
  least : Nat
  greatest : Nat
  deriving DecidableEq, Repr

def ByteRange.tail : ByteRange := ⟨0x80, 0xBF⟩

def sequenceOf? (b : Nat) : Option (Nat × List ByteRange) :=
  if b < 0x80 then some (b, [])
  else if b < 0xC2 then none
  else if b < 0xE0 then some (b - 0xC0, [.tail])
  else if b = 0xE0 then some (0, [⟨0xA0, 0xBF⟩, .tail])
  else if b = 0xED then some (0xD, [⟨0x80, 0x9F⟩, .tail])
  else if b < 0xF0 then some (b - 0xE0, [.tail, .tail])
  else if b = 0xF0 then some (0, [⟨0x90, 0xBF⟩, .tail, .tail])
  else if b < 0xF4 then some (b - 0xF0, [.tail, .tail, .tail])
  else if b = 0xF4 then some (4, [⟨0x80, 0x8F⟩, .tail, .tail])
  else none

/-- A character that is being read: its first byte, how many bytes were read, and what is owed. -/
structure Unfinished where
  position : Nat
  byte : Nat
  count : Nat
  value : Nat
  owed : List ByteRange

def Unfinished.fault (p : Unfinished) (reason : DecodeReason) : DecodeFault :=
  ⟨p.position, p.byte, p.count, reason⟩

def decodeUtf8From (position : Nat) (underWay : Option Unfinished) (out : List Char) :
    List UInt8 → Except DecodeFault (List Char)
  | [] =>
      match underWay with
      | none => .ok out.reverse
      | some p => .error (p.fault .endOfData)
  | b :: rest =>
      let n := b.toNat
      match underWay with
      | none =>
          match sequenceOf? n with
          | none => .error ⟨position, n, 1, .badStart⟩
          | some (value, []) => decodeUtf8From (position + 1) none (Char.ofNat value :: out) rest
          | some (value, owed) =>
              decodeUtf8From (position + 1) (some ⟨position, n, 1, value, owed⟩) out rest
      | some p =>
          match p.owed with
          | [] => .error (p.fault .badContinuation)
          | range :: owed =>
              if n < range.least || range.greatest < n then .error (p.fault .badContinuation)
              else
                let value := p.value * 64 + (n - 0x80)
                if owed.isEmpty then
                  decodeUtf8From (position + 1) none (Char.ofNat value :: out) rest
                else
                  decodeUtf8From (position + 1)
                    (some { p with count := p.count + 1, value := value, owed := owed }) out rest

def decodeUtf8 (bytes : List UInt8) : Except DecodeFault (List Char) :=
  decodeUtf8From 0 none [] bytes

/-- The bytes after a byte order mark.  Nothing comes after a part of one that the text ends in. -/
def dropMark : List UInt8 → List UInt8
  | [0xEF] | [0xEF, 0xBB] => []
  | 0xEF :: 0xBB :: 0xBF :: rest => rest
  | bytes => bytes

def decodeLatin1 (bytes : List UInt8) : List Char := bytes.map fun b => Char.ofNat b.toNat

def decodeAscii (bytes : List UInt8) : Except DecodeFault (List Char) :=
  let position := (bytes.takeWhile (·.toNat < 128)).length
  match bytes[position]? with
  | some b => .error ⟨position, b.toNat, 1, .notAscii⟩
  | none => .ok (decodeLatin1 bytes)

def Encoding.decode : Encoding → List UInt8 → Except DecodeFault (List Char)
  | utf8, bytes => decodeUtf8 bytes
  | utf8Marked, bytes => decodeUtf8 (dropMark bytes)
  | latin1, bytes => .ok (decodeLatin1 bytes)
  | ascii, bytes => decodeAscii bytes

def unifyFrom (out : List Char) : List Char → List Char
  | [] => out.reverse
  | '\r' :: '\n' :: rest => unifyFrom ('\n' :: out) rest
  | c :: rest => unifyFrom ((if c = '\r' then '\n' else c) :: out) rest

def unifyLineBreaks (text : List Char) : List Char := unifyFrom [] text

end SchemaReader.Text

import SchemaReader.Text.Search

/-!
Dates and times in settings texts.

What is written like a date is a value only if the calendar and the clock have it.
-/

namespace SchemaReader.Yaml

structure Clock where
  hour : Nat
  minute : Nat
  second : Nat
  zone : Option Int
  deriving DecidableEq, Repr

structure Moment where
  year : Nat
  month : Nat
  day : Nat
  clock : Option Clock
  deriving DecidableEq, Repr

def digits? (least most : Nat) (text : List Char) : Option (Nat × List Char) :=
  let digits := (text.take most).takeWhile Char.isDigit
  if digits.length < least then none
  else some (digits.foldl (fun n c => 10 * n + (c.toNat - 48)) 0, text.drop digits.length)

def afterChar? (c : Char) : List Char → Option (List Char)
  | d :: rest => if d = c then some rest else none
  | [] => none

def skipBlanks (text : List Char) : List Char := text.dropWhile fun c => c == ' ' || c == '\t'

def zone? (text : List Char) : Option (Option Int) :=
  if text.isEmpty then some none
  else
    match skipBlanks text with
    | ['Z'] => some (some 0)
    | sign :: rest =>
        if sign = '-' || sign = '+' then
          (digits? 1 2 rest).bind fun (hours, rest) =>
            let minutes? :=
              if rest.isEmpty then some 0
              else ((afterChar? ':' rest).bind (digits? 2 2)).bind fun (minutes, rest) =>
                if rest.isEmpty then some minutes else none
            minutes?.map fun minutes =>
              let ahead : Int := hours * 60 + minutes
              some (if sign = '-' then -ahead else ahead)
        else none
    | [] => none

def afterFraction : List Char → List Char
  | '.' :: rest => rest.dropWhile Char.isDigit
  | text => text

def clock? (text : List Char) : Option Clock := do
  let (hour, text) ← digits? 1 2 text
  let (minute, text) ← digits? 2 2 (← afterChar? ':' text)
  let (second, text) ← digits? 2 2 (← afterChar? ':' text)
  let zone ← zone? (afterFraction text)
  return ⟨hour, minute, second, zone⟩

def clockPart? : List Char → Option (Option Clock)
  | [] => some none
  | c :: rest =>
      if c = 'T' || c = 't' then (clock? rest).map some
      else if c = ' ' || c = '\t' then (clock? (skipBlanks rest)).map some
      else none

def Moment.ofText? (text : List Char) : Option Moment := do
  let (year, text) ← digits? 4 4 text
  let (month, text) ← digits? 1 2 (← afterChar? '-' text)
  let (day, text) ← digits? 1 2 (← afterChar? '-' text)
  let clock ← clockPart? text
  return ⟨year, month, day, clock⟩

/-- A date without a time is recognized only when it is written in full. -/
def Moment.ofPlain? (text : List Char) : Option Moment :=
  (ofText? text).filter fun moment => moment.clock.isSome || text.length == 10

inductive MomentFault where
  | year
  | month
  | day
  | hour
  | minute
  | second
  | zone (minutes : Int)
  deriving DecidableEq, Repr

def daysAndSeconds (minutes : Int) : String :=
  let seconds := minutes % 1440 * 60
  s!"days={minutes / 1440}" ++ if seconds = 0 then "" else s!", seconds={seconds}"

def MomentFault.message : MomentFault → String
  | year => "year 0 is out of range"
  | month => "month must be in 1..12"
  | day => "day is out of range for month"
  | hour => "hour must be in 0..23"
  | minute => "minute must be in 0..59"
  | second => "second must be in 0..59"
  | zone minutes =>
      "offset must be a timedelta strictly between -timedelta(hours=24) and " ++
        s!"timedelta(hours=24), not datetime.timedelta({daysAndSeconds minutes})."

def isLeap (year : Nat) : Bool := year % 4 == 0 && (year % 100 != 0 || year % 400 == 0)

def daysIn (year month : Nat) : Nat :=
  if month = 2 then if isLeap year then 29 else 28
  else if [4, 6, 9, 11].contains month then 30
  else 31

/-- What is wrong with a moment; the zone is looked at first. -/
def Moment.fault? (moment : Moment) : Option MomentFault :=
  let minutes := (moment.clock.bind (·.zone)).getD 0
  if minutes.natAbs ≥ 1440 then some (.zone minutes)
  else if moment.year = 0 then some .year
  else if moment.month = 0 || 12 < moment.month then some .month
  else if moment.day = 0 || daysIn moment.year moment.month < moment.day then some .day
  else moment.clock.bind fun clock =>
    if 23 < clock.hour then some .hour
    else if 59 < clock.minute then some .minute
    else if 59 < clock.second then some .second
    else none

end SchemaReader.Yaml

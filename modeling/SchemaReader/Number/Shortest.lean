import SchemaReader.Number.Binary64

/-!
Floating-point numbers as texts.

The shortest decimal that reads back as a given number is found by trying one digit, two digits, and
so on, with the two decimals of that many digits next to the number.  The first that reads back is
taken, of two the nearer one, and the even one on a tie.  A number can also be written with a chosen
number of digits, rounded to the nearest decimal.
-/

namespace SchemaReader.Number.Binary64

def powerOfTen (e : Int) : Nat × Nat :=
  if 0 ≤ e then (Nat.pow 10 e.toNat, 1) else (1, Nat.pow 10 (-e).toNat)

def isAtLeastPower (num den : Nat) (e : Int) : Bool :=
  den * (powerOfTen e).1 ≤ num * (powerOfTen e).2

/-- The greatest `e` with `10 ^ e ≤ num / den`, from an estimate that is off by at most two. -/
def leadingExponent (num den : Nat) : Int :=
  let estimate := (((num.log2 : Int) - den.log2) * 30103).fdiv 100000
  if isAtLeastPower num den (estimate + 2) then estimate + 2
  else if isAtLeastPower num den (estimate + 1) then estimate + 1
  else if isAtLeastPower num den estimate then estimate
  else if isAtLeastPower num den (estimate - 1) then estimate - 1
  else estimate - 2

structure Decimal where
  digits : Nat
  exponent : Int
  deriving DecidableEq, Repr

def Decimal.readsBack (d : Decimal) (m : Nat) (e : Int) : Bool :=
  ofDecimal false d.digits d.exponent == finite false m e

/-- A decimal on the grid of step `10 ^ grid` that reads back as `m * 2 ^ e`, the nearest one. -/
def onGrid? (m : Nat) (e grid : Int) : Option Decimal :=
  let (num, den) := scaled m e
  let unit := powerOfTen grid
  let num := num * unit.2
  let den := den * unit.1
  let below : Decimal := ⟨num / den, grid⟩
  let above : Decimal := ⟨num / den + 1, grid⟩
  let nearest : Decimal := ⟨roundHalfEven num den, grid⟩
  if nearest.readsBack m e then some nearest
  else if below.readsBack m e then some below
  else if above.readsBack m e then some above
  else none

/-- Digit counts that are tried after the first `tried`; seventeen digits always suffice. -/
def shortestFrom (m : Nat) (e lead : Int) : (left tried : Nat) → Decimal
  | 0, _ => ⟨m, 0⟩
  | left + 1, tried =>
      match onGrid? m e (lead - tried) with
      | some d => d
      | none => shortestFrom m e lead left (tried + 1)

def shortest (m : Nat) (e : Int) : Decimal :=
  let (num, den) := scaled m e
  shortestFrom m e (leadingExponent num den) 17 0

def trimZeros (digits : List Char) : List Char × Nat :=
  let kept := (digits.reverse.dropWhile (· == '0')).reverse
  (kept, digits.length - kept.length)

def exponentText (e : Int) : List Char :=
  let digits := (toString e.natAbs).toList
  'e' :: (if e < 0 then '-' else '+') :: List.replicate (2 - digits.length) '0' ++ digits

/-- `0.digits * 10 ^ point`, positional from `1e-4` up to `1e16` and with an exponent beyond. -/
def decimalText (digits : List Char) (point : Int) : List Char :=
  if point ≤ -4 || 16 < point then
    match digits with
    | [] => []
    | [d] => d :: exponentText (point - 1)
    | d :: rest => d :: '.' :: rest ++ exponentText (point - 1)
  else if point ≤ 0 then '0' :: '.' :: List.replicate (-point).toNat '0' ++ digits
  else
    let whole := point.toNat
    if digits.length ≤ whole then
      digits ++ List.replicate (whole - digits.length) '0' ++ ['.', '0']
    else digits.take whole ++ '.' :: digits.drop whole

def magnitudeText (m : Nat) (e : Int) : List Char :=
  if m = 0 then "0.0".toList
  else
    let d := shortest m e
    let (digits, zeros) := trimZeros (toString d.digits).toList
    decimalText digits (digits.length + zeros + d.exponent)

def textWith (infinity : String) : Binary64 → String
  | infinite negative => (if negative then "-" else "") ++ infinity
  | finite negative m e => (if negative then "-" else "") ++ String.ofList (magnitudeText m e)

structure DigitRun where
  digits : List Char
  point : Int
  deriving DecidableEq, Repr

def DigitRun.zero : DigitRun := ⟨['0'], 1⟩

def DigitRun.ofDecimal (n : Nat) (exponent : Int) : DigitRun :=
  let written := (toString n).toList
  ⟨(trimZeros written).1, written.length + exponent⟩

def toPlaces (places : Nat) (m : Nat) (e : Int) : DigitRun :=
  if m = 0 then .zero
  else
    let (num, den) := scaled m e
    match roundHalfEven (num * Nat.pow 10 places) den with
    | 0 => ⟨[], -places⟩
    | n => .ofDecimal n (-places)

def toDigits (count : Nat) (m : Nat) (e : Int) : DigitRun :=
  if m = 0 then .zero
  else
    let (num, den) := scaled m e
    let grid := leadingExponent num den + 1 - count
    let unit := powerOfTen grid
    .ofDecimal (roundHalfEven (num * unit.2) (den * unit.1)) grid

def toShortest (m : Nat) (e : Int) : DigitRun :=
  if m = 0 then .zero
  else
    let d := shortest m e
    .ofDecimal d.digits d.exponent

structure DigitStyle where
  exponential : Bool
  digits : Int
  pointed : Bool
  keepPoint : Bool
  deriving DecidableEq, Repr

def DigitRun.write (run : DigitRun) (style : DigitStyle) : List Char :=
  let point := if style.exponential then 1 else run.point
  let least := if style.pointed && !style.exponential then point + 1 else point
  let count := (max style.digits least).toNat
  let digits := run.digits ++ List.replicate (count - run.digits.length) '0'
  let whole := if point ≤ 0 then ['0'] else digits.take point.toNat
  let fraction :=
    if point ≤ 0 then List.replicate (-point).toNat '0' ++ digits else digits.drop point.toNat
  let mark := if fraction.isEmpty && !style.keepPoint then [] else ['.']
  let exponent := if style.exponential then exponentText (run.point - 1) else []
  whole ++ mark ++ fraction ++ exponent

def fixedText (places : Nat) (keepPoint : Bool) (m : Nat) (e : Int) : List Char :=
  let run := toPlaces places m e
  run.write ⟨false, run.point + places, false, keepPoint⟩

def exponentialText (places : Nat) (keepPoint : Bool) (m : Nat) (e : Int) : List Char :=
  (toDigits (places + 1) m e).write ⟨true, places + 1, false, keepPoint⟩

/-- With a number of significant digits, positional where that is short; zeros at the end are
written only together with the point. -/
def generalText (digits : Nat) (pointed keepPoint : Bool) (m : Nat) (e : Int) : List Char :=
  let digits := max digits 1
  let run := toDigits digits m e
  let most : Int := if pointed then digits - 1 else digits
  run.write
    ⟨run.point ≤ -4 || most < run.point, if keepPoint then digits else run.digits.length, pointed,
      keepPoint⟩

def shortestText (keepPoint : Bool) (m : Nat) (e : Int) : List Char :=
  let run := toShortest m e
  run.write ⟨run.point ≤ -4 || 16 < run.point, run.digits.length, true, keepPoint⟩

def percent : Binary64 → Binary64
  | infinite negative => infinite negative
  | finite negative m e =>
      let (num, den) := scaled m e
      ofRatio negative (100 * num) den

end SchemaReader.Number.Binary64

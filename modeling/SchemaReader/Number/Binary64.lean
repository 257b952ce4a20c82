/-!
Floating-point numbers of 64 bits, by their mathematical value.

A finite number is `mantissa * 2 ^ exponent` with a sign; the mantissa has at most 53 bits, and
fewer only at the least exponent.  A quotient is rounded to the nearest number, and to the even
mantissa when two are equally near; so are sums and products.
-/

namespace SchemaReader.Number

inductive Binary64 where
  | finite (negative : Bool) (mantissa : Nat) (exponent : Int)
  | infinite (negative : Bool)
  deriving DecidableEq, Repr

namespace Binary64

def precision : Nat := 53

def leastExponent : Int := -1074

def greatestExponent : Int := 971

def scaled (n : Nat) (e : Int) : Nat × Nat :=
  if 0 ≤ e then (n * Nat.pow 2 e.toNat, 1) else (n, Nat.pow 2 (-e).toNat)

/-- The integer nearest to a quotient, the even one of two equally near. -/
def roundHalfEven (num den : Nat) : Nat :=
  let q := num / den
  let twice := 2 * (num % den)
  if twice < den then q
  else if den < twice then q + 1
  else q + q % 2

/-- An exponent at which the quotient has at least `precision` bits and at most one more. -/
def trialExponent (num den : Nat) : Int :=
  (num.log2 : Int) - den.log2 - precision

def exponentFor (num den : Nat) : Int :=
  let trial := trialExponent num den
  let shift := scaled 1 (-trial)
  let exact := if Nat.pow 2 precision ≤ num * shift.1 / (den * shift.2) then trial + 1 else trial
  max exact leastExponent

def ofRatio (negative : Bool) (num den : Nat) : Binary64 :=
  if num = 0 then finite negative 0 leastExponent
  else
    let e := exponentFor num den
    let shift := scaled 1 (-e)
    let m := roundHalfEven (num * shift.1) (den * shift.2)
    let (m, e) := if m = Nat.pow 2 precision then (m / 2, e + 1) else (m, e)
    if greatestExponent < e then infinite negative else finite negative m e

def ofDecimal (negative : Bool) (digits : Nat) (exponent : Int) : Binary64 :=
  if digits = 0 || exponent < -(400 + digits.log2) then finite negative 0 leastExponent
  else if 400 < exponent then infinite negative
  else if 0 ≤ exponent then ofRatio negative (digits * Nat.pow 10 exponent.toNat) 1
  else ofRatio negative digits (Nat.pow 10 (-exponent).toNat)

def toInt? : Binary64 → Option Int
  | infinite _ => none
  | finite negative m e =>
      let (num, den) := scaled m e
      if num % den = 0 then
        let n : Int := (num / den : Nat)
        some (if negative then -n else n)
      else none

def ratio (negative : Bool) (m : Nat) (e : Int) : Int × Nat :=
  let (num, den) := scaled m e
  (if negative then -(num : Int) else num, den)

def ofIntRatio (num : Int) (den : Nat) : Binary64 := ofRatio (num < 0) num.natAbs den

def add : Binary64 → Binary64 → Binary64
  | finite n m e, finite n' m' e' =>
      let (a, b) := ratio n m e
      let (c, d) := ratio n' m' e'
      ofIntRatio (a * d + c * b) (b * d)
  | infinite negative, _ => infinite negative
  | finite .., infinite negative => infinite negative

def mul : Binary64 → Binary64 → Binary64
  | finite n m e, finite n' m' e' =>
      let (a, b) := ratio n m e
      let (c, d) := ratio n' m' e'
      ofIntRatio (a * c) (b * d)
  | infinite negative, _ => infinite negative
  | finite .., infinite negative => infinite negative

def neg : Binary64 → Binary64
  | finite negative m e => finite (!negative) m e
  | infinite negative => infinite (!negative)

def ofInt? (n : Int) : Option Binary64 :=
  match ofIntRatio n 1 with
  | infinite _ => none
  | x => some x

end Binary64

end SchemaReader.Number

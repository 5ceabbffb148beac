import CodeAudit.Arithmetic

/-!
# Fixed places and rounding

A finite double is `m · 2^q`. From these parts follow, in exact arithmetic, writing it with a fixed number of places,
rounding it to so many, and its order with whole numbers. A half goes to the even neighbour, and the halves are those
of the exact binary value.
-/

namespace CodeAudit.Decimal

inductive Parts where
  | notANumber
  | infinite (negative : Bool)
  /-- The value `significand · 2^exponent`. -/
  | finite (negative : Bool) (significand : Nat) (exponent : Int)
  deriving DecidableEq, Repr

def Parts.ofFloat (x : Float) : Parts :=
  let bits := x.toBits.toNat
  let negative := bits / 2 ^ 63 == 1
  let biased : Nat := bits / 2 ^ 52 % 2 ^ 11
  let fraction : Nat := bits % 2 ^ 52
  if biased == 2047 then (if fraction == 0 then .infinite negative else .notANumber)
  else if biased == 0 then .finite negative fraction (-1074)
  else .finite negative (2 ^ 52 + fraction) ((biased : Int) - 1075)

structure Ratio where
  num : Nat
  den : Nat

def Ratio.ofBinary (m : Nat) (q : Int) : Ratio :=
  if 0 ≤ q then ⟨m * 2 ^ q.toNat, 1⟩ else ⟨m, 2 ^ (-q).toNat⟩

def Ratio.scale (r : Ratio) (e : Int) : Ratio :=
  if 0 ≤ e then ⟨r.num * 10 ^ e.toNat, r.den⟩ else ⟨r.num, r.den * 10 ^ (-e).toNat⟩

/-- A quotient rounded to the nearest whole number, a half to the even neighbour. -/
def roundDiv (num den : Nat) : Nat :=
  let below := num / den
  let rest := 2 * (num % den)
  if rest < den then below
  else if den < rest then below + 1
  else if below % 2 == 0 then below else below + 1

/-- The double nearest to a quotient of whole numbers, none where that is beyond the largest; a half
goes to the even neighbour. -/
def ofRatio? (num den : Nat) : Option Float :=
  if num == 0 || den == 0 then some 0.0
  else
    -- the exponent of the last binary place that a double of this size has
    let size : Int := (Nat.log2 num : Int) - (Nat.log2 den : Int)
    let last := max (size - 53) (-1074)
    let scaled := fun (e : Int) => if 0 ≤ e then roundDiv num (den * 2 ^ e.toNat)
      else roundDiv (num * 2 ^ (-e).toNat) den
    let units := scaled last
    let (units, last) := if 2 ^ 53 < units then (scaled (last + 1), last + 1) else (units, last)
    if 1024 < (Nat.log2 units : Int) + 1 + last then none
    else some (Float.scaleB (Float.ofNat units) last)

/-- `m · 2^q` in units of the last of `places` decimal places. -/
def inPlaces (places : Nat) (m : Nat) (q : Int) : Nat :=
  let r := (Ratio.ofBinary m q).scale places
  roundDiv r.num r.den

def withPoint (places units : Nat) : String :=
  let digits := (toString units).toList
  let padded := List.replicate (places + 1 - digits.length) '0' ++ digits
  let whole := padded.length - places
  if places == 0 then String.ofList padded
  else String.ofList (padded.take whole) ++ "." ++ String.ofList (padded.drop whole)

def fixed (places : Nat) (x : Float) : String :=
  match Parts.ofFloat x with
  | .notANumber => "nan"
  | .infinite negative => (if negative then "-" else "") ++ "inf"
  | .finite negative m q =>
    (if negative then "-" else "") ++ withPoint places (inPlaces places m q)

/-- The double nearest to `mantissa · 10^exponent`, for any exponent. -/
def ofScientific (mantissa : Nat) (exponent : Int) : Float :=
  let digits := (Nat.log2 mantissa / 3 : Nat)
  if mantissa == 0 then 0.0
  else if exponent < 0 then
    if (digits + 400 : Int) < -exponent then 0.0 else Float.ofScientific mantissa true (-exponent).toNat
  else if 400 < exponent then Float.ofScientific 1 false 400
  else Float.ofScientific mantissa false exponent.toNat

def roundTo (places : Nat) (x : Float) : Float :=
  match Parts.ofFloat x with
  | .finite negative m q =>
    let rounded := ofScientific (inPlaces places m q) (-(places : Int))
    if negative then -rounded else rounded
  | _ => x

def ofInt (n : Int) : Float :=
  let size := ofScientific n.natAbs 0
  if n < 0 then -size else size

def truncate? (x : Float) : Option Int :=
  match Parts.ofFloat x with
  | .finite negative m q =>
    let r := Ratio.ofBinary m q
    let whole : Int := (r.num / r.den : Nat)
    some (if negative then -whole else whole)
  | _ => none

/-- The order of a whole number and a double, exact for every size; nothing is ordered with
what is not a number. -/
def compareInt? (n : Int) (x : Float) : Option Ordering :=
  match Parts.ofFloat x with
  | .notANumber => none
  | .infinite negative => some (if negative then .gt else .lt)
  | .finite negative m q =>
    let r := Ratio.ofBinary m q
    let left : Int := n * (r.den : Int)
    let right : Int := if negative then -(r.num : Int) else r.num
    some (compare left right)

end CodeAudit.Decimal

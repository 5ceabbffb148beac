import CodeAudit.Decimal.Shortest

/-!
# Numbers of sixty-four binary digits

Numbers from zero up with a significand of sixty-four binary digits and any exponent. A sum, product or quotient is the
nearest such number, a half going to the even neighbour. Decimals worked out step by step in such numbers can differ
from the exact ones in their last places, so the steps are part of what a decimal is.
-/

namespace CodeAudit.Decimal

structure Wide where
  significand : Nat
  exponent : Int

namespace Wide

def precision : Nat := 64

def rounded (num den : Nat) (exponent : Int) : Wide :=
  if num == 0 then ⟨0, 0⟩
  else
    let scaled := fun (e : Int) => if 0 ≤ e then (num, den * 2 ^ e.toNat) else (num * 2 ^ (-e).toNat, den)
    -- in units of this place the quotient has sixty-four or sixty-five digits before the point
    let last : Int := (Nat.log2 num : Int) - (Nat.log2 den : Int) - precision
    let (n, d) := scaled last
    let last := if 2 ^ precision ≤ n / d then last + 1 else last
    let (n, d) := scaled last
    ⟨roundDiv n d, exponent + last⟩

def ofNat (n : Nat) : Wide := rounded n 1 0

def ofFloat (x : Float) : Wide :=
  match Parts.ofFloat x with
  | .finite _ m q => ⟨m, q⟩
  | _ => ⟨0, 0⟩

variable (a b : Wide) (whole fraction : List Nat)

def times : Wide := rounded (a.significand * b.significand) 1 (a.exponent + b.exponent)

def dividedBy : Wide := rounded a.significand b.significand (a.exponent - b.exponent)

def inUnits (a : Wide) (place : Int) : Nat := a.significand * 2 ^ (a.exponent - place).toNat

def plus : Wide :=
  let place := min a.exponent b.exponent
  rounded (a.inUnits place + b.inUnits place) 1 place

def minus : Wide :=
  let place := min a.exponent b.exponent
  rounded (a.inUnits place - b.inUnits place) 1 place

def less : Bool :=
  let place := min a.exponent b.exponent
  a.inUnits place < b.inUnits place

def floor (a : Wide) : Nat :=
  let r := Ratio.ofBinary a.significand a.exponent
  r.num / r.den

def toFloat (a : Wide) : Float :=
  let r := Ratio.ofBinary a.significand a.exponent
  (ofRatio? r.num r.den).getD (1.0 / 0.0)

/-- A power by squaring: `result · base^n`, with fuel for the digits of `n`. -/
def powerFrom : Nat → Wide → Wide → Nat → Wide
  | 0, _, result, _ => result
  | fuel + 1, base, result, n =>
    let result := if n % 2 == 1 then result.times base else result
    if n / 2 == 0 then result else powerFrom fuel (base.times base) result (n / 2)

def tenTo (n : Nat) : Wide := powerFrom (n + 1) (ofNat 10) (ofNat 1) n

/-! ## Decimals -/

/-- A divisor multiplied by a step as long as it times the step is not above a number, and how many
places that makes; with fuel for the steps. -/
def divisorFrom (x step : Wide) (places : Nat) : Nat → Wide × Nat → Wide × Nat
  | 0, found => found
  | fuel + 1, (divisor, count) =>
    if x.less (step.times divisor) then (divisor, count)
    else divisorFrom x step places fuel (divisor.times step, count + places)

/-- A number multiplied by a step as long as it is below a bound, and how many places that makes; with
fuel for the steps. -/
def raisedFrom (bound step : Wide) (places : Nat) : Nat → Wide × Nat → Wide × Nat
  | 0, found => found
  | fuel + 1, (x, count) =>
    if x.less bound then raisedFrom bound step places fuel (x.times step, count + places) else (x, count)

/-- A positive number as one from one to ten and the power of ten that it was divided by. -/
def scaled (x : Wide) : Wide × Int :=
  let found := divisorFrom x (ofFloat 1e100) 100 4 (ofNat 1, 0)
  let found := divisorFrom x (ofFloat 1e10) 10 11 found
  let (divisor, up) := divisorFrom x (ofNat 10) 1 11 found
  let raised := raisedFrom (ofFloat 1e-8) (ofFloat 1e8) 8 45 (x.dividedBy divisor, 0)
  let (y, down) := raisedFrom (ofNat 1) (ofNat 10) 1 10 raised
  (y, (up : Int) - (down : Int))

def leading : Nat → Wide → Nat → Nat
  | 0, _, found => found
  | count + 1, x, found =>
    leading count ((x.minus (ofNat x.floor)).times (ofNat 10)) (found * 10 + x.floor)

def halfUnit : Float := 5.0e-05 * 1.0e-10

/-- The first fifteen digits of a positive number, rounded by adding half a unit of the last. -/
def fifteen (x : Wide) : Digits :=
  let (y, power) := x.scaled
  let y := y.plus (ofFloat halfUnit)
  let (y, power) := if y.less (ofNat 10) then (y, power) else (y.times (ofFloat 0.1), power + 1)
  ⟨leading 15 y 0, 15, power + 1⟩

/-! ## Reading -/

/-- The first digits of a number, as many as surely fit a signed word, and the power of ten that is
left over. -/
def heldDigits : Nat × Int :=
  let most := (2 ^ 63 - 10) / 10
  let (n, power) := whole.foldl
    (fun (n, power) d => if most ≤ n then (n, power + 1) else (n * 10 + d, power)) (0, (0 : Int))
  fraction.foldl (fun (n, power) d => if most ≤ n then (n, power) else (n * 10 + d, power - 1)) (n, power)

/-- A number with as much of a power of ten taken into it as fits a signed word; with fuel. -/
def absorbed : Nat → Nat → Int → Nat × Int
  | 0, n, power => (n, power)
  | fuel + 1, n, power =>
    if 0 < power then
      if (2 ^ 63 - 1) / 10 ≤ n then (n, power) else absorbed fuel (n * 10) (power - 1)
    else if power < 0 && n % 10 == 0 then absorbed fuel (n / 10) (power + 1)
    else (n, power)

def readDigits (power : Int) : Float :=
  let (n, left) := heldDigits whole fraction
  if n == 0 then 0.0
  else
    let (n, power) := absorbed 20 n (power + left)
    let size := power.natAbs
    let times := fun (places : Nat) =>
      (if power < 0 then (ofNat n).dividedBy (tenTo places) else (ofNat n).times (tenTo places)).toFloat
    if size == 0 then (ofNat n).toFloat
    else if size ≤ 307 then times size
    else if size < 342 then
      -- the last three hundred and eight places are a step of their own, between doubles
      if power < 0 then times (size - 308) / 1.0e308 else times (size - 308) * 1.0e308
    else if power < 0 then 0.0
    else 1.0 / 0.0

end Wide

/-! ## Fifteen digits

A double to fifteen significant digits, without the zeros at the end but with at least one digit after
the point.
-/

def trimZeros : Nat → Digits → Digits
  | 0, d => d
  | fuel + 1, d =>
    if 1 < d.count && d.digits % 10 == 0 then
      trimZeros fuel { d with digits := d.digits / 10, count := d.count - 1 }
    else d

/-- A double to fifteen significant digits; an exponent takes the place of more zeros than that. -/
def fifteenDigits (x : Float) : String :=
  match Parts.ofFloat x with
  | .notANumber => ""
  | .infinite negative => if negative then "-Inf" else "Inf"
  | .finite negative m _ =>
    let sign := if negative then "-" else ""
    if m == 0 then "0.0"
    else
      let d := trimZeros 15 (Wide.ofFloat x).fifteen
      if -4 < d.point && d.point ≤ 15 then sign ++ positional d
      else
        -- a single digit gets a zero after the point
        sign ++ scientific (if d.count == 1 then { d with digits := d.digits * 10, count := 2 } else d)

end CodeAudit.Decimal

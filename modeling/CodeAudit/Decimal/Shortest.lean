import CodeAudit.Decimal.Fixed

/-!
# The shortest decimal that reads back

A finite double `m · 2^q` is a decimal with finitely many digits. `shortest` takes the fewest significant digits for
which one of its two neighbours is read as the double again, and of two such the nearer.
-/

namespace CodeAudit.Decimal

/-- How a number is written: from which place of the point on, above and below, an exponent takes
the place of zeros, and the words for what is not a number. -/
structure Style where
  most : Int
  least : Int
  notANumber : String
  infinite : String

/-- Significant digits `digits`, written without a point, and the place of the point: the value is
`0.digits · 10^point`. -/
structure Digits where
  digits : Nat
  count : Nat
  point : Int

def Style.isPositional (style : Style) (d : Digits) : Bool := style.least < d.point && d.point ≤ style.most

/-- The double as which digits are read; after a whole number without an exponent stands a zero. -/
def Digits.read (style : Style) (d : Digits) : Float :=
  if style.isPositional d && d.count ≤ d.point then
    ofScientific (d.digits * 10 ^ (d.point.toNat - d.count + 1)) (-1)
  else ofScientific d.digits (d.point - d.count)

/-- All the digits of `m · 2^q`. -/
def exactDigits (m : Nat) (q : Int) : Digits :=
  let digits := if q < 0 then m * 5 ^ (-q).toNat else m * 2 ^ q.toNat
  let count := (Nat.toDigits 10 digits).length
  { digits, count, point := count + min q 0 }

/-- The neighbours of digits that have `count` digits, the nearer one first. -/
def Digits.neighbours (d : Digits) (count : Nat) : List Digits :=
  let unit := 10 ^ (d.count - count)
  let number := d.digits / unit
  let rest := 2 * (d.digits % unit)
  let below : Digits := { digits := number, count, point := d.point }
  let above : Digits :=
    if number + 1 == 10 ^ count then { digits := 1, count := 1, point := d.point + 1 }
    else { digits := number + 1, count, point := d.point }
  if rest < unit || rest == unit && number % 2 == 0 then [below, above] else [above, below]

def shortest (style : Style) (m : Nat) (q : Int) : Digits :=
  let all := exactDigits m q
  let reads := fun (d : Digits) => Parts.ofFloat (d.read style) == .finite false m q
  ((List.range (all.count - 1)).findSome? fun n => (all.neighbours (n + 1)).find? reads).getD all

def positional (d : Digits) : String :=
  let text := toString d.digits
  if d.point ≤ 0 then "0." ++ String.ofList (List.replicate (-d.point).toNat '0') ++ text
  else
    let whole := d.point.toNat
    if d.count ≤ whole then
      text ++ String.ofList (List.replicate (whole - d.count) '0') ++ ".0"
    else String.ofList (text.toList.take whole) ++ "." ++ String.ofList (text.toList.drop whole)

def scientific (d : Digits) : String :=
  let digits := (toString d.digits).toList
  let exponent := d.point - 1
  let size := toString exponent.natAbs
  let padded := if size.length < 2 then "0" ++ size else size
  let mantissa := match digits with
    | [] => ""
    | [c] => String.ofList [c]
    | c :: rest => String.ofList (c :: '.' :: rest)
  mantissa ++ "e" ++ (if exponent < 0 then "-" else "+") ++ padded

def write (style : Style) (x : Float) : String :=
  match Parts.ofFloat x with
  | .notANumber => style.notANumber
  | .infinite negative => (if negative then "-" else "") ++ style.infinite
  | .finite negative m q =>
    let sign := if negative then "-" else ""
    if m == 0 then sign ++ "0.0"
    else
      let d := shortest style m q
      sign ++ (if style.isPositional d then positional d else scientific d)

def plainStyle : Style := { most := 16, least := -4, notANumber := "nan", infinite := "inf" }

def plain (x : Float) : String := write plainStyle x

end CodeAudit.Decimal

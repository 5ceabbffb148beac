import CodeAudit.Decimal.Fixed
import CodeAudit.Value.Basic

/-!
# Equality and order of values

Numbers compare by value whatever their kind, and truth values count as one and zero. Texts compare by code point,
lists element by element. Records are equal when they hold equal values under the same names, in any order. Values of
unlike kinds are unequal and have no order.
-/

namespace CodeAudit

open Decimal

inductive Number where
  | whole (n : Int)
  | real (x : Float)

namespace Number

def compare? : Number → Number → Option Ordering
  | .whole a, .whole b => some (compare a b)
  | .whole a, .real y => compareInt? a y
  | .real x, .whole b => (compareInt? b x).map Ordering.swap
  | .real x, .real y => if x < y then some .lt else if x == y then some .eq
      else if y < x then some .gt else none

def toFloat : Number → Float
  | .whole n => ofInt n
  | .real x => x

/-- A number rounded to so many decimal places; whole numbers stay as they are. -/
def rounded (places : Nat) : Number → Number
  | .whole n => .whole n
  | .real x => .real (roundTo places x)

def toValue : Number → Value
  | .whole n => .int n
  | .real x => .float x

end Number

namespace Value

def number? : Value → Option Number
  | .bool b => some (.whole (if b then 1 else 0))
  | .int n => some (.whole n)
  | .float x | .estimate x => some (.real x)
  | _ => none

mutual

def same : Value → Value → Bool
  | .null, .null => true
  | .str a, .str b => a == b
  | .list a, .list b => sameAll a b
  | .tuple a, .tuple b => sameAll a b
  | .set a, .set b => sameAll a b
  | .obj a, .obj b => a.length == b.length && sameFields a b
  | .map a, .map b => a.length == b.length && sameEntries a b
  | .foreign a x, .foreign b y => a == b && x == y
  | a, b => match a.number?, b.number? with
    | some m, some n => m.compare? n == some .eq
    | _, _ => false

def sameAll : List Value → List Value → Bool
  | [], [] => true
  | a :: as, b :: bs => same a b && sameAll as bs
  | _, _ => false

def sameFields : List (String × Value) → Record → Bool
  | [], _ => true
  | (name, a) :: rest, r =>
    (match r.get? name with
      | some b => same a b
      | none => false) && sameFields rest r

/-- Every entry of the first record has an equal one in the second. -/
def sameEntries : List (Value × Value) → List (Value × Value) → Bool
  | [], _ => true
  | (k, a) :: rest, r => r.any (fun entry => same k entry.1 && same a entry.2) && sameEntries rest r

end

def underName? {α : Type} (entries : List (Value × α)) (name : Value) : Option α :=
  (entries.find? (·.1.same name)).map (·.2)

/-- Writes an entry: in its place if an equal name is there, at the end otherwise. -/
def putEntry {α : Type} (entries : List (Value × α)) (name : Value) (value : α) : List (Value × α) :=
  if entries.any (·.1.same name) then
    entries.map fun entry => if entry.1.same name then (entry.1, value) else entry
  else entries ++ [(name, value)]

def isOneOf (v : Value) (items : List Value) : Bool := items.any (same v)

def isWordOf (v : Value) (words : List String) : Bool :=
  match v with
  | .str s => words.contains s
  | _ => false

theorem isLookedUp_of_isWordOf {v : Value} {words : List String} (h : v.isWordOf words = true) :
    v.isLookedUp = true := by
  cases v with
  | str s => rfl
  | _ => cases h

/-- Membership of a value in another: an element of a list, a part of a text, a name of a record. -/
def member (v : Value) : Value → Except Fault Bool
  | .list items => .ok (v.isOneOf items)
  | .tuple items => .ok (v.isOneOf items)
  | .set items => if v.isLookedUp then .ok (v.isOneOf items) else .error .wrongKind
  | .obj fields => if v.hashable then .ok (v.isOneOf (fields.map fun f => .str f.1)) else .error .wrongKind
  | .map entries => if v.hashable then .ok (v.isOneOf (entries.map (·.1))) else .error .wrongKind
  | .str s => match v with
    | .str part => .ok (Text.contains s part)
    | _ => .error .wrongKind
  | _ => .error .wrongKind

mutual

def order : Value → Value → Except Fault (Option Ordering)
  | .str a, .str b => .ok (some (compare a b))
  | .list a, .list b => orderAll a b
  | .tuple a, .tuple b => orderAll a b
  | a, b => match a.number?, b.number? with
    | some m, some n => .ok (m.compare? n)
    | _, _ => .error .wrongKind

/-- The order of two lists: that of their first unequal elements, and else of their lengths. -/
def orderAll : List Value → List Value → Except Fault (Option Ordering)
  | [], [] => .ok (some .eq)
  | [], _ :: _ => .ok (some .lt)
  | _ :: _, [] => .ok (some .gt)
  | a :: as, b :: bs => if same a b then orderAll as bs else order a b

end

def atLeast (a b : Value) : Except Fault Bool := do
  match ← order a b with
  | some .gt | some .eq => pure true
  | _ => pure false

def exceeds (a b : Value) : Except Fault Bool := do
  match ← order a b with
  | some .gt => pure true
  | _ => pure false

def lessThan (a b : Value) : Except Fault Bool := do
  match ← order a b with
  | some .lt => pure true
  | _ => pure false

end Value

/-! ## Arithmetic on numbers of either kind

Whole numbers stay whole under sums, differences and products. As soon as a double takes part the result is a double,
and a whole number beyond the range of doubles cannot take part. The quotient of two whole numbers is the double
nearest to the exact one. -/

namespace Number

/-- The double nearest to a number; a whole number beyond the range of doubles has none. -/
def double : Number → Except Fault Float
  | .whole n => let x := ofInt n; if x.isInf then .error .overflow else .ok x
  | .real x => .ok x

def combine (onWhole : Int → Int → Int) (onReal : Float → Float → Float) :
    Number → Number → Except Fault Number
  | .whole a, .whole b => .ok (.whole (onWhole a b))
  | a, b => do return .real (onReal (← a.double) (← b.double))

def plus : Number → Number → Except Fault Number := combine (· + ·) (· + ·)

def minus : Number → Number → Except Fault Number := combine (· - ·) (· - ·)

def times : Number → Number → Except Fault Number := combine (· * ·) (· * ·)

def dividedBy : Number → Number → Except Fault Float
  | .whole a, .whole b =>
    if b == 0 then .error .zeroDivision
    else match ofRatio? a.natAbs b.natAbs with
      | some x => .ok (if (a < 0) != (b < 0) then -x else x)
      | none => .error .overflow
  | a, b => do
    let x ← a.double
    let y ← b.double
    if y == 0.0 then .error .zeroDivision else .ok (x / y)

def size : Number → Number
  | .whole n => .whole n.natAbs
  | .real x => .real x.abs

end Number

namespace Value

def toNumber (v : Value) : Except Fault Number :=
  match v.number? with
  | some n => .ok n
  | none => .error .wrongKind

end Value

end CodeAudit

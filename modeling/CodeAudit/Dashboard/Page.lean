import CodeAudit.Value.Order
import CodeAudit.Decimal.Reader
import CodeAudit.Decimal.Wide
import CodeAudit.Text.Surrogate

/-!
# Pages

A list is shown in pages of a fixed size, numbered from one. A number below one shows page one, and a negative size
means no limit. Both are shown as they were given; the store wants the size and the number of elements before the page
to be whole.
-/

namespace CodeAudit

open Decimal

/-! ## Cells of the store

A cell is empty, a number or a text. A text column turns numbers into text, a number column texts that write numbers
into numbers, as far as nothing is lost. -/

inductive Cell where
  | null
  | whole (n : Int)
  | real (x : Float)
  | text (s : String)

namespace Cell

def inRange (n : Int) : Bool := -(2 ^ 63) ≤ n && n < 2 ^ 63

/-- A value handed to the store. Lists and records cannot be, whole numbers must fit and texts must have
bytes; what is not a number counts as nothing. -/
def ofValue : Value → Except Fault Cell
  | .null => .ok .null
  | .bool b => .ok (.whole (if b then 1 else 0))
  | .int n => if inRange n then .ok (.whole n) else .error .overflow
  | .float x | .estimate x => .ok (if x.isNaN then .null else .real x)
  | .str s => if Text.isEncodable s then .ok (.text s) else .error .unencodable
  | _ => .error .unbindable

def toValue : Cell → Value
  | .null => .null
  | .whole n => .int n
  | .real x => .float x
  | .text s => .str s

def isNull : Cell → Bool
  | .null => true
  | _ => false

def inTextColumn : Cell → Cell
  | .whole n => .text (toString n)
  | .real x => .text (fifteenDigits x)
  | c => c

def isSpace (c : Char) : Bool := c == ' ' || ('\t' ≤ c && c ≤ '\r')

def digitsOf (cs : List Char) : List Nat × List Char :=
  ((cs.takeWhile Char.isDigit).map fun c => c.toNat - 48, cs.dropWhile Char.isDigit)

/-- The size of an exponent; past five digits it is as good as any other. -/
def exponentSize (ds : List Nat) : Nat := ds.foldl (fun e d => if e < 10000 then e * 10 + d else 10000) 0

def exponentOf? : List Char → Option Int
  | e :: cs =>
    if e == 'e' || e == 'E' then
      let (negative, cs) := sign cs
      match digitsOf cs with
      | ([], _) => none
      | (ds, []) => some (if negative then -(exponentSize ds : Int) else exponentSize ds)
      | _ => none
    else none
  | [] => none

/-- The number that a text writes: digits with an optional sign, point and exponent, blanks around. -/
def numberOf? (s : String) : Option Cell :=
  let (negative, body) := sign (Chars.trim isSpace s.toList)
  let (before, rest) := digitsOf body
  let (hasPoint, after, rest) := match rest with
    | '.' :: more => let (ds, left) := digitsOf more; (true, ds, left)
    | _ => (false, [], rest)
  let real (exponent : Int) : Cell :=
    let x := Decimal.Wide.readDigits before after exponent
    .real (if negative then -x else x)
  if before.isEmpty && after.isEmpty then none
  else if rest.isEmpty then
    let n : Int := if negative then -(ofDigits before : Int) else ofDigits before
    some (if !hasPoint && inRange n then .whole n else real 0)
  else (exponentOf? rest).map real

def wholeIfExact : Cell → Cell
  | .real x => match truncate? x with
    | some n => if ofInt n == x && -(2 ^ 63) < n && n < 2 ^ 63 - 1 then .whole n else .real x
    | none => .real x
  | c => c

def inWholeColumn : Cell → Cell
  | .text s => ((numberOf? s).map wholeIfExact).getD (.text s)
  | c => wholeIfExact c

def inRealColumn (c : Cell) : Cell :=
  match inWholeColumn c with
  | .whole n => .real (ofInt n)
  | other => other

/-- Whether a cell of a text column holds what another value, taken as text, says. -/
def holds (c wanted : Cell) : Bool :=
  match c, wanted.inTextColumn with
  | .text a, .text b => a == b
  | _, _ => false

end Cell

/-! ## Requests for pages -/

structure PageRequest where
  number : Value
  size : Value
  before : Value

namespace PageRequest

def longestText : Nat := 2 ^ 31 - 1

/-- More repetitions than this leave no text that is a number, unless it is zero all along. -/
def enoughTimes : Nat := 64

/-- A value taken so many times: numbers are multiplied, texts and lists repeated. -/
def repeated (times : Number) (v : Value) : Except Fault Value :=
  match v, times with
  | .str s, .whole n =>
    if !Cell.inRange n || longestText < n.toNat * s.length then .error .overflow
    else .ok (.str (Text.join "" (List.replicate (min n.toNat enoughTimes) s)))
  | .list items, .whole n => if Cell.inRange n then .ok (.list items) else .error .overflow
  | _, _ => do return (← times.times (← v.toNumber)).toValue

def of (number size : Value) : Except Fault PageRequest := do
  let pagesBefore ← (← number.toNumber).minus (.whole 1)
  return { number, size, before := ← repeated pagesBefore size }

def bounds (r : PageRequest) : Except Fault (Int × Int) := do
  let limit ← Cell.ofValue r.size
  let offset ← Cell.ofValue r.before
  match limit.inWholeColumn, offset.inWholeColumn with
  | .whole limit, .whole offset => return (limit, offset)
  | _, _ => .error .constraint

end PageRequest

/-- A part of a list, with what was asked for and how much there is in all. -/
structure Page (α : Type) where
  items : List α
  total : Nat
  number : Value
  size : Value
  pages : Value

namespace Page

def window {α : Type} (xs : List α) (limit offset : Int) : List α :=
  let rest := xs.drop offset.toNat
  if limit < 0 then rest else rest.take limit.toNat

def pageCount (total : Nat) (size : Int) : Int := ((total : Int) + size - 1) / size

/-- How many pages so many elements fill; a size that is a double gives a double, worked out in
doubles. -/
def pagesOf (total : Nat) (size : Value) : Except Fault Value := do
  if ← size.exceeds (.int 0) then
    match ← size.toNumber with
    | .whole n => return .int (pageCount total n)
    | .real x =>
      let most := ofInt total + x - 1.0
      return .float (ofInt (((truncate? most).getD 0) / ((truncate? x).getD 1)))
  else return .int 0

def of {α : Type} (xs : List α) (r : PageRequest) : Except Fault (Page α) := do
  let (limit, offset) ← r.bounds
  return { items := window xs limit offset, total := xs.length, number := r.number, size := r.size
           pages := ← pagesOf xs.length r.size }

def toRecord {α : Type} (p : Page α) (name : String) (show' : α → Record) : Record :=
  [(name, .list (p.items.map fun x => .obj (show' x))), ("total", .nat p.total), ("page", p.number),
   ("per_page", p.size), ("pages", p.pages)]

end Page

end CodeAudit

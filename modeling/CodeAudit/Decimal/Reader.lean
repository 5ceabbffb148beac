import CodeAudit.Decimal.Fixed
import CodeAudit.Text.Basic

/-!
# Reading numbers

Numbers as people write them: blanks around, a sign, single underscores between digits, digits of any script; for
doubles also a point, an exponent, and words for infinity and what is not a number.
-/

namespace CodeAudit.Decimal

/-- The digits at the start of a text, with single underscores between them passed over; `after` says
whether a digit stands before. -/
def digitRun (after : Bool) : List Char → List Nat × List Char
  | [] => ([], [])
  | c :: cs =>
    match Text.digitValue? c with
    | some d => let (ds, rest) := digitRun true cs; (d :: ds, rest)
    | none =>
      if after && c == '_' && (cs.head?.bind Text.digitValue?).isSome then digitRun false cs
      else ([], c :: cs)

def ofDigits (ds : List Nat) : Nat := ds.foldl (fun n d => n * 10 + d) 0

def sign : List Char → Bool × List Char
  | '-' :: cs => (true, cs)
  | '+' :: cs => (false, cs)
  | cs => (false, cs)

/-- How many decimal digits a whole number can be written with. -/
def mostDigits : Nat := 4300

/-- Blanks that may stand around a number: of the control characters only tab to carriage return. -/
def isMargin (c : Char) : Bool := Text.isBlank c && !(28 ≤ c.toNat && c.toNat ≤ 31)

def readInt? (s : String) : Option Int :=
  let (negative, body) := sign (Chars.trim isMargin s.toList)
  match digitRun false body with
  | ([], _) => none
  | (ds, []) =>
    if !(ds.drop mostDigits).isEmpty then none
    else some (if negative then -(ofDigits ds : Int) else ofDigits ds)
  | _ => none

/-- The value of a digit in a base of up to thirty-six: letters follow the digits of any script. -/
def digitIn? (base : Nat) (c : Char) : Option Nat :=
  let value := match Text.digitValue? c with
    | some d => some d
    | none =>
      if 'a' ≤ c ∧ c ≤ 'z' then some (c.toNat - 'a'.toNat + 10)
      else if 'A' ≤ c ∧ c ≤ 'Z' then some (c.toNat - 'A'.toNat + 10)
      else none
  value.filter (· < base)

def baseLetter? : Nat → Option Char
  | 2 => some 'b'
  | 8 => some 'o'
  | 16 => some 'x'
  | _ => none

/-- Digits in a base with single underscores between them; `after` says whether a digit stands before. -/
def digitsIn? (base : Nat) (after : Bool) : List Char → Option (List Nat)
  | [] => if after then some [] else none
  | c :: cs =>
    if c == '_' then (if after then digitsIn? base false cs else none)
    else do
      let d ← digitIn? base c
      return d :: (← digitsIn? base true cs)

/-- The whole number that a text writes in a base that is a power of two: a sign, the mark of the base and
blanks around are passed over. -/
def readIn? (base : Nat) (s : String) : Option Int := do
  let (negative, body) := sign (Chars.trim isMargin s.toList)
  let digits := match body with
    | '0' :: letter :: rest =>
      if (baseLetter? base).any fun b => letter == b || letter == b.toUpper then
        -- one underscore may stand after the mark
        match rest with
        | '_' :: more => more
        | _ => rest
      else body
    | _ => body
  let ds ← digitsIn? base false digits
  let n : Int := (ds.foldl (fun n d => n * base + d) 0 : Nat)
  return if negative then -n else n

/-- The exponent of a number: none where it is malformed. -/
def readPower? : List Char → Option Int
  | [] => some 0
  | e :: cs =>
    if e == 'e' || e == 'E' then
      let (negative, body) := sign cs
      match digitRun false body with
      | ([], _) => none
      | (ds, []) => some (if negative then -(ofDigits ds : Int) else ofDigits ds)
      | _ => none
    else none

/-- The size of a double: digits with an optional point among them, and an exponent. -/
def readSize? (cs : List Char) : Option Float :=
  let (whole, rest) := digitRun false cs
  let (fraction, tail) := match rest with
    | '.' :: more => digitRun false more
    | _ => ([], rest)
  if whole.isEmpty && fraction.isEmpty then none
  else (readPower? tail).map fun power =>
    ofScientific (ofDigits (whole ++ fraction)) (power - (fraction.length : Int))

def readFloat? (s : String) : Option Float :=
  let (negative, body) := sign (Chars.trim isMargin s.toList)
  let word := String.ofList (body.map Char.toLower)
  let size? :=
    if word == "inf" || word == "infinity" then some (1.0 / 0.0)
    else if word == "nan" then some (0.0 / 0.0)
    else readSize? body
  size?.map fun x => if negative then -x else x

end CodeAudit.Decimal

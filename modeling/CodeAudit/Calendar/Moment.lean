import CodeAudit.Text.Basic

/-!
# Moments

A moment is a day and a time of day, without a zone. It is read as the international standard has it, with any
character between date and time.
-/

namespace CodeAudit

open Text

/-! ## Dates

Dates of the Gregorian calendar, extended to all years from 1 to 9999, and their numbers as days. -/

structure Date where
  year : Nat
  month : Nat
  day : Nat
  deriving DecidableEq, Repr

variable (cs : List Char) (d : Date)

namespace Date

def isLeap (year : Nat) : Bool := year % 4 == 0 && (year % 100 != 0 || year % 400 == 0)

def monthLength (year month : Nat) : Nat :=
  match month with
  | 2 => if isLeap year then 29 else 28
  | 4 => 30
  | 6 => 30
  | 9 => 30
  | 11 => 30
  | _ => 31

def isValid : Bool :=
  1 ≤ d.year && d.year ≤ 9999 && 1 ≤ d.month && d.month ≤ 12 && 1 ≤ d.day && d.day ≤ monthLength d.year d.month

def daysBeforeYear (year : Nat) : Nat :=
  let past := year - 1
  past * 365 + past / 4 - past / 100 + past / 400

def daysBeforeMonth (year month : Nat) : Nat :=
  ((List.range (month - 1)).map fun m => monthLength year (m + 1)).sum

/-- The number of a date: the first of January of the year 1 is day one. -/
def number : Nat := daysBeforeYear d.year + daysBeforeMonth d.year d.month + d.day

def monthDay (year : Nat) : Nat → Nat → Nat → Nat × Nat
  | 0, month, days => (month, days + 1)
  | more + 1, month, days =>
    if days < monthLength year month then (month, days + 1)
    else monthDay year more (month + 1) (days - monthLength year month)

/-- The date with a number: years are counted in cycles of 400, of 100 and of four. -/
def ofNumber (number : Nat) : Date :=
  let past := number - 1
  let inCycle := past % 146097
  let centuries := min 3 (inCycle / 36524)
  let inCentury := inCycle - centuries * 36524
  let inFour := inCentury % 1461
  let years := min 3 (inFour / 365)
  let year := 400 * (past / 146097) + 100 * centuries + 4 * (inCentury / 1461) + years + 1
  let (month, day) := monthDay year 11 1 (inFour - years * 365)
  { year, month, day }

def text : String :=
  zeroPadded 4 (d.year : Int) ++ "-" ++ zeroPadded 2 (d.month : Int) ++ "-" ++ zeroPadded 2 (d.day : Int)

/-- The Monday of the first week of a year: the week with its fourth of January. -/
def firstMonday (year : Nat) : Nat :=
  let fourth := number { year, month := 1, day := 4 }
  fourth - (fourth - 1) % 7

def digits? : Option Nat :=
  if cs.isEmpty || !cs.all isAsciiDigit then none
  else some (cs.foldl (fun n c => n * 10 + (c.toNat - 48)) 0)

def ofWeek? (year week day : Nat) : Option Nat :=
  let weeks := if (firstMonday (year + 1) - firstMonday year) == 371 then 53 else 52
  if 1 ≤ week && week ≤ weeks && 1 ≤ day && day ≤ 7 then
    some (firstMonday year + (week - 1) * 7 + (day - 1))
  else none

/-- The number of the day that a text names: year, month and day, or year, week and day, all with
hyphens between them or all without. -/
def readNumber? : Option Nat := do
  let year ← digits? (cs.take 4)
  let hyphens := (cs.drop 4).head? == some '-'
  let rest := if hyphens then cs.drop 5 else cs.drop 4
  match rest with
  | 'W' :: after =>
    let week ← digits? (after.take 2)
    let left := after.drop 2
    if (after.take 2).length != 2 || year == 0 then none
    else match left with
      | [] => ofWeek? year week 1
      | ['-', d] => if hyphens then (digits? [d]).bind (ofWeek? year week) else none
      | [d] => if hyphens then none else (digits? [d]).bind (ofWeek? year week)
      | _ => none
  | _ =>
    let month ← digits? (rest.take 2)
    let left := rest.drop 2
    let dayText ← if hyphens then (match left with
        | '-' :: more => some more
        | _ => none)
      else some left
    let day ← digits? dayText
    let date : Date := { year, month, day }
    if (rest.take 2).length == 2 && dayText.length == 2 && date.isValid then some date.number else none

end Date

/-! ## Times of day -/

structure Moment where
  day : Nat
  micros : Nat
  deriving DecidableEq, Repr

namespace Moment

def microsOf? (hour minute second micro : Nat) : Option Nat :=
  if hour < 24 && minute < 60 && second < 60 then
    some (((hour * 60 + minute) * 60 + second) * 1000000 + micro)
  else none

/-- The fraction of a second: six digits count, more must still be digits. What follows a null character
is not looked at. -/
def readFraction? : Option Nat := do
  let counted := cs.take 6
  let n ← Date.digits? counted
  let left := (cs.drop 6).dropWhile isAsciiDigit
  if left.isEmpty || left.head? == some '\x00' then some (n * 10 ^ (6 - counted.length)) else none

/-- Hours, minutes and seconds, and the digits of a fraction; later parts may be missing. `colons` says whether colons
stand between the parts, once that is known. Without colons, or after one more, digits after the seconds are a fraction
even without a point. -/
def readParts? : Option Bool → Nat → List Char → Option (List Nat × List Char)
  | _, 0, cs => some ([], cs)
  | colons, n + 1, cs => do
    let value ← Date.digits? (cs.take 2)
    if (cs.take 2).length != 2 then none
    else
      let rest := cs.drop 2
      match rest with
      | [] => some ([value], [])
      | [c] => if c == '\x00' then some ([value], []) else none
      | c :: more =>
        let colons := colons.getD (c == ':')
        if c == '.' || c == ',' then some ([value], more)
        else if colons && c != ':' then none
        else
          let (values, left) ← readParts? (some colons) n (if colons then more else rest)
          some (value :: values, left)

def readTime? : Option Nat := do
  let (parts, fraction) ← readParts? none 3 cs
  let micro ← if fraction.isEmpty then some 0 else readFraction? fraction
  microsOf? (parts.getD 0 0) (parts.getD 1 0) (parts.getD 2 0) micro

def dateLength? : Option Nat :=
  let n := cs.length
  if n < 7 then none
  else if n == 7 then some 7
  else if cs[4]? == some '-' then
    if cs[5]? == some 'W' then
      if 8 < n && cs[8]? == some '-' then
        if n == 9 then none
        else if 10 < n && (cs[10]?).any isAsciiDigit then some 8
        else some 10
      else some 8
    else some 10
  else if cs[4]? == some 'W' then
    let last := 7 + ((cs.drop 7).takeWhile isAsciiDigit).length
    if last < 9 then some last else if last % 2 == 0 then some 7 else some 8
  else some 8

/-- The moment that a text names. Texts with a zone name no such moment. -/
def read? (s : String) : Option Moment := do
  let cs := s.toList
  let length ← dateLength? cs
  let day ← Date.readNumber? (cs.take length)
  let rest := cs.drop length
  let micros ← match rest with
    | [] => some 0
    | _ :: time =>
      if time.any fun c => c == '+' || c == '-' || c == 'Z' then none else readTime? time
  some { day, micros }

def daysSince (now before : Moment) : Int :=
  let days : Int := (now.day : Int) - before.day
  if now.micros < before.micros then days - 1 else days

variable (m : Moment)

def dateText : String := (Date.ofNumber m.day).text

def minuteText : String :=
  let minutes := m.micros / 60000000
  zeroPadded 2 (minutes / 60 : Nat) ++ ":" ++ zeroPadded 2 (minutes % 60 : Nat)

def secondText : String :=
  m.minuteText ++ ":" ++ zeroPadded 2 (m.micros / 1000000 % 60 : Nat)

def localText : String :=
  let micros := m.micros % 1000000
  let fraction := if micros == 0 then "" else "." ++ zeroPadded 6 (micros : Int)
  m.dateText ++ "T" ++ m.secondText ++ fraction

def standardText : String := m.localText ++ "+00:00"

def ofEpoch (seconds : Nat) : Moment :=
  { day := Date.number { year := 1970, month := 1, day := 1 } + seconds / 86400
    micros := seconds % 86400 * 1000000 }

end Moment

end CodeAudit

import CodeAudit.Text.Tables

/-!
# Upper and lower case

A character has a one-character image, given by ASCII rules or by a run of a case table, except where the tables list
several characters. The Greek capital sigma is the one letter whose lower case looks at its neighbours: at the end of a
word it takes its final form.
-/

namespace CodeAudit.Text

/-! ## Classes of characters

Which characters count as blank, line break, part of a word or name, digit and printable. ASCII is decided by
comparison, so every class reduces on ASCII text without a look at a table; above ASCII the class is the table of
`CodeAudit.Text.Tables`. -/

/-! ### Reading the tables -/

variable (c : Char) (s : String)

def hexDigit? : Option Nat :=
  if '0' ≤ c ∧ c ≤ '9' then some (c.toNat - '0'.toNat)
  else if 'a' ≤ c ∧ c ≤ 'f' then some (c.toNat - 'a'.toNat + 10)
  else if 'A' ≤ c ∧ c ≤ 'F' then some (c.toNat - 'A'.toNat + 10)
  else none

/-- The number written in hexadecimal digits; anything else counts as the digit zero. -/
def hexNumber (cs : List Char) : Nat :=
  cs.foldl (fun n c => n * 16 + (hexDigit? c).getD 0) 0

def readRangesFrom (last : Nat) : List Nat → List (Nat × Nat)
  | gap :: more :: rest => (last + gap, last + gap + more) :: readRangesFrom (last + gap + more) rest
  | _ => []

def readRanges (table : List Nat) : Array (Nat × Nat) := (readRangesFrom 0 table).toArray

/-- Search by halving in ascending ranges; `fuel` bounds the number of halvings. -/
def inRangesFrom (ranges : Array (Nat × Nat)) (n : Nat) : Nat → Nat → Nat → Bool
  | 0, _, _ => false
  | fuel + 1, low, high =>
    if low < high then
      let mid := (low + high) / 2
      match ranges[mid]? with
      | none => false
      | some (a, b) =>
        if n < a then inRangesFrom ranges n fuel low mid
        else if b < n then inRangesFrom ranges n fuel (mid + 1) high
        else true
    else false

def inRanges (ranges : Array (Nat × Nat)) (n : Nat) : Bool :=
  inRangesFrom ranges n 24 0 ranges.size

def letterRanges : Array (Nat × Nat) := readRanges letterTable

def digitZeros : List Nat :=
  digitZeroTable.foldl (fun found gap => found ++ [found.getLastD 0 + gap]) []

def hiddenRanges : Array (Nat × Nat) := readRanges hiddenTable

def nameStartRanges : Array (Nat × Nat) := readRanges nameStartTable

def nameContinueRanges : Array (Nat × Nat) := readRanges nameContinueTable

/-! ### The classes -/

def isAscii : Bool := c.toNat < 128

def isAsciiLetter : Bool := ('a' ≤ c ∧ c ≤ 'z') ∨ ('A' ≤ c ∧ c ≤ 'Z')

def isAsciiDigit : Bool := '0' ≤ c ∧ c ≤ '9'

/-- Blank characters: tab to carriage return, the four information separators, space, next line,
no-break space and the spaces and separators of other scripts. -/
def isBlank : Bool :=
  let n := c.toNat
  (9 ≤ n && n ≤ 13) || (28 ≤ n && n ≤ 32) || n == 0x85 || n == 0xA0 || n == 0x1680 ||
    (0x2000 ≤ n && n ≤ 0x200A) || n == 0x2028 || n == 0x2029 || n == 0x202F || n == 0x205F ||
    n == 0x3000

def isLineBreak : Bool :=
  let n := c.toNat
  (10 ≤ n && n ≤ 13) || (28 ≤ n && n ≤ 30) || n == 0x85 || n == 0x2028 || n == 0x2029

def isLetterOrNumber : Bool :=
  if isAscii c then isAsciiLetter c || isAsciiDigit c else inRanges letterRanges c.toNat

def isWord : Bool := isLetterOrNumber c || c == '_'

def digitValue? : Option Nat :=
  if isAscii c then (if isAsciiDigit c then some (c.toNat - '0'.toNat) else none)
  else (digitZeros.find? fun z => z ≤ c.toNat && c.toNat < z + 10).map (c.toNat - ·)

def isDigit : Bool := (digitValue? c).isSome

/-- Characters that quoted text shows as themselves. -/
def isPrintable : Bool :=
  if isAscii c then 32 ≤ c.toNat && c.toNat < 127 else !inRanges hiddenRanges c.toNat

def isNameStart : Bool :=
  if isAscii c then isAsciiLetter c || c == '_' else inRanges nameStartRanges c.toNat

def isNameContinue : Bool :=
  isNameStart c || if isAscii c then isAsciiDigit c else inRanges nameContinueRanges c.toNat

/-! ## Case -/

structure CaseRun where
  first : Nat
  last : Nat
  step : Nat
  up : Bool
  distance : Nat

def readCaseRunsFrom (before : Nat) : List Nat → List CaseRun
  | gap :: more :: step :: way :: rest =>
    let first := before + gap
    { first, last := first + more, step, up := way % 2 == 0, distance := way / 2 } :: readCaseRunsFrom first rest
  | _ => []

def mapByRuns (runs : List CaseRun) (n : Nat) : Nat :=
  match runs.find? fun r => r.first ≤ n && n ≤ r.last && (n - r.first) % r.step == 0 with
  | some r => if r.up then n + r.distance else n - r.distance
  | none => n

def lowerRuns : List CaseRun := readCaseRunsFrom 0 lowerTable

def upperRuns : List CaseRun := readCaseRunsFrom 0 upperTable

def readExpansionsFrom (before : Nat) : (bound : Nat) → List Nat → List (Nat × List Char)
  | bound + 1, gap :: size :: rest =>
    (before + gap, (rest.take size).map Char.ofNat) :: readExpansionsFrom (before + gap) bound (rest.drop size)
  | _, _ => []

def upperExpansions : List (Nat × List Char) :=
  readExpansionsFrom 0 upperExpansionTable.length upperExpansionTable

def casedRanges : Array (Nat × Nat) := readRanges casedTable

def caseIgnorableRanges : Array (Nat × Nat) := readRanges caseIgnorableTable

def isCased : Bool :=
  if isAscii c then isAsciiLetter c else inRanges casedRanges c.toNat

/-- Characters that do not end a word: marks and a few signs. -/
def isCaseIgnorable : Bool :=
  if isAscii c then c == '\'' || c == '.' || c == ':' || c == '^' || c == '\x60'
  else inRanges caseIgnorableRanges c.toNat

def lowerChar : Char :=
  if isAscii c then (if 'A' ≤ c ∧ c ≤ 'Z' then Char.ofNat (c.toNat + 32) else c)
  else Char.ofNat (mapByRuns lowerRuns c.toNat)

def upperChar : Char :=
  if isAscii c then (if 'a' ≤ c ∧ c ≤ 'z' then Char.ofNat (c.toNat - 32) else c)
  else Char.ofNat (mapByRuns upperRuns c.toNat)

/-- A word continues to the next cased letter, skipping characters that do not end it. -/
def reachesCased (cs : List Char) : Bool :=
  match cs.dropWhile isCaseIgnorable with
  | [] => false
  | c :: _ => isCased c

/-- Lower case of a text; `before` is what precedes it, last character first. -/
def lowerFrom (before : List Char) : List Char → List Char
  | [] => []
  | c :: cs =>
    let image :=
      if c.toNat == 0x130 then ['i', Char.ofNat 0x307]
      else if c.toNat == 0x3A3 then
        [Char.ofNat (if reachesCased before && !reachesCased cs then 0x3C2 else 0x3C3)]
      else [lowerChar c]
    image ++ lowerFrom (c :: before) cs

def lower : String := String.ofList (lowerFrom [] s.toList)

def upperImage : List Char :=
  if isAscii c then [upperChar c]
  else match upperExpansions.find? (·.1 == c.toNat) with
    | some (_, image) => image
    | none => [upperChar c]

def upper : String := String.ofList (s.toList.flatMap upperImage)

/-- The first letter in upper case, the rest in lower case; used on ASCII words only. -/
def capitalize : String :=
  match s.toList with
  | [] => ""
  | c :: cs => String.ofList (upperChar c :: cs.map lowerChar)

end CodeAudit.Text

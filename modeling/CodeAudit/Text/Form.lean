import Std.Data.HashMap
import CodeAudit.Text.Case

/-!
# One form for each name

Letters come in several forms: wide, narrow, raised, in the styles of mathematics, in one piece or with their marks
after them. The common form takes every character apart, puts the marks after each letter in the order of their
classes, and joins letters and marks again. Texts that differ in form only have the same one.
-/

namespace CodeAudit.Text

/-! ## Tables of compatibility forms

For characters that can stand in a name: what each is made of, the class of marks, and which pairs make one character.
Korean syllables follow a rule. The tables are in ascending order and follow version 14 of the Unicode character
database. -/

def byThrees : List Nat → List (Nat × Nat × Nat)
  | a :: b :: c :: rest => (a, b, c) :: byThrees rest
  | _ => []

def readRunsFrom (last : Nat) : List (Nat × Nat × Nat) → List (Nat × Nat × Nat)
  | (gap, more, n) :: rest => (last + gap, last + gap + more, n) :: readRunsFrom (last + gap + more) rest
  | [] => []

/-! ### Parts -/

/-- Numbers by their distances from others, one by one, and from the last of these where they are more: twice the
distance, and one less where it is downwards. -/
def movedFrom (near : Nat) : List Nat → List Nat → List Nat
  | others, d :: distances =>
    let near := others.headD near
    (if d % 2 == 0 then near + d / 2 else near - (d + 1) / 2) :: movedFrom near others.tail distances
  | _, [] => []

/-- Characters with their parts, after the character `last` with the parts `before`. The first number of an entry gives
the distance to it and, as its remainder by four, the number of parts; a remainder of three says that the next number
counts those beyond the fourth. The parts follow by their distances. -/
def readPartsFrom (last : Nat) (before : List Nat) : (bound : Nat) → List Nat → List (Nat × List Nat)
  | bound + 1, head :: numbers =>
    let n := last + head / 4 + 1
    let size := if head % 4 == 3 then numbers.headD 0 + 4 else head % 4 + 1
    let numbers := if head % 4 == 3 then numbers.tail else numbers
    let parts := movedFrom 0 before (numbers.take size)
    (n, parts) :: readPartsFrom n parts bound (numbers.drop size)
  | _, _ => []

def partNumbers : List Nat := tables.getD 10 []

/-- What characters are made of, down to the last part. -/
def partsTable : List (Nat × List Nat) :=
  readPartsFrom 0 [] partNumbers.length partNumbers

/-! ### Runs -/

def shiftNumbers : List Nat := tables.getD 11 []

/-- Characters that stand for others in a row: the first, the last, and what the first stands for. -/
def shiftTable : List (Nat × Nat × Nat) :=
  readRunsFrom 0 (byThrees shiftNumbers)

def markNumbers : List Nat := tables.getD 12 []

/-- Marks and their classes: the first, the last, and the class of all between them. -/
def markTable : List (Nat × Nat × Nat) := readRunsFrom 0 (byThrees markNumbers)

/-! ### Pairs -/

def joinedNumbers : List Nat := tables.getD 13 []

/-- Where the characters with parts are that the last part makes with what the others make. -/
def joinedRanges : Array (Nat × Nat) := readRanges joinedNumbers

def joinedParts : List (Nat × List Nat) := partsTable.filter fun (n, _) => inRanges joinedRanges n

def wholeOf : List Nat → Nat
  | [n] => n
  | parts => ((joinedParts.find? (·.2 == parts)).map (·.1)).getD 0

def signNumbers : List Nat := tables.getD 14 []

def signPairs : List (Nat × Nat × Nat) := byThrees signNumbers

def pairTable : List (Nat × Nat × Nat) :=
  signPairs ++ joinedParts.map fun (n, parts) => (wholeOf parts.dropLast, parts.getLastD 0, n)

/-! ## Taking apart -/

structure FormRun where
  first : Nat
  last : Nat
  image : List Nat

def partRuns : Array FormRun :=
  (partsTable.map fun (n, image) => { first := n, last := n, image }).toArray

def readRuns (table : List (Nat × Nat × Nat)) : Array FormRun :=
  (table.map fun (first, last, n) => { first, last, image := [n] }).toArray

def shiftRuns : Array FormRun := readRuns shiftTable

def formRunFrom? (runs : Array FormRun) (n : Nat) : Nat → Nat → Nat → Option FormRun
  | 0, _, _ => none
  | fuel + 1, low, high =>
    if low < high then
      let mid := (low + high) / 2
      match runs[mid]? with
      | none => none
      | some run =>
        if n < run.first then formRunFrom? runs n fuel low mid
        else if run.last < n then formRunFrom? runs n fuel (mid + 1) high
        else some run
    else none

def formRun? (runs : Array FormRun) (n : Nat) : Option FormRun := formRunFrom? runs n 24 0 runs.size

/-- The first syllable of the Korean script, and the first of its leading, middle and closing letters. -/
def syllableBase : Nat := 0xAC00

def leadBase : Nat := 0x1100

def vowelBase : Nat := 0x1161

def tailBase : Nat := 0x11A7

def leadCount : Nat := 19

def vowelCount : Nat := 21

def tailCount : Nat := 28

def syllableCount : Nat := leadCount * vowelCount * tailCount

def syllableParts (n : Nat) : List Nat :=
  let i := n - syllableBase
  let tail := i % tailCount
  [leadBase + i / (vowelCount * tailCount), vowelBase + i % (vowelCount * tailCount) / tailCount]
    ++ (if tail == 0 then [] else [tailBase + tail])

def formParts (n : Nat) : List Nat :=
  if n < 128 then [n]
  else if syllableBase ≤ n && n < syllableBase + syllableCount then syllableParts n
  else match formRun? shiftRuns n, formRun? partRuns n with
    | some run, _ => [run.image.headD 0 + (n - run.first)]
    | none, some run => run.image
    | none, none => [n]

/-! ## Marks in order -/

def markRuns : Array FormRun := readRuns markTable

def markClass (n : Nat) : Nat :=
  if n < 0x300 then 0
  else match formRun? markRuns n with
    | some run => run.image.headD 0
    | none => 0

/-- Puts a mark after the marks of its class and the lower ones; `marks` has the last one first. -/
def placeMark (mark : Nat) : List Nat → List Nat
  | [] => [mark]
  | m :: rest => if markClass mark < markClass m then m :: placeMark mark rest else mark :: m :: rest

/-- The marks between two other characters in the order of their classes; `marks` are those since the
last other character, the last one first. -/
def orderMarks (marks : List Nat) : List Nat → List Nat
  | [] => marks.reverse
  | n :: rest =>
    if markClass n == 0 then marks.reverse ++ n :: orderMarks [] rest
    else orderMarks (placeMark n marks) rest

/-! ## Joining -/

def formPairs : Std.HashMap (Nat × Nat) Nat :=
  pairTable.foldl (fun found (a, b, whole) => found.insert (a, b) whole) {}

def joined? (a b : Nat) : Option Nat :=
  if leadBase ≤ a && a < leadBase + leadCount && vowelBase ≤ b && b < vowelBase + vowelCount then
    some (syllableBase + ((a - leadBase) * vowelCount + (b - vowelBase)) * tailCount)
  else if syllableBase ≤ a && a < syllableBase + syllableCount && (a - syllableBase) % tailCount == 0
      && tailBase < b && b < tailBase + tailCount then
    some (a + (b - tailBase))
  else formPairs[(a, b)]?

/-- Joins what can be joined. `starter` is the last character of class zero with the marks not joined to it, the last
one first: a mark of the class of the last of them, or a lower one, is kept apart from the starter. -/
def joinParts : Option (Nat × List Nat) → List Nat → List Nat
  | none, [] => []
  | some (starter, kept), [] => starter :: kept.reverse
  | none, n :: rest => if markClass n == 0 then joinParts (some (n, [])) rest else n :: joinParts none rest
  | some (starter, kept), n :: rest =>
    let isNear := match kept with
      | [] => true
      | last :: _ => markClass last < markClass n
    match if isNear then joined? starter n else none with
    | some whole => joinParts (some (whole, kept)) rest
    | none =>
      if markClass n == 0 then starter :: kept.reverse ++ joinParts (some (n, [])) rest
      else joinParts (some (starter, n :: kept)) rest

def commonForm (s : String) : String :=
  let cs := s.toList
  if cs.all isAscii then s
  else
    let parts := cs.flatMap fun c => formParts c.toNat
    String.ofList ((joinParts none (orderMarks [] parts)).map Char.ofNat)

end CodeAudit.Text

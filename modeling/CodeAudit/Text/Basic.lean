import CodeAudit.Text.Case

/-!
# Cutting and searching text

What scanners and reports share: trimming, cutting into lines and fields, searching and replacing. Each is a recursion
on the list of characters, so that offsets and cuts count code points; the functions on `String` only convert.
-/

namespace CodeAudit.Chars

variable (p : Char → Bool) (cs : List Char)

def trimEnd : List Char :=
  (cs.reverse.dropWhile p).reverse

def trim : List Char :=
  trimEnd p (cs.dropWhile p)

def occurs (needle : List Char) : List Char → Bool
  | [] => needle.isEmpty
  | c :: cs => needle.isPrefixOf (c :: cs) || occurs needle cs

def cutAt? (needle : List Char) : List Char → Option (List Char × List Char)
  | [] => if needle.isEmpty then some ([], []) else none
  | c :: cs =>
    if needle.isPrefixOf (c :: cs) then some ([], (c :: cs).drop needle.length)
    else (cutAt? needle cs).map fun (before, after) => (c :: before, after)

def fieldsAt (sep : Char) : List Char → List (List Char)
  | [] => [[]]
  | c :: cs =>
    if c == sep then [] :: fieldsAt sep cs
    else match fieldsAt sep cs with
      | [] => [[c]]
      | field :: fields => (c :: field) :: fields

/-- Every occurrence of `old`, from the left and without overlap, replaced by `new`. `skip` counts
the characters of an occurrence that are still to be passed over. -/
def replaceFrom (old new : List Char) : Nat → List Char → List Char
  | _, [] => []
  | skip + 1, _ :: cs => replaceFrom old new skip cs
  | 0, c :: cs =>
    if old.isPrefixOf (c :: cs) then new ++ replaceFrom old new (old.length - 1) cs
    else c :: replaceFrom old new 0 cs

def replaceAll (old new cs : List Char) : List Char := replaceFrom old new 0 cs

/-- The lines of a text, each with its own end `"\n"`; the last may lack it. -/
def keptLines : List Char → List (List Char)
  | [] => []
  | c :: cs =>
    if c == '\n' then ['\n'] :: keptLines cs
    else match keptLines cs with
      | [] => [[c]]
      | line :: lines => (c :: line) :: lines

/-- The lines of a text without their ends; `current` is the line so far, last character first. -/
def brokenLinesFrom (current : List Char) : List Char → List (List Char)
  | [] => if current.isEmpty then [] else [current.reverse]
  | '\r' :: '\n' :: cs => current.reverse :: brokenLinesFrom [] cs
  | c :: cs =>
    if Text.isLineBreak c then current.reverse :: brokenLinesFrom [] cs
    else brokenLinesFrom (c :: current) cs

/-- The lines of a text without their ends, where every line-breaking character ends a line and a
carriage return with the line feed after it counts as one end. -/
def brokenLines : List (List Char) := brokenLinesFrom [] cs

def piecesBy : List (List Char) :=
  let step := fun (c : Char) (acc : List Char × List (List Char)) =>
    if p c then ([], acc.1 :: acc.2) else (c :: acc.1, acc.2)
  let (first, others) := cs.foldr step ([], [])
  first :: others

def words : List (List Char) :=
  (piecesBy Text.isBlank cs).filter (!·.isEmpty)

end CodeAudit.Chars

namespace CodeAudit.Text

def strip (s : String) : String := String.ofList (Chars.trim isBlank s.toList)

def stripStartOf (set : String) (s : String) : String :=
  String.ofList (s.toList.dropWhile (set.toList.contains ·))

def stripEndOf (set : String) (s : String) : String :=
  String.ofList (Chars.trimEnd (set.toList.contains ·) s.toList)

variable (s part : String)

def contains : Bool := Chars.occurs part.toList s.toList

def startsWith : Bool := part.toList.isPrefixOf s.toList

def endsWith : Bool := part.toList.isSuffixOf s.toList

def replaceAll (s old new : String) : String :=
  String.ofList (Chars.replaceAll old.toList new.toList s.toList)

def fields (sep : Char) (s : String) : List String := (Chars.fieldsAt sep s.toList).map String.ofList

def join (sep : String) (parts : List String) : String := sep.intercalate parts

def take (n : Nat) (s : String) : String := String.ofList (s.toList.take n)

def drop (n : Nat) (s : String) : String := String.ofList (s.toList.drop n)

def padEnd (width : Nat) (s : String) : String :=
  s ++ String.ofList (List.replicate (width - s.length) ' ')

def sorted (xs : List String) : List String := xs.mergeSort (· ≤ ·)

def sortedSet (xs : List String) : List String := sorted xs.eraseDups

/-- A number in decimal digits, with zeros in front up to `width` characters, the sign included. -/
def zeroPadded (width : Nat) (n : Int) : String :=
  let digits := toString n.natAbs
  let sign := if n < 0 then "-" else ""
  sign ++ String.ofList (List.replicate (width - sign.length - digits.length) '0') ++ digits

end CodeAudit.Text

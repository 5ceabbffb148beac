import CodeAudit.Text.Basic
import CodeAudit.Text.NameTable
import CodeAudit.Text.Form
import Std.Data.HashSet

/-!
# Names of characters

Ideographs and Korean syllables are named by rule, in version 14 of the Unicode character database. Of other names only
the first word is known, and every text that goes on after it in signs of names is taken for one, but for those that
start with `NO` and `NOT` and for Latin letters with marks. A name may be written in either case; one that follows the
rule for ideographs or syllables only in capitals.
-/

namespace CodeAudit.Text

/-! ## Words -/

def signs : Array Char := " -0123456789ABCDEFGHIJKLMNOPQRSTUVWXYZ".toList.toArray

/-- The words of a table: a number is a sign of the word, or from 38 on the next word starts with as many signs of the
one before as it is greater. -/
def readWords (numbers : List Nat) : Std.HashSet String :=
  let step := fun ((words, word) : Std.HashSet String × List Char) (n : Nat) =>
    if n < 38 then (words, word ++ [signs.getD n ' ']) else (words.insert (String.ofList word), word.take (n - 38))
  let (words, last) := numbers.foldl step ({}, [])
  words.insert (String.ofList last)

def isListed (name : List Char) : Bool := (readWords (digitsOf 10120 nameTable)).contains (String.ofList name)

/-- Marks that are joined with letters. -/
def letterMarks : List (String × Nat) :=
  [("GRAVE", 0x300), ("ACUTE", 0x301), ("CIRCUMFLEX", 0x302), ("TILDE", 0x303), ("MACRON", 0x304), ("BREVE", 0x306),
   ("DOT ABOVE", 0x307), ("DIAERESIS", 0x308), ("HOOK ABOVE", 0x309), ("RING ABOVE", 0x30A), ("DOUBLE ACUTE", 0x30B),
   ("CARON", 0x30C), ("DOUBLE GRAVE", 0x30F), ("INVERTED BREVE", 0x311), ("HORN", 0x31B), ("DOT BELOW", 0x323),
   ("DIAERESIS BELOW", 0x324), ("RING BELOW", 0x325), ("COMMA BELOW", 0x326), ("CEDILLA", 0x327), ("OGONEK", 0x328),
   ("CIRCUMFLEX BELOW", 0x32D), ("BREVE BELOW", 0x32E), ("TILDE BELOW", 0x330), ("LINE BELOW", 0x331)]

/-- A Latin letter has these marks only if there is a character for both. -/
def mayBeLetter (name : String) : Bool :=
  match fields ' ' name with
  | "LATIN" :: size :: "LETTER" :: letter :: "WITH" :: marks =>
    match (fields '&' (replaceAll (join " " marks) " AND " "&")).mapM (List.lookup · letterMarks) with
    | some marks =>
      let letter := if size == "SMALL" then lower letter else letter
      letter.length != 1 || (commonForm (marks.foldl (fun s n => s.push (Char.ofNat n)) letter)).length == 1
    | none => true
  | _ => true

/-- Whether a text starts with a word that others follow and goes on in signs of names. -/
def isOfFamily (name : List Char) : Bool :=
  let first := name.takeWhile (· != ' ')
  first.length + 1 < name.length && isListed (first ++ [' ']) && name.all signs.contains &&
    mayBeLetter (String.ofList name)

def asciiCapital (c : Char) : Char := if 'a' ≤ c && c ≤ 'z' then Char.ofNat (c.toNat - 32) else c

/-! ## Names by rule -/

def unifiedRanges : List (Nat × Nat) :=
  [(0x3400, 0x4DBF), (0x4E00, 0x9FFF), (0x20000, 0x2A6DF), (0x2A700, 0x2B738), (0x2B740, 0x2B81D),
   (0x2B820, 0x2CEA1), (0x2CEB0, 0x2EBE0), (0x30000, 0x3134A)]

def numberedRanges : List (String × Nat × Nat) :=
  [("CJK COMPATIBILITY IDEOGRAPH-", 0xF900, 0xFA6D), ("CJK COMPATIBILITY IDEOGRAPH-", 0xFA70, 0xFAD9),
   ("CJK COMPATIBILITY IDEOGRAPH-", 0x2F800, 0x2FA1D), ("KHITAN SMALL SCRIPT CHARACTER-", 0x18B00, 0x18CD5),
   ("NUSHU CHARACTER-", 0x1B170, 0x1B2FB)]

variable (cs : List Char)

def nameNumber? : Option Nat :=
  if (cs.length == 4 || cs.length == 5) && cs.all fun c => isAsciiDigit c || ('A' ≤ c && c ≤ 'F') then
    some (hexNumber cs)
  else none

def nameAfter? (word : String) (cs : List Char) : Option (List Char) :=
  if word.toList.isPrefixOf cs then some (cs.drop word.length) else none

def isNumbered : Bool :=
  numberedRanges.any fun (word, first, last) =>
    match (nameAfter? word cs).bind nameNumber? with
    | some n => first ≤ n && n ≤ last && cs.length == word.length + (Nat.toDigits 16 n).length
    | none => false

/-- The names of the leading, middle and closing letters of Korean syllables. -/
def syllableLetters : List (List String) :=
  [["G", "GG", "N", "D", "DD", "R", "M", "B", "BB", "S", "SS", "", "J", "JJ", "C", "K", "T", "P", "H"],
   ["A", "AE", "YA", "YAE", "EO", "E", "YEO", "YE", "O", "WA", "WAE", "OE", "YO", "U", "WEO", "WE", "WI", "YU",
    "EU", "YI", "I"],
   ["", "G", "GG", "GS", "N", "NJ", "NH", "D", "L", "LG", "LM", "LB", "LS", "LT", "LP", "LH", "M", "B", "BS", "S",
    "SS", "NG", "J", "C", "K", "T", "P", "H"]]

/-- What is left after the longest of the letters with which a text starts; none where there is none. -/
def afterLetter? (letters : List String) (cs : List Char) : Option (List Char) :=
  let fitting := letters.filter fun l => l.toList.isPrefixOf cs
  if fitting.isEmpty then none
  else some (cs.drop (fitting.foldl (fun n l => max n l.length) 0))

/-- Whether a text names a syllable: a leading, a middle and a closing letter. -/
def isSyllable : Bool :=
  (syllableLetters.foldlM (fun rest letters => afterLetter? letters rest) cs).any List.isEmpty

def isCharacterName : Bool :=
  match nameAfter? "HANGUL SYLLABLE " cs, nameAfter? "CJK UNIFIED IDEOGRAPH-" cs with
  | some syllable, _ => isSyllable syllable
  | none, some digits =>
    (nameNumber? digits).any fun n => unifiedRanges.any fun (first, last) => first ≤ n && n ≤ last
  | none, none =>
    let name := cs.map asciiCapital
    isListed name && name.getLast? != some ' ' || isNumbered name || isOfFamily name

end CodeAudit.Text

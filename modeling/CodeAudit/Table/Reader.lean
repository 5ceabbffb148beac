import CodeAudit.Decimal.Reader
import CodeAudit.Table.Column
import CodeAudit.Files.Tree
import CodeAudit.Table.Csv
import CodeAudit.Value.Display

/-!
# Reading tables

Blank lines do not count; the first line that does names the columns. The kind of a column is guessed from its fields:
whole numbers that fit a machine word, doubles, truth values or else text, with some words that stand for a gap. The
guess goes from top to bottom, and a whole number that is too large ends it in favour of text.
-/

/-! ## Archives

A table file whose name ends like that of an archive is unpacked first. Such a file is never an archive here, so that
unpacking fails, in a way that depends on the kind; for one kind there are no means to unpack it. -/

namespace CodeAudit.Archive

def endings : List (String × ArchiveKind) :=
  [(".tar", .tar), (".tar.gz", .tar), (".tar.bz2", .tar), (".tar.xz", .tar), (".gz", .gzip),
   (".bz2", .bzip2), (".zip", .zip), (".xz", .xz), (".zst", .zstandard)]

def kind? (path : String) : Option ArchiveKind :=
  (endings.find? fun entry => Text.endsWith (Text.lower path) entry.1).map (·.2)

/-- The text of a file that is no archive, or the fault of unpacking it. An empty file is not always
refused for what it is. -/
def plainText (files : FileTree) (path : String) : Except Fault String :=
  match kind? path with
  | none => files.rawText .refuse path
  | some .zstandard => .error (.notArchive .zstandard)
  | some kind => do
    let isEmpty := (← files.content path) == .text ""
    match kind with
    | .gzip => if isEmpty then return "" else throw (.notArchive .gzip)
    | .bzip2 | .xz => if isEmpty then throw .cutShort else throw (.notArchive kind)
    | _ => throw (.notArchive kind)

end CodeAudit.Archive

namespace CodeAudit.Table

/-! ## Fields -/

variable (cs : List Char)

def fieldText : String := String.ofList (cs.takeWhile (· != '\x00'))

def fieldsOf? (text : String) : Option (List (List String)) :=
  let cs := match text.toList with
    | '\ufeff' :: rest => rest
    | cs => cs
  (Csv.readFrom true .recordStart [] [] cs).map (·.map (·.map fieldText))

/-! ## Names -/

/-- The names given so far, with how often each has been asked for, and a name that is not among them: one that has been
given gets a number, and numbers that make a name of the header are passed over. -/
def freshName (header : List String) (asked : List (String × Nat)) (name : String) :
    Nat → Nat → List (String × Nat) × String × Nat
  | 0, count => (asked, name, count)
  | fuel + 1, count =>
    let asked := (name, count + 1) :: asked.filter (·.1 != name)
    let numbered := s!"{name}.{count}"
    if header.contains numbered then freshName header asked name fuel (count + 1)
    else match asked.lookup numbered with
      | some again => if again == 0 then (asked, numbered, 0) else freshName header asked name fuel again
      | none => (asked, numbered, 0)

/-- One name after another is made different from those before. -/
def distinctFrom (header : Array String) (asked : List (String × Nat)) : List Nat → Array String
  | [] => header
  | i :: rest =>
    let name := header[i]?.getD ""
    let count := (asked.lookup name).getD 0
    if count == 0 then distinctFrom header ((name, 1) :: asked.filter (·.1 != name)) rest
    else
      let (asked, fresh, count) := freshName header.toList asked name (header.size + count + 1) count
      distinctFrom (header.setIfInBounds i fresh)
        ((fresh, count + 1) :: asked.filter (·.1 != fresh)) rest

/-- Column names made different. A missing name says its place, and given names come first. -/
def distinctNames (names : List String) : List String :=
  let named := names.zipIdx.map fun entry => if entry.1.isEmpty then s!"Unnamed: {entry.2}" else entry.1
  let places := names.zipIdx.map fun entry => (entry.1.isEmpty, entry.2)
  let order := (places.filter fun p => !p.1) ++ (places.filter (·.1))
  (distinctFrom named.toArray [] (order.map (·.2))).toList

/-! ## Fields of a kind -/

def gapWords : List String :=
  ["", "#N/A", "#N/A N/A", "#NA", "-1.#IND", "-1.#QNAN", "-NaN", "-nan", "1.#IND", "1.#QNAN", "<NA>",
   "N/A", "NA", "NULL", "NaN", "None", "n/a", "nan", "null"]

def isPadding (c : Char) : Bool := c == ' ' || (9 ≤ c.toNat && c.toNat ≤ 13)

inductive Numeral where
  | whole (n : Int)
  | tooLarge
  | none

/-- The whole number in a field, within bounds on its size. The bounds count before what follows the
digits. -/
def numeral (low high : Int) (s : String) : Numeral :=
  let (negative, cs) := Decimal.sign (s.toList.dropWhile isPadding)
  let digits := cs.takeWhile Text.isAsciiDigit
  let size : Int := digits.foldl (fun (n : Int) c => if 2 ^ 70 < n then n else n * 10 + (c.toNat - 48 : Nat)) 0
  let n := if negative then -size else size
  if digits.isEmpty then .none
  else if n < low || high < n then .tooLarge
  else if ((cs.drop digits.length).dropWhile isPadding).isEmpty then .whole n
  else .none

inductive Try where
  | column (c : Column)
  | unfit
  | text (gaps : Bool)

/-- The numerals of a column, gaps apart; reading ends at the first that is none or too large. -/
def numerals (low high : Int) : List String → Except Numeral (List (Option Int))
  | [] => .ok []
  | s :: rest =>
    if gapWords.contains s then (numerals low high rest).map (none :: ·)
    else match numeral low high s with
      | .whole n => (numerals low high rest).map (some n :: ·)
      | other => .error other

/-- The unsigned numerals of a column; what starts with a minus sign counts as one without being read. -/
def unsignedNumerals : List String → Except Numeral (List (Option Int))
  | [] => .ok []
  | s :: rest =>
    if gapWords.contains s then (unsignedNumerals rest).map (none :: ·)
    else if (s.toList.dropWhile isPadding).head? == some '-' then (unsignedNumerals rest).map (some (-1) :: ·)
    else match numeral 0 (2 ^ 64 - 1) s with
      | .whole n => (unsignedNumerals rest).map (some n :: ·)
      | other => .error other

variable (fields : List String) (s : String)

def tryUnsigned : Try :=
  match unsignedNumerals fields with
  | .error .tooLarge => .text true
  | .error _ => .unfit
  | .ok cells =>
    let negative := cells.any fun c => c == some (-1)
    let large := cells.any fun c => c.any fun n => 2 ^ 63 ≤ n
    if large && (negative || cells.contains none) then .text false
    else if negative then .text true
    else .column (.whole (cells.map (·.getD 0)))

/-- The double for a whole number in a column with gaps; the least one stands for a gap there. -/
def besideGaps (n : Int) : Float :=
  let x := Decimal.ofInt n
  if x == Decimal.ofInt (-(2 ^ 63)) then Decimal.gap else x

/-- A column of whole numbers; with gaps between them they are doubles. -/
def tryWhole : Try :=
  match numerals (-(2 ^ 63)) (2 ^ 63 - 1) fields with
  | .error .tooLarge => tryUnsigned fields
  | .error _ => .unfit
  | .ok cells =>
    if cells.contains none then .column (.real (cells.map fun c => (c.map besideGaps).getD Decimal.gap))
    else .column (.whole (cells.map (·.getD 0)))

def mostSignificant : Nat := 17

def leadingDouble (digits : List Char) : Float × Nat :=
  let counted := digits.take mostSignificant
  (counted.foldl (fun x c => x * 10.0 + Decimal.ofInt (c.toNat - 48 : Nat)) 0.0, counted.length)

/-- A number times a power of ten; none beyond the range of doubles. -/
def scaledDouble? (x : Float) (exponent : Int) : Option Float :=
  let power := fun (e : Int) => Decimal.ofScientific 1 e
  if 308 < exponent then none
  else
    let y := if 0 < exponent then x * power exponent
      else if exponent < -308 then x / power (-308 - exponent) / power 308
      else x / power (-exponent)
    if y.isInf then none else some y

/-- The power of ten after the mark of an exponent, with the rest; without digits there is no exponent. -/
def exponentOf : Int × List Char :=
  match cs with
  | mark :: rest =>
    if mark == 'e' || mark == 'E' then
      let (negative, unsigned) := Decimal.sign rest
      let digits := (unsigned.takeWhile Text.isAsciiDigit).take mostSignificant
      let n : Int := digits.foldl (fun (n : Int) c => n * 10 + (c.toNat - 48 : Nat)) 0
      if digits.isEmpty then (0, cs) else (if negative then -n else n, unsigned.drop digits.length)
    else (0, cs)
  | [] => (0, [])

def infinite? : Option Float :=
  let word := s.toList.map Char.toLower
  let large : Float := 1.0 / 0.0
  if ["inf", "+inf", "infinity", "+infinity"].contains (String.ofList word) then some large
  else if ["-inf", "-infinity"].contains (String.ofList word) then some (-large)
  else none

def finite? : Option Float :=
  let (negative, cs) := Decimal.sign (s.toList.dropWhile isPadding)
  let before := cs.takeWhile Text.isAsciiDigit
  let rest := cs.drop before.length
  let (after, rest) := match rest with
    | '.' :: more => (more.takeWhile Text.isAsciiDigit, more.dropWhile Text.isAsciiDigit)
    | _ => ([], rest)
  let (x, count) := leadingDouble (before ++ after)
  let shift : Int := if count ≤ before.length then (before.length - count : Nat) else -((count - before.length : Nat) : Int)
  let (exponent, rest) := exponentOf rest
  if count == 0 || !(rest.dropWhile isPadding).isEmpty then none
  else scaledDouble? (if negative then -x else x) (shift + exponent)

def truth? : Option Bool :=
  let word := String.ofList (s.toList.map Char.toLower)
  if word == "true" then some true else if word == "false" then some false else none

def cellsBy (read : String → Option Value) (fields : List String) : Option (List Value) :=
  fields.mapM fun s => if gapWords.contains s then some (.float Decimal.gap) else read s

def textColumn (gaps : Bool) (fields : List String) : Column :=
  .mixed (fields.map fun s => if gaps && gapWords.contains s then .float Decimal.gap else .str s)

def columnOfFields : Column :=
  match tryWhole fields with
  | .column c => c
  | .text gaps => textColumn gaps fields
  | .unfit =>
    match cellsBy (fun s => ((finite? s).orElse fun _ => infinite? s).map .float) fields with
    | some cells => .real (cells.map Column.cellDouble)
    | none => match cellsBy (fun s => (truth? s).map .bool) fields with
      | some cells => .mixed cells
      | none => textColumn true fields

/-! ## Tables -/

/-- Rows brought to one width. The first row sets it where it is longer than the header; a longer row
further on is a fault. -/
def levelled (header : Nat) (rows : List (List String)) : Except Fault (Nat × List (List String)) :=
  let width := max header ((rows.head?.map List.length).getD 0)
  if rows.any fun r => width < r.length then .error .raggedTable
  else .ok (width, rows.map fun r => r ++ List.replicate (width - r.length) "")

/-- The table that a text describes. Where the rows are longer than the line of names, their first
fields only label them and belong to no column. -/
def read (text : String) : Except Fault Table :=
  match fieldsOf? text with
  | none => .error .raggedTable
  | some [] => .error .emptyTable
  | some (header :: rows) => do
    let (width, rows) ← levelled header.length rows
    let cells := rows.map fun r => (r.drop (width - header.length)).toArray
    return { columns := (distinctNames header).zipIdx.map fun (name, i) =>
               (name, columnOfFields (cells.map fun r => r[i]?.getD ""))
             height := rows.length }

end CodeAudit.Table

/-! ## Tables as text

A table is written as comma-separated values under a line of column names, gaps as empty fields. -/

namespace CodeAudit

def Value.cellText : Value → String
  | .null => ""
  | .float x | .estimate x => if x.isNaN then "" else Decimal.plain x
  | v => v.text

namespace Table

def lines (t : Table) : List String :=
  (t.names :: t.rows.map fun row => row.map Value.cellText).map fun record =>
    Csv.write "\n" [record]

end Table

end CodeAudit

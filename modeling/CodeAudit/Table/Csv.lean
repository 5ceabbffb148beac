import CodeAudit.Text.Basic

/-!
# Comma-separated values

A text is a sequence of records of fields. A field that holds a comma, a quote or a character of the line end is
written between quotes, with its quotes doubled. Reading accepts more: any of the three line ends, quotes inside a
field that does not start with one, and a last field whose closing quote is missing, unless the reader is strict.
-/

namespace CodeAudit.Csv

/-! ## Writing -/

def doubled : List Char → List Char
  | [] => []
  | c :: cs => if c == '"' then '"' :: '"' :: doubled cs else c :: doubled cs

def needsQuotes (lineEnd : List Char) (field : List Char) : Bool :=
  field.any fun c => c == ',' || c == '"' || lineEnd.contains c

def writeField (lineEnd : List Char) (field : List Char) : List Char :=
  if needsQuotes lineEnd field then '"' :: (doubled field ++ ['"']) else field

def writeFields (lineEnd : List Char) : List (List Char) → List Char
  | [] => []
  | [field] => writeField lineEnd field
  | field :: fields => writeField lineEnd field ++ ',' :: writeFields lineEnd fields

/-- A record as it is written, with its line end. A single empty field stands between quotes, so that
its line is not blank. -/
def writeRecord (lineEnd : List Char) (fields : List (List Char)) : List Char :=
  (if fields == [[]] then ['"', '"'] else writeFields lineEnd fields) ++ lineEnd

def write (lineEnd : String) (records : List (List String)) : String :=
  let ending := lineEnd.toList
  String.ofList (records.flatMap fun r => writeRecord ending (r.map String.toList))

/-! ## Reading -/

inductive Place where
  | recordStart
  | afterReturn
  | fieldStart
  /-- Inside a field without quotes, or after the closing quote of a field. -/
  | bare
  | quoted
  /-- After a quote inside quotes: the closing one, or the first of a doubled one. -/
  | afterQuote
  deriving DecidableEq

def Place.isStart (p : Place) : Bool := p == recordStart || p == afterReturn

def isLineEnd (c : Char) : Bool := c == '\n' || c == '\r'

def isGap (c : Char) : Bool := c == ' ' || c == '\t'

/-- The records of a text, where `field` and `row` hold what is read of the present field and record, last first. For a
strict reader quotes that are not closed have no meaning and blank lines do not count; for any other a blank line is a
record without fields. -/
def readFrom (strict : Bool) (place : Place) (field : List Char) (row : List (List Char)) :
    List Char → Option (List (List (List Char)))
  | [] =>
    if place.isStart then some []
    else if strict && place == .quoted then none
    else some [(field.reverse :: row).reverse]
  | c :: cs =>
    if place == .quoted then
      if c == '"' then readFrom strict .afterQuote field row cs else readFrom strict .quoted (c :: field) row cs
    else if isLineEnd c then
      let rest := readFrom strict (if c == '\r' then .afterReturn else .recordStart) [] [] cs
      if !place.isStart then rest.map ((field.reverse :: row).reverse :: ·)
      else if strict || place == .afterReturn && c == '\n' then rest
      else rest.map ([] :: ·)
    else if c == ',' then readFrom strict .fieldStart [] (field.reverse :: row) cs
    else if c == '"' && place == .afterQuote then readFrom strict .quoted (c :: field) row cs
    else if c == '"' && field.isEmpty then readFrom strict .quoted [] row cs
    else
      -- whether a line is blank is not yet known after a gap
      readFrom strict (if strict && place.isStart && isGap c then .recordStart else .bare) (c :: field) row cs

def read (text : String) : List (List String) :=
  ((readFrom false .recordStart [] [] text.toList).getD []).map (·.map String.ofList)

end CodeAudit.Csv

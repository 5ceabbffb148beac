import CodeAudit.Value.Display
import CodeAudit.Decimal.Reader

/-!
# Writing JSON

JSON text in ASCII, with other characters as escapes of UTF-16 units. A `Layout` fixes the separators and whether the
parts of lists and records stand on lines of their own. Sets and scalars of other kinds are written as their text.
-/

namespace CodeAudit.Json

/-! ## Bounds of JSON documents

Lists and records can be nested only so deep, and whole numbers have only so many digits. A document beyond these
bounds is neither read nor written. -/

def deepest : Nat := 988

mutual

def depth : Value → Nat
  | .list items | .tuple items => depthAll items + 1
  | .obj fields => depthFields fields + 1
  | .map entries => depthEntries entries + 1
  | _ => 0

def depthAll : List Value → Nat
  | [] => 0
  | v :: vs => max (depth v) (depthAll vs)

def depthFields : List (String × Value) → Nat
  | [] => 0
  | (_, v) :: rest => max (depth v) (depthFields rest)

def depthEntries : List (Value × Value) → Nat
  | [] => 0
  | (_, v) :: rest => max (depth v) (depthEntries rest)

end

mutual

/-- Whether the whole numbers in a value have no more digits than can be written. -/
def numbersFit : Value → Bool
  | .int n => n.natAbs < 10 ^ Decimal.mostDigits
  | .list items | .tuple items => numbersFitAll items
  | .obj fields => numbersFitFields fields
  | .map entries => numbersFitEntries entries
  | _ => true

def numbersFitAll : List Value → Bool
  | [] => true
  | v :: vs => numbersFit v && numbersFitAll vs

def numbersFitFields : List (String × Value) → Bool
  | [] => true
  | (_, v) :: rest => numbersFit v && numbersFitFields rest

def numbersFitEntries : List (Value × Value) → Bool
  | [] => true
  | (_, v) :: rest => numbersFit v && numbersFitEntries rest

end

/-! ## Layouts and text -/

structure Layout where
  comma : String
  colon : String
  indent : Option Nat

def Layout.line : Layout := { comma := ", ", colon := ": ", indent := none }

def Layout.compact : Layout := { comma := ",", colon := ":", indent := none }

def Layout.pretty : Layout := { comma := ",", colon := ": ", indent := some 2 }

variable (l : Layout) (v : Value)

def Layout.newline (level : Nat) : String :=
  match l.indent with
  | none => ""
  | some width => "\n" ++ String.ofList (List.replicate (width * level) ' ')

def unitEscape (n : Nat) : String := "\\u" ++ Text.hexPadded 4 n

def escapedChar (c : Char) : String :=
  let n := c.toNat
  if c == '"' then "\\\""
  else if c == '\\' then "\\\\"
  else if c == '\n' then "\\n"
  else if c == '\r' then "\\r"
  else if c == '\t' then "\\t"
  else if c == '\x08' then "\\b"
  else if c == '\x0c' then "\\f"
  else if 32 ≤ n && n < 127 then String.singleton c
  else if let some half := Text.surrogate? c then unitEscape half
  else if n < 0x10000 then unitEscape n
  else unitEscape (0xD800 + (n - 0x10000) / 0x400) ++ unitEscape (0xDC00 + (n - 0x10000) % 0x400)

def writeText (s : String) : String :=
  "\"" ++ s.toList.foldl (fun acc c => acc ++ escapedChar c) "" ++ "\""

def numberStyle : Decimal.Style :=
  { Decimal.plainStyle with notANumber := "NaN", infinite := "Infinity" }

def nameText : Value → String
  | .null => "null"
  | .bool b => if b then "true" else "false"
  | .float x => Decimal.write numberStyle x
  | v => v.text

/-- What stands between brackets: parts with commas between them, each on a line of its own where lines are
indented. -/
def Layout.inside (level : Nat) : List String → String
  | [] => ""
  | parts =>
    l.newline (level + 1) ++ Text.join (l.comma ++ l.newline (level + 1)) parts ++ l.newline level

def Layout.field (name value : String) : String := writeText name ++ l.colon ++ value

mutual

def writeAt (l : Layout) (level : Nat) : Value → String
  | .null => "null"
  | .bool b => if b then "true" else "false"
  | .int n => toString n
  | .float x | .estimate x => Decimal.write numberStyle x
  | .str s => writeText s
  | .list items | .tuple items => "[" ++ l.inside level (writeItems l (level + 1) items) ++ "]"
  | .obj fields => "\x7b" ++ l.inside level (writeFields l (level + 1) fields) ++ "\x7d"
  | .map entries => "\x7b" ++ l.inside level (writeEntries l (level + 1) entries) ++ "\x7d"
  | .again inRecord => writeText (Value.again inRecord).text
  | .set items => writeText (Value.set items).text
  | .foreign t q => writeText (Value.foreign t q).text

def writeItems (l : Layout) (level : Nat) : List Value → List String
  | [] => []
  | v :: vs => writeAt l level v :: writeItems l level vs

def writeFields (l : Layout) (level : Nat) : List (String × Value) → List String
  | [] => []
  | (name, v) :: rest => l.field name (writeAt l level v) :: writeFields l level rest

def writeEntries (l : Layout) (level : Nat) : List (Value × Value) → List String
  | [] => []
  | (k, v) :: rest => l.field (nameText k) (writeAt l level v) :: writeEntries l level rest

end

def write : String := writeAt l 0 v

/-- A document in the given layout, refused where it is nested too deep or holds too large a number. -/
def writeWithin : Except Fault String :=
  if deepest < depth v then .error .tooDeep
  else if numbersFit v then .ok (write l v)
  else .error .meaningless

/-- Whether a value can be the name of a field: a scalar that JSON knows. -/
def namesField : Value → Bool
  | .null | .bool _ | .int _ | .float _ | .str _ => true
  | _ => false

mutual

/-- Whether a value has a JSON form of its own: no sets and no scalars of other kinds inside. -/
def expressible : Value → Bool
  | .set _ | .again _ => false
  | .foreign .. => false
  | .list items => expressibleAll items
  | .tuple items => expressibleAll items
  | .obj fields => expressibleFields fields
  | .map entries => expressibleEntries entries
  | _ => true

def expressibleAll : List Value → Bool
  | [] => true
  | v :: vs => expressible v && expressibleAll vs

def expressibleFields : List (String × Value) → Bool
  | [] => true
  | (_, v) :: rest => expressible v && expressibleFields rest

def expressibleEntries : List (Value × Value) → Bool
  | [] => true
  | (k, v) :: rest => namesField k && expressible v && expressibleEntries rest

end

/-- A document in the given layout, refused where some part has no JSON form. -/
def writeStrict : Except Fault String :=
  if expressible v then .ok (write l v) else .error .wrongKind

end CodeAudit.Json

import CodeAudit.Decimal.Shortest
import CodeAudit.Text.Surrogate
import CodeAudit.Value.Basic

/-!
# Values as text

A value inside a message is a text as it stands, everything else in its quoted form. That shows texts between quotes
with escapes for what is not printable, so that a whole finding can be shown on one line.
-/

namespace CodeAudit.Text

def hexPadded (width n : Nat) : String :=
  let digits := Nat.toDigits 16 n
  String.ofList (List.replicate (width - digits.length) '0' ++ digits)

def quotedChar (quote c : Char) : String :=
  if c == quote || c == '\\' then String.ofList ['\\', c]
  else if c == '\n' then "\\n"
  else if c == '\r' then "\\r"
  else if c == '\t' then "\\t"
  else if let some half := surrogate? c then "\\u" ++ hexPadded 4 half
  else if isPrintable c then String.singleton c
  else if c.toNat < 0x100 then "\\x" ++ hexPadded 2 c.toNat
  else if c.toNat < 0x10000 then "\\u" ++ hexPadded 4 c.toNat
  else "\\U" ++ hexPadded 8 c.toNat

/-- A text between quotes: single ones, unless it holds single quotes and no double one. -/
def quoted (s : String) : String :=
  let cs := s.toList
  let quote := if cs.contains '\'' && !cs.contains '"' then '"' else '\''
  let body := cs.foldl (fun acc c => acc ++ quotedChar quote c) ""
  String.singleton quote ++ body ++ String.singleton quote

end CodeAudit.Text

namespace CodeAudit.Value

def boolWord (b : Bool) : String := if b then "True" else "False"

mutual

def quoted : Value → String
  | .null => "None"
  | .bool b => boolWord b
  | .int n => toString n
  | .float x => Decimal.plain x
  | .estimate x => "np.float64(" ++ Decimal.plain x ++ ")"
  | .str s => Text.quoted s
  | .list items => "[" ++ quotedItems items ++ "]"
  | .tuple [] => "()"
  | .tuple [v] => "(" ++ v.quoted ++ ",)"
  | .tuple items => "(" ++ quotedItems items ++ ")"
  | .set [] => "set()"
  | .set items => "\x7b" ++ quotedItems items ++ "\x7d"
  | .obj fields => "\x7b" ++ quotedFields fields ++ "\x7d"
  | .map entries => "\x7b" ++ quotedEntries entries ++ "\x7d"
  | .again inRecord => if inRecord then "\x7b...\x7d" else "[...]"
  | .foreign _ q => q

def quotedItems : List Value → String
  | [] => ""
  | [v] => v.quoted
  | v :: vs => v.quoted ++ ", " ++ quotedItems vs

def quotedFields : List (String × Value) → String
  | [] => ""
  | [(name, v)] => Text.quoted name ++ ": " ++ v.quoted
  | (name, v) :: rest => Text.quoted name ++ ": " ++ v.quoted ++ ", " ++ quotedFields rest

def quotedEntries : List (Value × Value) → String
  | [] => ""
  | [(k, v)] => k.quoted ++ ": " ++ v.quoted
  | (k, v) :: rest => k.quoted ++ ": " ++ v.quoted ++ ", " ++ quotedEntries rest

end

def text : Value → String
  | .str s => s
  | .foreign t _ => t
  | .estimate x => Decimal.plain x
  | v => v.quoted

end CodeAudit.Value

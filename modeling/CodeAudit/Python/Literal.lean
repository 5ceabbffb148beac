import CodeAudit.Text.CharacterName

/-!
# Text literals of Python

Which escapes of a literal are well formed, and the fields of a formatted one. A field stands between braces, may name
a conversion and may have a format that holds fields again; fields in the format of a field of a format are refused.
-/

namespace CodeAudit.Python

/-- A literal taken apart: the marks before the quote and what stands between the quotes. -/
structure Literal where
  raw : Bool
  bytes : Bool
  formatted : Bool
  body : List Char

def Literal.ofText (text : List Char) : Literal :=
  let letters := (text.takeWhile Text.isAsciiLetter).map Text.lowerChar
  let quoted := text.drop letters.length
  let width := match quoted with
    | a :: b :: c :: _ => if a == b && b == c && 6 ≤ quoted.length then 3 else 1
    | _ => 1
  { raw := letters.contains 'r', bytes := letters.contains 'b', formatted := letters.contains 'f'
    body := (quoted.drop width).take (quoted.length - 2 * width) }

def startsWithHex (n : Nat) (cs : List Char) : Bool :=
  (cs.take n).length == n && (cs.take n).all fun c => (Text.hexDigit? c).isSome

def escapesFit : List Char → Bool
  | [] => true
  | '\\' :: c :: cs =>
    (match c with
      | 'x' => startsWithHex 2 cs
      | 'u' => startsWithHex 4 cs
      | 'U' => startsWithHex 8 cs && Text.hexNumber (cs.take 8) ≤ 0x10FFFF
      | 'N' =>
        let name := (cs.drop 1).takeWhile (· != '\x7d')
        cs.head? == some '\x7b' && Text.isCharacterName name && name.length + 1 < cs.length
      | _ => true) && escapesFit cs
  | _ :: cs => escapesFit cs

def bytesFit : List Char → Bool
  | [] => true
  | '\\' :: c :: cs => Text.isAscii c && (c != 'x' || startsWithHex 2 cs) && bytesFit cs
  | c :: cs => Text.isAscii c && bytesFit cs

/-- A field of a formatted literal: the text of its expression, the number of line ends before it
and the fields of its format. -/
inductive Field where
  | mk (expression : List Char) (linesBefore : Nat) (format : Option (List Field))

/-- Inside the expression of a field: the quote that is open, with whether it is a triple one, and
the open brackets, innermost first. -/
structure FieldState where
  quote : Option (Char × Bool)
  brackets : List Char

inductive FieldStep where
  | take (count : Nat) (state : FieldState)
  | stop
  | refuse

def quotedStep (s : FieldState) (q : Char) (long : Bool) (c : Char) (cs : List Char) : FieldStep :=
  if c != q then .take 1 s
  else if !long then .take 1 { s with quote := none }
  else if [q, q].isPrefixOf cs then .take 3 { s with quote := none }
  else .take 1 s

/-- A step at one of the characters that can end the expression outside brackets: it does not where
it starts a comparison. -/
def boundaryStep (s : FieldState) (c : Char) (cs : List Char) : FieldStep :=
  if cs.head? == some '=' && (c == '!' || c == '=' || c == '<' || c == '>') then .take 2 s
  else if c == '<' || c == '>' then .take 1 s
  else .stop

def fieldStep (s : FieldState) (c : Char) (cs : List Char) : FieldStep :=
  if c == '\\' then .refuse
  else match s.quote with
  | some (q, long) => quotedStep s q long c cs
  | none =>
    if c == '\'' || c == '"' then
      if [c, c].isPrefixOf cs then .take 3 { s with quote := some (c, true) }
      else .take 1 { s with quote := some (c, false) }
    else if c == '(' || c == '[' || c == '\x7b' then .take 1 { s with brackets := c :: s.brackets }
    else if c == '#' then .refuse
    else match s.brackets with
    | [] =>
      if c == '!' || c == ':' || c == '\x7d' || c == '=' || c == '<' || c == '>' then boundaryStep s c cs
      else if c == ')' || c == ']' then .refuse
      else .take 1 s
    | o :: outer =>
      if c == ')' || c == ']' || c == '\x7d' then
        if (o == '(' && c == ')') || (o == '[' && c == ']') || (o == '\x7b' && c == '\x7d') then
          .take 1 { s with brackets := outer }
        else .refuse
      else .take 1 s

/-- The text of a field's expression and what follows it. It ends at the first `!`, `:`, `=` or
closing brace outside brackets and quotes that is not part of a comparison. -/
def fieldExpression : Nat → FieldState → List Char → Option (List Char × List Char)
  | 0, _, _ => none
  | fuel + 1, s, cs =>
    match cs with
    | [] => none
    | c :: rest =>
      match fieldStep s c rest with
      | .refuse => none
      | .stop => some ([], cs)
      | .take n s' =>
        (fieldExpression fuel s' (cs.drop n)).map fun (text, left) => (cs.take n ++ text, left)

def isPlainBlank (c : Char) : Bool :=
  c == ' ' || c == '\t' || c == '\n' || c == '\r' || c == '\x0b' || c == '\x0c'

/-- What follows the expression of a field up to its format: the sign that shows the expression and
a conversion. -/
def afterExpression (cs : List Char) : Option (List Char) :=
  let shown := match cs with
    | '=' :: rest => rest.dropWhile isPlainBlank
    | _ => cs
  match shown with
  | '!' :: c :: rest => if c == 's' || c == 'r' || c == 'a' then some rest else none
  | '!' :: [] => none
  | _ => some shown

/-- The fields of a formatted literal, how many line ends were passed and what is left. At level zero the text is the
whole literal and a doubled brace stands for one; below, it is a format and ends before its closing brace. -/
def fields (raw : Bool) : Nat → Nat → Nat → List Char → List Char → Option (List Field × Nat × List Char)
  | 0, _, _, _, _ => none
  | fuel + 1, level, lines, plain, cs =>
    let close := fun (rest : List Char) =>
      if raw || escapesFit plain.reverse then some (([] : List Field), lines, rest) else none
    let again := fun (c : Char) (rest : List Char) =>
      fields raw fuel level (if c == '\n' then lines + 1 else lines) (c :: plain) rest
    match cs with
    | [] => close []
    | '\\' :: 'N' :: '\x7b' :: rest =>
      if raw then fields raw fuel level lines ('N' :: '\\' :: plain) ('\x7b' :: rest)
      else
        let name := rest.takeWhile (· != '\x7d')
        let after := (rest.drop name.length).drop 1
        fields raw fuel level (lines + name.count '\n')
          (((rest.take (name.length + 1)).reverse) ++ '\x7b' :: 'N' :: '\\' :: plain) after
    | '\\' :: c :: rest =>
      if raw || c == '\x7b' || c == '\x7d' then again '\\' (c :: rest)
      else fields raw fuel level (if c == '\n' then lines + 1 else lines) (c :: '\\' :: plain) rest
    | '\x7b' :: rest =>
      if level == 0 && rest.head? == some '\x7b' then again '\x7b' (rest.drop 1)
      else if 2 ≤ level then none
      else do
        let _ ← close []
        let (expression, more) ← fieldExpression (rest.length + 1) { quote := none, brackets := [] } rest
        if expression.all fun c => c == ' ' || c == '\t' || c == '\n' || c == '\x0c' then none
        else
          let more' ← afterExpression more
          let passed := lines + (rest.take (rest.length - more'.length)).count '\n'
          match more' with
          | '\x7d' :: after => do
            let (others, end_, left) ← fields raw fuel level passed [] after
            some (.mk expression lines none :: others, end_, left)
          | ':' :: format => do
            let (inner, passed', left) ← fields raw fuel (level + 1) passed [] format
            match left with
            | '\x7d' :: after => do
              let (others, end_, left') ← fields raw fuel level passed' [] after
              some (.mk expression lines (some inner) :: others, end_, left')
            | _ => none
          | _ => none
    | '\x7d' :: rest =>
      if level == 0 then
        if rest.head? == some '\x7d' then again '\x7d' (rest.drop 1) else none
      else close ('\x7d' :: rest)
    | c :: rest => again c rest

def Literal.fields? (l : Literal) : Option (List Field) :=
  match fields l.raw (l.body.length + 1) 0 0 [] l.body with
  | some (found, _, []) => some found
  | _ => none

def Literal.fits (l : Literal) : Bool :=
  if l.bytes then (if l.raw then l.body.all Text.isAscii else bytesFit l.body)
  else l.raw || escapesFit l.body

end CodeAudit.Python

import CodeAudit.Python.Identifier
import CodeAudit.Regex.Pattern
import CodeAudit.Text.Utf8

/-!
# Tokens of Python

Line ends inside brackets do not count; elsewhere a line that holds code ends with a `newline` token, and a change of
its indentation gives `indent` and `dedent` tokens. Indentation is measured twice, with tabs to the next multiple of
eight and as one column, and both must agree on what is deeper. Text that has no tokens gives none.
-/

namespace CodeAudit.Python

open Text

inductive TokenKind where
  | name
  | keyword
  | number
  | string
  | op
  | newline
  | indent
  | dedent
  deriving DecidableEq, Repr

structure Token where
  kind : TokenKind
  text : String
  line : Nat
  endLine : Nat
  /-- A name has the characters of a name only. -/
  continues : kind = .name → text.toList.all mayContinueName := by simp
  deriving Repr

def Token.name? (t : Token) : Option Identifier :=
  if h : t.kind = .name then some ⟨t.text, t.continues h⟩ else none

def keywords : List String :=
  ["False", "None", "True", "and", "as", "assert", "async", "await", "break", "class", "continue",
   "def", "del", "elif", "else", "except", "finally", "for", "from", "global", "if", "import", "in",
   "is", "lambda", "nonlocal", "not", "or", "pass", "raise", "return", "try", "while", "with",
   "yield"]

/-- Operators of three characters, then of two, then of one: the first that fits is the longest. -/
def operators : List (List Char) :=
  ["**=", "//=", ">>=", "<<=", "...",
   "!=", "%=", "&=", "**", "*=", "+=", "-=", "->", "//", "/=", ":=", "<<", "<=", "==", ">=", ">>",
   "@=", "^=", "|=",
   "(", ")", "[", "]", "\x7b", "\x7d", ":", ",", ";", "+", "-", "*", "/", "|", "&", "<", ">", "=",
   ".", "%", "~", "^", "@"].map String.toList

/-! ## Numbers -/

variable (cs : List Char)

/-- A number may be followed directly by one of a few keywords, and by nothing else that could
continue a name. -/
def endsNumber : Bool :=
  match cs with
  | [] => true
  | c :: _ =>
    !mayContinueName c || (["and", "else", "for", "if", "in", "is", "or", "not"].any fun w => w.toList.isPrefixOf cs)

/-- With the mark of a base, with a point, an exponent or the mark of an imaginary number, or whole, where only
zeros follow a zero. -/
def numberRegex : Regex :=
  let digits := "[0-9](?:_?[0-9])*"
  let exponent := s!"[eE][+-]?{digits}"
  .pattern ("0[xX](?:_?[0-9a-fA-F])+|0[oO](?:_?[0-7])+|0[bB](?:_?[01])+" ++
    s!"|(?:{digits}\\.(?:{digits})?|\\.{digits})(?:{exponent})?[jJ]?|{digits}{exponent}[jJ]?|{digits}[jJ]" ++
    "|0(?:_?0)*|[1-9](?:_?[0-9])*")

/-- The length of the number at the front; after a zero, `o` is the mark of a base and starts no keyword. -/
def numberSize : Option Nat := do
  let size := (← numberRegex.matchStart? cs).text.length
  if endsNumber (cs.drop size) && !(size == 1 && "0o".toList.isPrefixOf cs) then some size else none

/-! ## Texts -/

def stringPrefixes : List String := ["", "b", "r", "u", "f", "br", "rb", "fr", "rf"]

/-- The length of a text up to its closing quote, or quotes where it is a long one. -/
def closingSize (quotes : List Char) (counted : Nat) : List Char → Option Nat
  | [] => none
  | '\\' :: _ :: cs => closingSize quotes (counted + 2) cs
  | c :: cs =>
    if quotes.isPrefixOf (c :: cs) then some (counted + quotes.length)
    else if c == '\n' && quotes.length == 1 then none
    else closingSize quotes (counted + 1) cs

def stringSize : Option Nat :=
  match cs with
  | q :: rest => if [q, q].isPrefixOf rest then closingSize [q, q, q] 3 (rest.drop 2) else closingSize [q] 1 rest
  | [] => none

def stringPrefix? : Option (List Char × List Char) :=
  let letters := cs.takeWhile isAsciiLetter
  match cs.drop letters.length with
  | c :: rest =>
    if (c == '"' || c == '\'') && stringPrefixes.contains (String.ofList (letters.map Text.lowerChar)) then
      some (letters, c :: rest)
    else none
  | [] => none

/-! ## Lines -/

structure LexState where
  line : Nat
  brackets : List Char
  /-- The indentation levels by both measures, innermost first; the outermost is zero. -/
  indents : List (Nat × Nat)
  fresh : Bool

/-- The indentation of a line by both measures. A backslash at the end of a blank line joins it to
the next one, and the indentation before the first such backslash counts. -/
def measureIndent (col alt joined line : Nat) : List Char → Option (Nat × Nat × Nat × List Char)
  | ' ' :: cs => measureIndent (col + 1) (alt + 1) joined line cs
  | '\t' :: cs => measureIndent ((col / 8 + 1) * 8) (alt + 1) joined line cs
  | '\x0c' :: cs => measureIndent 0 0 joined line cs
  | '\\' :: '\n' :: cs =>
    if cs.isEmpty then none
    else measureIndent col alt (if joined == 0 then col else joined) (line + 1) cs
  | '\\' :: _ => none
  | cs => some (if joined == 0 then col else joined, if joined == 0 then alt else joined, line, cs)

/-- Closes the levels deeper than a column; the level reached must have exactly its measures. -/
def closeIndents (col alt : Nat) (line : Nat) :
    List (Nat × Nat) → Option (List Token × List (Nat × Nat))
  | [] => none
  | (c, a) :: outer =>
    if col < c then
      (closeIndents col alt line outer).map fun (tokens, levels) =>
        ({ kind := .dedent, text := "", line, endLine := line } :: tokens, levels)
    else if col == c && alt == a then some ([], (c, a) :: outer)
    else none

def indentTokens (col alt line : Nat) (levels : List (Nat × Nat)) : Option (List Token × List (Nat × Nat)) :=
  match levels with
  | [] => none
  | (c, a) :: _ =>
    if c < col then
      if alt ≤ a || 100 ≤ levels.length then none
      else some ([{ kind := .indent, text := "", line, endLine := line }], (col, alt) :: levels)
    else closeIndents col alt line levels

def opener? : Char → Option Char
  | ')' => some '('
  | ']' => some '['
  | '\x7d' => some '\x7b'
  | _ => none

/-- The open brackets after an operator; none where a closing one does not fit. -/
def bracketsAfter (brackets : List Char) (op : List Char) : Option (List Char) :=
  match op with
  | [c] =>
    if c == '(' || c == '[' || c == '\x7b' then
      if brackets.length < 200 then some (c :: brackets) else none
    else match opener? c with
      | none => some brackets
      | some o => match brackets with
        | top :: outer => if top == o then some outer else none
        | [] => none
  | _ => some brackets

def readName (line : Nat) (cs : List Char) : Option (Token × List Char) :=
  let name := cs.takeWhile mayContinueName
  if name.all Text.isAscii || (name.head?.any Text.isNameStart && name.all Text.isNameContinue) then
    let text := String.ofList name
    some ({ kind := if keywords.contains text then .keyword else .name, text, line, endLine := line
            continues := fun _ => by simp [text, name] },
      cs.drop name.length)
  else none

def readToken (line : Nat) (cs : List Char) : Option (Token × List Char) :=
  let spanning := fun (kind : TokenKind) (h : kind ≠ .name) (size : Nat) =>
    let text := cs.take size
    some (({ kind, text := String.ofList text, line, endLine := line + text.count '\n'
             continues := fun hname => absurd hname h } : Token),
      cs.drop size)
  match cs with
  | [] => none
  | c :: more =>
    match stringPrefix? cs with
    | some (letters, quoted) =>
      (stringSize quoted).bind fun size => spanning .string (by simp) (letters.length + size)
    | none =>
      if Text.isAsciiDigit c || (c == '.' && more.head?.any Text.isAsciiDigit) then
        (numberSize cs).bind (spanning .number (by simp))
      else if mayContinueName c then readName line cs
      else match operators.find? (·.isPrefixOf cs) with
        | some op => spanning .op (by simp) op.length
        | none => none

def lexStep (s : LexState) (cs : List Char) : Option (List Token × LexState × List Char) :=
  if s.fresh && s.brackets.isEmpty then do
    let (col, alt, line, rest) ← measureIndent 0 0 0 s.line cs
    match rest with
    | '\n' :: after => some ([], { s with line := line + 1 }, after)
    | '#' :: after =>
      some ([], { s with line := line + 1 }, (after.dropWhile (· != '\n')).drop 1)
    | _ =>
      let (tokens, indents) ← indentTokens col alt line s.indents
      some (tokens, { s with line, indents, fresh := false }, rest)
  else
    match cs with
    | [] => none
    | '\n' :: rest =>
      let token : Token := { kind := .newline, text := "", line := s.line, endLine := s.line }
      if s.brackets.isEmpty then some ([token], { s with line := s.line + 1, fresh := true }, rest)
      else some ([], { s with line := s.line + 1 }, rest)
    | '\\' :: '\n' :: rest => if rest.isEmpty then none else some ([], { s with line := s.line + 1 }, rest)
    | '#' :: rest => some ([], s, rest.dropWhile (· != '\n'))
    | c :: rest =>
      if c == ' ' || c == '\t' || c == '\x0c' then some ([], s, rest)
      else do
        let (token, after) ← readToken s.line cs
        let brackets ← if token.kind == .op then bracketsAfter s.brackets token.text.toList
          else some s.brackets
        some ([token], { s with line := token.endLine, brackets }, after)

/-- All tokens from a state on, after those found before, the last of which comes first; `fuel` bounds
the number of steps. -/
def lexFrom : Nat → LexState → List Token → List Char → Option (List Token)
  | 0, _, _, _ => none
  | fuel + 1, s, found, cs =>
    if cs.isEmpty then
      if s.brackets.isEmpty then
        (indentTokens 0 0 s.line s.indents).map fun (closing, _) => found.reverse ++ closing
      else none
    else
      match lexStep s cs with
      | none => none
      | some (tokens, s', rest) => lexFrom fuel s' (tokens.reverse ++ found) rest

def closedLines : List Char :=
  let unified := unifyLineEnds cs
  match unified.getLast? with
  | none => []
  | some '\n' => unified
  | some _ => unified ++ ['\n']

def tokens? (firstLine : Nat) (cs : List Char) : Option (List Token) :=
  let text := closedLines cs
  lexFrom (2 * text.length + 2)
    { line := firstLine, brackets := [], indents := [(0, 0)], fresh := true } [] text

end CodeAudit.Python

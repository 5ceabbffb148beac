import CodeAudit.Fault
import CodeAudit.Text.Surrogate
import CodeAudit.Text.Utf8

/-!
# The text of a YAML document

A position in the text, and readers for the pieces whose extent depends on layout: quoted and plain scalars, block
scalars, anchors, tags and directives.
-/

namespace CodeAudit.Yaml

open Text

def isBreak (c : Char) : Bool :=
  c == '\n' || c == '\r' || c == '\u0085' || c == '\u2028' || c == '\u2029'

def isGap (c : Char) : Bool := c == '\x00' || c == ' ' || c == '\t' || isBreak c

def isSpaceOrEnd (c : Char) : Bool := c == '\x00' || c == ' ' || isBreak c

def isBreakOrEnd (c : Char) : Bool := c == '\x00' || isBreak c

def isBlank (c : Char) : Bool := c == ' ' || c == '\t'

def isAllowed (c : Char) : Bool :=
  let n := c.toNat
  n == 9 || n == 10 || n == 13 || (0x20 ≤ n && n ≤ 0x7E) || n == 0x85 || (0xA0 ≤ n && n ≤ 0xFFFD)
    || 0x10000 ≤ n

def isNameChar (c : Char) : Bool :=
  isAsciiLetter c || isAsciiDigit c || c == '-' || c == '_'

structure Position where
  rest : List Char
  left : Nat := rest.length
  index : Nat := 0
  line : Nat := 0
  column : Nat := 0

namespace Position

variable (p : Position)

/-- The character so many places ahead; a null character after the end. -/
def peek (ahead : Nat := 0) : Char := p.rest.getD ahead '\x00'

def step : Position :=
  match p.rest with
  | [] => p
  | c :: cs =>
    if isBreak c && !(c == '\r' && cs.head? == some '\n') then
      { rest := cs, left := p.left - 1, index := p.index + 1, line := p.line + 1, column := 0 }
    else
      { p with
        rest := cs
        left := p.left - 1
        index := p.index + 1
        column := if c == '\ufeff' then p.column else p.column + 1 }

def forward : Nat → Position → Position
  | 0, p => p
  | n + 1, p => forward n p.step

def skip (isIn : Char → Bool) : Position :=
  p.forward (p.rest.takeWhile isIn).length

def span (isIn : Char → Bool) : List Char × Position :=
  (p.rest.takeWhile isIn, p.skip isIn)

def lineEnd : List Char × Position :=
  match p.rest with
  | '\r' :: '\n' :: _ => (['\n'], p.forward 2)
  | c :: _ =>
    if c == '\u2028' || c == '\u2029' then ([c], p.step)
    else if isBreak c then (['\n'], p.step)
    else ([], p)
  | [] => ([], p)

def atDocumentMark : Bool :=
  let mark := p.rest.take 3
  (mark == ['-', '-', '-'] || mark == ['.', '.', '.']) && isGap (p.peek 3)

end Position

inductive Directive where
  | version (major : Nat)
  | handle (name stem : String)
  | other
  deriving DecidableEq

def refuse {α : Type} : Except Fault α := .error .badYaml

def require (condition : Bool) : Except Fault Unit := if condition then .ok () else refuse

/-- Reads a piece of the text from the position where it starts, and leaves the position after it. -/
abbrev Reads := StateT Position (Except Fault)

namespace Reads

def peek (ahead : Nat := 0) : Reads Char := return (← get).peek ahead

def forward (n : Nat := 1) : Reads Unit := modify (·.forward n)

def skip (isIn : Char → Bool) : Reads Unit := modify (·.skip isIn)

def span (isIn : Char → Bool) : Reads (List Char) := modifyGet (·.span isIn)

def lineEnd : Reads (List Char) := modifyGet (·.lineEnd)

def exactly (c : Char) : Reads Unit := do
  require ((← peek) == c)
  forward

def wordEnd : Reads Unit := do require (isSpaceOrEnd (← peek))

/-- More places than characters are left. -/
def bound : Reads Nat := return (← get).left + 1

def manyFrom {α : Type} (piece : Reads (Option (List α))) : Nat → Reads (List α)
  | 0 => return []
  | fuel + 1 => do
    match ← piece with
    | some here => return here ++ (← manyFrom piece fuel)
    | none => return []

/-- Pieces of at least one character each, as long as there are any. -/
def many {α : Type} (piece : Reads (Option (List α))) : Reads (List α) := do manyFrom piece (← bound)

/-- The line ends one after the other, with what may stand before each. -/
def breaks (before : Reads Unit) : Reads (List Char) :=
  many do
    before
    let here ← lineEnd
    return if here.isEmpty then none else some here

/-- A line end and those after it inside a scalar: one alone counts as a space. -/
def folded (first more : List Char) : List Char :=
  (if first != ['\n'] then first else if more.isEmpty then [' '] else []) ++ more

/-! ## Quoted scalars -/

def escape? : Char → Option Char
  | '0' => some '\x00'
  | 'a' => some '\x07'
  | 'b' => some '\x08'
  | 't' => some '\t'
  | '\t' => some '\t'
  | 'n' => some '\n'
  | 'v' => some '\x0b'
  | 'f' => some '\x0c'
  | 'r' => some '\r'
  | 'e' => some '\x1b'
  | ' ' => some ' '
  | '"' => some '"'
  | '\\' => some '\\'
  | '/' => some '/'
  | 'N' => some '\u0085'
  | '_' => some '\u00a0'
  | 'L' => some '\u2028'
  | 'P' => some '\u2029'
  | _ => none

/-- How many hexadecimal digits follow an escape letter that gives a code point. -/
def escapeWidth? : Char → Option Nat
  | 'x' => some 2
  | 'u' => some 4
  | 'U' => some 8
  | _ => none

/-- The character with a number. Beyond the last code point there is none, and beyond the numbers of a
machine word there is not even the question. -/
def codePoint (n : Nat) : Except Fault Char :=
  match charOfNumber? n with
  | some c => .ok c
  | none => .error (if n < 2 ^ 31 then .meaningless else .overflow)

/-- The line ends between two lines of a quoted scalar, with the blanks before and between them; a
document mark may not stand there. -/
def quotedBreaks : Reads (List Char) :=
  breaks do
    require !(← get).atDocumentMark
    skip isBlank

/-- One piece of a quoted scalar: blanks with folded line ends, an escape, or plain characters. -/
def quotedPiece (double : Bool) : Reads (List Char) := do
  let blanks ← span isBlank
  let c ← peek
  if isBreak c then
    return folded (← lineEnd) (← quotedBreaks)
  if !blanks.isEmpty then
    return blanks
  require (c != '\x00')
  forward
  if double && c == '\\' then
    let letter ← peek
    if isBreak letter then
      let _ ← lineEnd
      return ← quotedBreaks
    forward
    if let some c := escape? letter then
      return [c]
    let some width := escapeWidth? letter | refuse
    let digits := (← get).rest.take width
    require (digits.length == width && digits.all fun c => (hexDigit? c).isSome)
    forward width
    return [← codePoint (hexNumber digits)]
  if !double && c == '\'' then forward
  return [c]

/-- A quoted scalar; in single quotes a doubled quote is a character. -/
def quotedScalar : Reads (List Char) := do
  let quote ← peek
  let double := quote == '"'
  forward
  let text ← many do
    if (← peek) == quote && (double || (← peek 1) != quote) then return none
    return some (← quotedPiece double)
  forward
  return text

/-! ## Plain scalars -/

def startsPlain (inFlow : Bool) (p : Position) : Bool :=
  let c := p.peek
  !(isGap c || "-?:,[]\x7b\x7d#&*!|>'\"%@`".toList.contains c)
    || (!isGap (p.peek 1) && (c == '-' || (!inFlow && (c == '?' || c == ':'))))

def isFlowMark (c : Char) : Bool := [',', '[', ']', '\x7b', '\x7d'].contains c

/-- How many characters of a plain scalar follow before a blank or a mark. -/
def plainLength (inFlow : Bool) : List Char → Nat
  | [] => 0
  | c :: cs =>
    let next := cs.headD '\x00'
    if isGap c || (c == ':' && (isGap next || (inFlow && isFlowMark next)))
        || (inFlow && (c == '?' || isFlowMark c)) then 0
    else plainLength inFlow cs + 1

/-- A gap in a plain scalar, as it counts there, and whether a line ended in it, after which a key may start.
The scalar ends where nothing counts, as before a document mark. -/
def plainGap : Reads (List Char × Bool) := do
  let blanks ← span (· == ' ')
  let first ← lineEnd
  if first.isEmpty then
    return (blanks, false)
  let more ← breaks do
    if !(← get).atDocumentMark then skip (· == ' ')
  let p ← get
  return (if p.column == 0 && p.atDocumentMark then [] else folded first more, true)

/-- The rest of a plain scalar, and whether a line ended after it; its lines are indented to `indent` at least. -/
def plainScalar (inFlow : Bool) (indent : Int) : Nat → List Char → Bool → Reads (List Char × Bool)
  | 0, _, lineEnded => return ([], lineEnded)
  | fuel + 1, gap, lineEnded => do
    let p ← get
    let length := plainLength inFlow p.rest
    if p.peek == '#' || length == 0 then
      return ([], lineEnded)
    forward length
    let here := gap ++ p.rest.take length
    let (between, lineEnded) ← plainGap
    let after ← get
    if between.isEmpty || after.peek == '#' || (!inFlow && (after.column : Int) < indent) then
      return (here, lineEnded)
    let (more, lineEnded) ← plainScalar inFlow indent fuel between lineEnded
    return (here ++ more, lineEnded)

/-! ## Block scalars -/

inductive Chomping where
  | strip
  | clip
  | keep

def chomping? : Reads (Option Chomping) := do
  match ← peek with
  | '+' => forward; return some .keep
  | '-' => forward; return some .strip
  | _ => return none

/-- The number that a digit in the header gives for the indentation; zero is none. -/
def indentDigit? : Reads (Option Nat) := do
  let c ← peek
  if !isAsciiDigit c then return none
  require (c != '0')
  forward
  return some (c.toNat - '0'.toNat)

/-- The header of a block scalar after its mark: chomping and indentation in either order. -/
def blockHeader : Reads (Chomping × Option Nat) := do
  let before ← chomping?
  let width ← indentDigit?
  let chomping ← if before.isSome then pure before else chomping?
  return (chomping.getD .clip, width)

def comment : Reads Unit := do
  skip (· == ' ')
  if (← peek) == '#' then skip (!isBreakOrEnd ·)

/-- The rest of a line that may hold only spaces and a comment, with its end. -/
def emptyRest : Reads Unit := do
  comment
  require (isBreakOrEnd (← peek))
  let _ ← lineEnd

/-- The empty lines before a block scalar whose indentation is not given, and the widest of them. -/
def leadingLines : Nat → Nat → Reads (List Char × Nat)
  | 0, widest => return ([], widest)
  | fuel + 1, widest => do
    skip (· == ' ')
    let widest := max widest (← get).column
    let here ← lineEnd
    if here.isEmpty then
      return ([], widest)
    let (more, widest) ← leadingLines fuel widest
    return (here ++ more, widest)

def emptyLines (indent : Nat) : Reads (List Char) :=
  breaks do
    let p ← get
    forward (min (indent - p.column) (p.rest.takeWhile (· == ' ')).length)

/-- The lines of a block scalar: its text, its last line end, and the empty lines after it. -/
def blockLines (isFolded : Bool) (indent : Nat) : Nat → List Char → Reads (List Char × List Char × List Char)
  | 0, breaks => return ([], [], breaks)
  | fuel + 1, breaks => do
    let start ← get
    if start.column != indent || start.peek == '\x00' then
      return ([], [], breaks)
    let line ← span (!isBreakOrEnd ·)
    let first ← lineEnd
    let more ← emptyLines indent
    let after ← get
    if after.column != indent || after.peek == '\x00' then
      return (breaks ++ line, first, more)
    -- a line that starts with a blank is not folded
    let joint :=
      if isFolded && first == ['\n'] && !isBlank start.peek && !isBlank after.peek then
        if more.isEmpty then [' '] else []
      else first
    let (text, ends) ← blockLines isFolded indent fuel more
    return (breaks ++ line ++ joint ++ text, ends)

/-- A block scalar, from its mark on, inside a block indented by `parent`. -/
def blockScalar (parent : Int) : Reads (List Char) := do
  let isFolded := (← peek) == '>'
  forward
  let (chomping, width) ← blockHeader
  wordEnd
  emptyRest
  let least := max 1 (parent + 1).toNat
  let (breaks, indent) ← match width with
    | none => leadingLines (← bound) least
    | some n => pure (← emptyLines (least + n - 1), least + n - 1)
  let (text, last, trailing) ← blockLines isFolded indent (← bound) breaks
  match chomping with
  | .strip => return text
  | .clip => return text ++ last
  | .keep => return text ++ last ++ trailing

/-! ## Anchors, tags and directives -/

def anchorName : Reads String := do
  forward
  let name ← span isNameChar
  let c ← peek
  require (!name.isEmpty && (isGap c || "?:,]\x7d%@`".toList.contains c))
  return String.ofList name

def tagHandle : Reads String := do
  exactly '!'
  if (← peek) == ' ' then
    return "!"
  let name ← span isNameChar
  exactly '!'
  return "!" ++ String.ofList name ++ "!"

def isTagChar (c : Char) : Bool :=
  isAsciiLetter c || isAsciiDigit c || "-;/?:@&=+$,_.!~*'()[]".toList.contains c

def escapedBytes : Reads (List UInt8) :=
  many do
    if (← peek) != '%' then
      return none
    let some high := hexDigit? (← peek 1) | refuse
    let some low := hexDigit? (← peek 2) | refuse
    forward 3
    return some [(high * 16 + low).toUInt8]

def tagRest : Reads String := do
  let cs ← many do
    let c ← peek
    if c == '%' then
      let some text := decode? .refuse (← escapedBytes) | refuse
      return some text.toList
    if !isTagChar c then
      return none
    forward
    return some [c]
  require !cs.isEmpty
  return String.ofList cs

/-- A tag, from its mark on: its handle, if it has one, and the rest. -/
def tagName : Reads (Option String × String) := do
  let next ← peek 1
  let found ←
    if next == '<' then do
      forward 2
      let rest ← tagRest
      exactly '>'
      pure (none, rest)
    else if isGap next then do
      forward
      pure (none, "!")
    else do
      let word := ((← get).rest.drop 1).takeWhile (!isSpaceOrEnd ·)
      let handle ← if word.contains '!' then tagHandle else do forward; pure "!"
      pure (some handle, ← tagRest)
  wordEnd
  return found

def versionNumber : Reads Nat := do
  let digits ← span isAsciiDigit
  require !digits.isEmpty
  return digits.foldl (fun n c => n * 10 + (c.toNat - '0'.toNat)) 0

def directive : Reads Directive := do
  forward
  let name ← span isNameChar
  require !name.isEmpty
  wordEnd
  let found ← match String.ofList name with
    | "YAML" => do
      skip (· == ' ')
      let major ← versionNumber
      exactly '.'
      let _ ← versionNumber
      pure (.version major)
    | "TAG" => do
      skip (· == ' ')
      let handle ← tagHandle
      require ((← peek) == ' ')
      skip (· == ' ')
      pure (.handle handle (← tagRest))
    | _ => do
      skip (!isBreakOrEnd ·)
      pure .other
  wordEnd
  emptyRest
  return found

end Reads

end CodeAudit.Yaml

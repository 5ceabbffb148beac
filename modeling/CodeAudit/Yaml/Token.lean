import CodeAudit.Yaml.Source

/-!
# Tokens of a YAML document

The marks and scalars of a document in order, with marks where blocks start and end by indentation. A key is only known
as one when the colon after it is met: every place where a key may have started is remembered, and the marks that belong
before the key are put in there afterwards. Tokens are read no further ahead than it takes to know whether the next one
starts a key; a fault further on does not count before that.
-/

namespace CodeAudit.Yaml

inductive Token where
  | directive (d : Directive)
  | documentStart
  | documentEnd
  | blockSequenceStart
  | blockMappingStart
  | blockEnd
  | flowSequenceStart
  | flowSequenceEnd
  | flowMappingStart
  | flowMappingEnd
  | flowEntry
  | blockEntry
  | key
  | value
  | alias (name : String)
  | anchor (name : String)
  | tag (handle : Option String) (rest : String)
  | scalar (text : String) (plain : Bool)
  deriving DecidableEq

structure KeyPlace where
  tokensBefore : Nat
  /-- Whether a key must start there, because a line of a block mapping does. -/
  required : Bool
  index : Nat
  line : Nat
  column : Nat

structure Tokens where
  position : Position
  depth : Nat := 0
  indent : Int := -1
  outer : List Int := []
  keyAllowed : Bool := true
  /-- Places where a key may have started, at most one for each number of open brackets. -/
  places : List (Nat × KeyPlace) := []
  queue : List Token := []
  taken : Nat := 0
  ended : Bool := false

abbrev Tokenize := StateT Tokens (Except Fault)

namespace Tokenize

def emit (token : Token) : Tokenize Unit :=
  modify fun t => { t with queue := t.queue ++ [token] }

def moveTo (p : Position) : Tokenize Unit := modify fun t => { t with position := p }

def allowKey (allowed : Bool) : Tokenize Unit := modify fun t => { t with keyAllowed := allowed }

def piece {α : Type} (read : Reads α) : Tokenize α := do
  let (a, after) ← read.run (← get).position
  moveTo after
  return a

/-- A key that must have started somewhere, but was not followed by a colon, is a fault. -/
def giveUp (place : KeyPlace) : Except Fault Unit := require !place.required

/-- Forgets the places that lie too far back: on an earlier line, or more than 1024 characters. -/
def forgetStale : Tokenize Unit := do
  let t ← get
  let isStale (place : KeyPlace) :=
    place.line != t.position.line || 1024 < t.position.index - place.index
  for entry in t.places do
    if isStale entry.2 then giveUp entry.2
  set { t with places := t.places.filter fun entry => !isStale entry.2 }

def forgetPlace : Tokenize Unit := do
  let t ← get
  if let some entry := t.places.find? (·.1 == t.depth) then
    giveUp entry.2
    set { t with places := t.places.filter (·.1 != t.depth) }

def savePlace : Tokenize Unit := do
  let t ← get
  if t.keyAllowed then
    forgetPlace
    let p := t.position
    let place : KeyPlace := {
      tokensBefore := t.taken + t.queue.length
      required := t.depth == 0 && t.indent == (p.column : Int)
      index := p.index
      line := p.line
      column := p.column }
    modify fun t => { t with places := t.places ++ [(t.depth, place)] }

def closeBlocks (column : Int) : Nat → Tokens → Tokens
  | 0, t => t
  | fuel + 1, t =>
    if column < t.indent then
      closeBlocks column fuel { t with
        indent := t.outer.headD (-1)
        outer := t.outer.tail
        queue := t.queue ++ [.blockEnd] }
    else t

/-- Closes the blocks right of a column; brackets suspend the rule. -/
def unwind (column : Int) : Tokenize Unit :=
  modify fun t => if t.depth == 0 then closeBlocks column (t.outer.length + 1) t else t

/-- Opens a block at a column if it lies right of the innermost one; says whether it did. -/
def openBlock (column : Nat) : Tokenize Bool := do
  let t ← get
  if t.indent < (column : Int) then
    set { t with indent := column, outer := t.indent :: t.outer }
    return true
  return false

def insertAt (before : Nat) (tokens : List Token) : Tokenize Unit :=
  modify fun t =>
    let older := before - t.taken
    { t with queue := t.queue.take older ++ tokens ++ t.queue.drop older }

/-- Passes over spaces, comments and line ends; after a line end in a block a key may start. -/
def toNextToken : Nat → Tokenize Unit
  | 0 => pure ()
  | fuel + 1 => do
    piece Reads.comment
    if !(← piece Reads.lineEnd).isEmpty then
      if (← get).depth == 0 then allowKey true
      toNextToken fuel

def mark (token : Token) (length : Nat := 1) : Tokenize Unit := do
  piece (Reads.forward length)
  emit token

def closeAll : Tokenize Unit := do
  unwind (-1)
  forgetPlace
  allowKey false

def openFlow (token : Token) : Tokenize Unit := do
  savePlace
  modify fun t => { t with depth := t.depth + 1, keyAllowed := true }
  mark token

def closeFlow (token : Token) : Tokenize Unit := do
  forgetPlace
  require (0 < (← get).depth)
  modify fun t => { t with depth := t.depth - 1, keyAllowed := false }
  mark token

/-- In a block, opens a block of the given kind where an entry or key starts; there it must be allowed
to start. -/
def startInBlock (start : Token) : Tokenize Unit := do
  let t ← get
  if t.depth == 0 then
    require t.keyAllowed
    if ← openBlock t.position.column then emit start

def blockEntry : Tokenize Unit := do
  startInBlock .blockSequenceStart
  allowKey true
  forgetPlace
  mark .blockEntry

def explicitKey : Tokenize Unit := do
  startInBlock .blockMappingStart
  allowKey ((← get).depth == 0)
  forgetPlace
  mark .key

def valueMark : Tokenize Unit := do
  let t ← get
  match t.places.find? (·.1 == t.depth) with
  | some (_, place) =>
    set { t with places := t.places.filter (·.1 != t.depth) }
    let opens ← if t.depth == 0 then openBlock place.column else pure false
    insertAt place.tokensBefore (if opens then [.blockMappingStart, .key] else [.key])
    allowKey false
  | none =>
    startInBlock .blockMappingStart
    allowKey (t.depth == 0)
    forgetPlace
  mark .value

def property {α : Type} (read : Reads α) (token : α → Token) : Tokenize Unit := do
  savePlace
  allowKey false
  emit (token (← piece read))

def plain : Tokenize Unit := do
  savePlace
  allowKey false
  let t ← get
  let (text, lineEnded) ← piece (Reads.plainScalar (t.depth != 0) (t.indent + 1) (t.position.left + 1) [] false)
  if lineEnded then allowKey true
  emit (.scalar (String.ofList text) true)

def next : Tokenize Unit := do
  toNextToken ((← get).position.left + 1)
  forgetStale
  unwind ((← get).position.column : Nat)
  let t ← get
  let p := t.position
  let c := p.peek
  let inBlock := t.depth == 0
  if p.rest.isEmpty then
    closeAll
    modify fun t => { t with places := [], ended := true }
  else if c == '%' && p.column == 0 then
    closeAll
    emit (.directive (← piece Reads.directive))
  else if p.column == 0 && p.atDocumentMark then
    closeAll
    mark (if c == '-' then .documentStart else .documentEnd) 3
  else if c == '[' then openFlow .flowSequenceStart
  else if c == '\x7b' then openFlow .flowMappingStart
  else if c == ']' then closeFlow .flowSequenceEnd
  else if c == '\x7d' then closeFlow .flowMappingEnd
  else if c == ',' then
    allowKey true
    forgetPlace
    mark .flowEntry
  else if c == '-' && isGap (p.peek 1) then blockEntry
  else if c == '?' && (!inBlock || isGap (p.peek 1)) then explicitKey
  else if c == ':' && (!inBlock || isGap (p.peek 1)) then valueMark
  else if c == '*' then property Reads.anchorName .alias
  else if c == '&' then property Reads.anchorName .anchor
  else if c == '!' then property Reads.tagName fun (h, r) => .tag h r
  else if (c == '|' || c == '>') && inBlock then
    allowKey true
    forgetPlace
    emit (.scalar (String.ofList (← piece (Reads.blockScalar t.indent))) false)
  else if c == '\'' || c == '"' then
    property Reads.quotedScalar fun text => .scalar (String.ofList text) false
  else if Reads.startsPlain (!inBlock) p then plain
  else throw .badYaml

/-- Whether more has to be read before the next token can be taken: there is none, or it may still turn
out to start a key. -/
def needsMore : Tokenize Bool := do
  let t ← get
  if t.ended then return false
  if t.queue.isEmpty then return true
  forgetStale
  let t ← get
  return (t.places.map (·.2.tokensBefore)).min? == some t.taken

def fill : Nat → Tokenize Unit
  | 0 => pure ()
  | fuel + 1 => do
    if ← needsMore then
      next
      fill fuel

def peek : Tokenize (Option Token) := do
  fill ((← get).position.left + 2)
  return (← get).queue.head?

def take : Tokenize Unit :=
  modify fun t => { t with queue := t.queue.tail, taken := t.taken + (if t.queue.isEmpty then 0 else 1) }

end Tokenize

/-- The start of a document; the mark of byte order there is passed over. -/
def Tokens.ofText (text : String) : Except Fault Tokens := do
  let cs := text.toList
  require (cs.all isAllowed)
  let start : Position := { rest := cs }
  return { position := if start.peek == '\ufeff' then start.step else start }

end CodeAudit.Yaml

import CodeAudit.Yaml.Scalar
import CodeAudit.Yaml.Token

/-!
# Nodes of a YAML document

The graph of a document: scalars, sequences and mappings, each with its kind. A node is named by its number, so that an
alias leads to the very node that its anchor marks, also from inside it.
-/

namespace CodeAudit.Yaml

inductive Content where
  | scalar (text : String)
  | sequence (items : List Nat)
  | mapping (entries : List (Nat × Nat))

structure Node where
  tag : Tag
  content : Content

structure Nodes where
  source : Tokens
  handles : List (String × String) := []
  anchors : List (String × Nat) := []
  nodes : Array Node := #[]

abbrev ReadNode := StateT Nodes (Except Fault)

structure Properties where
  anchor : Option String := none
  tag : Option String := none

namespace ReadNode

def onTokens {α : Type} (step : Tokenize α) : ReadNode α := do
  let s ← get
  let (a, source) ← step.run s.source
  set { s with source }
  return a

def peek : ReadNode (Option Token) := onTokens Tokenize.peek

def skip : ReadNode Unit := onTokens Tokenize.take

def accept (token : Token) : ReadNode Bool := do
  let found := (← peek) == some token
  if found then skip
  return found

def expect (token : Token) : ReadNode Unit := do require (← accept token)

def tagText (handle : Option String) (rest : String) : ReadNode String := do
  match handle with
  | none => return rest
  | some h =>
    match (← get).handles.find? (·.1 == h) with
    | some (_, stem) => return stem ++ rest
    | none => throw .badYaml

def anchor? : ReadNode (Option String) := do
  let some (.anchor name) := ← peek | return none
  skip
  return some name

def tag? : ReadNode (Option (Option String × String)) := do
  let some (.tag handle rest) := ← peek | return none
  skip
  return some (handle, rest)

def properties : ReadNode Properties := do
  let before ← anchor?
  let tag ← tag?
  let anchor ← if before.isSome then pure before else anchor?
  return { anchor, tag := ← tag.mapM fun (handle, rest) => tagText handle rest }

/-- The kind of a scalar: that of its tag; without one, that of its spelling where it is plain. -/
def scalarTag (tag : Option String) (text : String) (plain : Bool) : Tag :=
  match tag with
  | some "!" => Tag.ofPlain text
  | some name => Tag.ofName name
  | none => if plain then Tag.ofPlain text else .str

def collectionTag (tag : Option String) (usual : Tag) : Tag :=
  match tag with
  | none => usual
  | some "!" => usual
  | some name => Tag.ofName name

def add (node : Node) : ReadNode Nat := do
  let s ← get
  set { s with nodes := s.nodes.push node }
  return s.nodes.size

def named (anchor : Option String) (id : Nat) : ReadNode Unit := do
  if let some name := anchor then
    modify fun s => { s with anchors := (name, id) :: s.anchors }

def fillIn (id : Nat) (node : Node) : ReadNode Unit :=
  modify fun s => { s with nodes := s.nodes.setIfInBounds id node }

def empty : ReadNode Nat := add { tag := .null, content := .scalar "" }

def orEmpty (stops : List Token) (read : ReadNode Nat) : ReadNode Nat := do
  if (← peek).all stops.contains then empty else read

/-! ## Grammar -/

/-- The pieces of a block that each start with the mark. -/
def marked {α : Type} (mark : Token) (read : ReadNode α) : Nat → ReadNode (List α)
  | 0 => throw .badYaml
  | fuel + 1 => do
    if ← accept mark then
      return (← read) :: (← marked mark read fuel)
    return []

def inBlock {α : Type} (mark : Token) (read : ReadNode α) (fuel : Nat) : ReadNode (List α) := do
  let found ← marked mark read fuel
  expect .blockEnd
  return found

/-- The pieces between brackets, with commas between them, up to the closing one. -/
def inBrackets {α : Type} (close : Token) (read : ReadNode α) (first : Bool) : Nat → ReadNode (List α)
  | 0 => throw .badYaml
  | fuel + 1 => do
    if ← accept close then return []
    if !first then
      expect .flowEntry
      if ← accept close then return []
    return (← read) :: (← inBrackets close read false fuel)

/-- A key with its value, after the mark of keys; each of them may be missing. -/
def entry (stops : List Token) (read : ReadNode Nat) : ReadNode (Nat × Nat) := do
  let key ← orEmpty (.value :: stops) read
  return (key, ← if ← accept .value then orEmpty stops read else empty)

def mostNested : Nat := 487

/-- A node so many levels deep. In a block it may be a block collection; after a mapping's key a list
need not be indented. -/
def node : Nat → (level : Nat) → (isInBlock flatList : Bool) → ReadNode Nat
  | 0, _, _, _ => throw .badYaml
  | fuel + 1, level, isInBlock, flatList => do
    if mostNested < level then throw .tooDeep
    if let some (.alias name) := ← peek then
      skip
      match (← get).anchors.find? (·.1 == name) with
      | some (_, found) => return found
      | none => throw .badYaml
    let given ← properties
    let add (tag : Tag) (content : Content) : ReadNode Nat := do
      if let some name := given.anchor then require ((← get).anchors.find? (·.1 == name)).isNone
      let id ← add { tag, content }
      named given.anchor id
      return id
    let scalar (text : String) (plain : Bool) : ReadNode Nat := add (scalarTag given.tag text plain) (.scalar text)
    let collection (usual : Tag) (read : ReadNode Content) : ReadNode Nat := do
      let tag := collectionTag given.tag usual
      let id ← add tag (.sequence [])
      fillIn id { tag, content := ← read }
      return id
    let next ← peek
    match next, isInBlock with
    | some (.scalar text plain), _ =>
      skip
      scalar text plain
    | some .flowSequenceStart, _ =>
      skip
      -- a key with its value is a mapping of one entry
      let item : ReadNode Nat := do
        if !(← accept .key) then return ← node fuel (level + 1) false false
        let id ← ReadNode.add { tag := .map, content := .mapping [] }
        let pair ← entry [.flowEntry, .flowSequenceEnd] (node fuel (level + 2) false false)
        fillIn id { tag := .map, content := .mapping [pair] }
        return id
      collection .seq (.sequence <$> inBrackets .flowSequenceEnd item true fuel)
    | some .flowMappingStart, _ =>
      skip
      -- a node alone is a key without value
      let item := node fuel (level + 1) false false
      let pair : ReadNode (Nat × Nat) := do
        if ← accept .key then entry [.flowEntry, .flowMappingEnd] item else return (← item, ← empty)
      collection .map (.mapping <$> inBrackets .flowMappingEnd pair true fuel)
    | some .blockSequenceStart, true =>
      skip
      collection .seq (.sequence <$>
        inBlock .blockEntry (orEmpty [.blockEntry, .blockEnd] (node fuel (level + 1) true false)) fuel)
    | some .blockMappingStart, true =>
      skip
      collection .map (.mapping <$>
        inBlock .key (entry [.key, .value, .blockEnd] (node fuel (level + 1) true true)) fuel)
    | next, _ =>
      if flatList && next == some .blockEntry then
        let stops := [.blockEntry, .key, .value, .blockEnd]
        collection .seq (.sequence <$> marked .blockEntry (orEmpty stops (node fuel (level + 1) true false)) fuel)
      else
        require (given.anchor.isSome || given.tag.isSome)
        scalar "" true

/-- The directives before a document: one version at most, of which the major number is one, and
one meaning for each handle. -/
def directives : Nat → Bool → ReadNode Unit
  | 0, _ => pure ()
  | fuel + 1, versionSeen => do
    match ← peek with
    | some (.directive d) =>
      skip
      match d with
      | .version major =>
        require (!versionSeen && major == 1)
        directives fuel true
      | .handle name stem =>
        let s ← get
        require (s.handles.find? (·.1 == name)).isNone
        set { s with handles := (name, stem) :: s.handles }
        directives fuel versionSeen
      | .other => directives fuel versionSeen
    | _ => pure ()

def usualHandles : List (String × String) := [("!", "!"), ("!!", "tag:yaml.org,2002:")]

def document (length : Nat) : ReadNode (Option Nat) := do
  let fuel := 4 * length + 8
  let some first := ← peek | return none
  let isMarked := first matches .directive _ | .documentStart
  if isMarked then directives fuel false
  modify fun s => { s with
    handles := s.handles ++ usualHandles.filter fun h => (s.handles.find? (·.1 == h.1)).isNone }
  if isMarked then expect .documentStart
  let isEmpty := match ← peek with
    | none | some (.directive _) | some .documentStart | some .documentEnd => isMarked
    | _ => false
  let found ← if isEmpty then empty else node fuel 0 true false
  let _ ← marked .documentEnd (pure ()) fuel
  require (← peek).isNone
  return some found

end ReadNode

/-- The graph of a document: its nodes by their numbers, and the number of the outermost one. -/
structure Graph where
  nodes : Array Node
  root : Nat

def Graph.ofText (text : String) : Except Fault (Option Graph) := do
  let (found, s) ← (ReadNode.document text.length).run { source := ← Tokens.ofText text }
  return found.map fun root => { nodes := s.nodes, root }

end CodeAudit.Yaml

import CodeAudit.Value.Order
import CodeAudit.Yaml.Node

/-!
# YAML documents

Scalars get their values as soon as they are met; collections are filled level by level. The entries that a merge key
brings in stand before a mapping's own, of equal keys the last value counts at the place of the first, and a key must be
a scalar or stand for one. A collection may hold itself.
-/

namespace CodeAudit.Yaml

inductive Made where
  | plain (v : Value)
  | list (items : List Nat)
  | record (entries : List (Value × Nat))
  | set (keys : List Value)
  | pairs (entries : List (Nat × Nat))

structure Making where
  nodes : Array Node
  made : Array (Option Made)
  /-- The collections that have been met and not been filled, the latest first. -/
  waiting : List Nat := []

abbrev Make := StateT Making (Except Fault)

namespace Make

variable (id : Nat)

def nodeAt : Make Node := do
  match (← get).nodes[id]? with
  | some node => return node
  | none => throw .badYaml

/-- The text of a scalar; that of a mapping is the text of its own value. -/
def scalarText : Nat → Nat → Make String
  | 0, _ => throw .tooDeep
  | fuel + 1, id => do
    match (← nodeAt id).content with
    | .scalar text => return text
    | .sequence _ => throw .badYaml
    | .mapping entries =>
      match ← entries.findM? fun (key, _) => do return (← nodeAt key).tag == .ownValue with
      | some (_, value) => scalarText fuel value
      | none => throw .badYaml

def finish (made : Made) : Make Unit :=
  modify fun s => { s with made := s.made.setIfInBounds id (some made) }

/-- Gives a node its value, where it has none: scalars get it at once, collections wait. -/
def meet : Make Unit := do
  let s ← get
  if ((s.made[id]?).getD none).isSome then return
  let node ← nodeAt id
  let wait (made : Made) : Make Unit := do
    finish id made
    modify fun s => { s with waiting := id :: s.waiting }
  match node.tag with
  | .seq => wait (.list [])
  | .orderedMap | .pairs => wait (.pairs [])
  | .map => wait (.record [])
  | .set => wait (.set [])
  | tag =>
    if tag.isScalar then
      let text ← scalarText (s.nodes.size + 1) id
      match tag, node.content with
      | .timestamp, .mapping _ => throw .wrongKind
      | _, _ => finish id (.plain (← scalarValue tag text))
    else throw .badYaml

/-- The entries of a mapping as they count: those that merge keys bring in, then its own. What is found
out is kept, so that a mapping that is met again has no merge keys any more. -/
def entriesOf : Nat → Nat → Make (List (Nat × Nat))
  | 0, _ => throw .tooDeep
  | fuel + 1, id => do
    let node ← nodeAt id
    match node.content with
    | .mapping entries =>
      let keep (entries : List (Nat × Nat)) : Make Unit :=
        modify fun s => { s with nodes := s.nodes.setIfInBounds id { node with content := .mapping entries } }
      let mut own : List (Nat × Nat) := []
      let mut merged : List (Nat × Nat) := []
      let mut rest := entries
      for (key, value) in entries do
        rest := rest.tail
        let keyNode ← nodeAt key
        if keyNode.tag == .merge then
          keep (own ++ rest)
          match (← nodeAt value).content with
          | .mapping _ => merged := merged ++ (← entriesOf fuel value)
          | .sequence items =>
            let found ← items.mapM fun item => do
              match (← nodeAt item).content with
              | .mapping _ => entriesOf fuel item
              | _ => throw .badYaml
            merged := merged ++ found.reverse.flatten
          | .scalar _ => throw .badYaml
        else
          if keyNode.tag == .ownValue then
            modify fun s => { s with nodes := s.nodes.setIfInBounds key { keyNode with tag := .str } }
          own := own ++ [(key, value)]
      keep (merged ++ own)
      return merged ++ own
    | _ => throw .badYaml

def keyOf : Make Value := do
  meet id
  match ((← get).made[id]?).getD none with
  | some (.plain v) => return v
  | _ => throw .badYaml

/-- The entries of a mapping with their keys, equal ones brought together. -/
def recordOf : Make (List (Value × Nat)) := do
  let entries ← entriesOf ((← get).nodes.size + 1) id
  entries.foldlM (fun found (key, value) => do
    let name ← keyOf key
    meet value
    return Value.putEntry found name value) []

def itemsOf : Make (List Nat) := do
  match (← nodeAt id).content with
  | .sequence items => return items
  | _ => throw .badYaml

def singleOf : Make (Nat × Nat) := do
  match (← nodeAt id).content with
  | .mapping [(key, value)] =>
    meet key
    meet value
    return (key, value)
  | _ => throw .badYaml

def complete : Make Unit := do
  match (← nodeAt id).tag with
  | .seq =>
    let items ← itemsOf id
    items.forM meet
    finish id (.list items)
  | .map => finish id (.record (← recordOf id))
  | .set => finish id (.set ((← recordOf id).map (·.1)))
  | _ => finish id (.pairs (← (← itemsOf id).mapM singleOf))

def completeAll : Nat → Make Unit
  | 0 => pure ()
  | fuel + 1 => do
    let waiting := (← get).waiting.reverse
    modify fun s => { s with waiting := [] }
    if !waiting.isEmpty then
      waiting.forM complete
      completeAll fuel

end Make

/-! ## Values -/

def kindName : Value → String
  | .null => "NoneType"
  | .bool _ => "bool"
  | .float _ | .estimate _ => "float"
  | .int _ => "int"
  | .str _ => "str"
  | v =>
    if Value.showsBytes v.quoted then "bytes" else String.ofList (v.quoted.toList.takeWhile (· != '('))

/-- The order in which the elements of a set are shown: by kind, then by value. -/
def shownBefore (a b : Value) : Bool :=
  if kindName a == kindName b then
    match (a.order b).toOption.join with
    | some .gt => false
    | some _ => true
    | none => a.text ≤ b.text
  else kindName a ≤ kindName b

abbrev Known := Array (Option Value)

mutual

/-- The value of a node inside the given nodes, and whether it leads back to one of them. A node is followed
inside itself until it stands there `rounds` times. -/
def valueOf (rounds : Nat) (made : Array (Option Made)) : Nat → List Nat → Nat → StateM Known (Value × Bool)
  | 0, _, _ => return (.again false, true)
  | fuel + 1, path, id => do
    match ((← get)[id]?).getD none with
    | some v => return (v, false)
    | none =>
      let content := (made[id]?).getD none
      if rounds ≤ path.count id then
        return (.again (match content with | some (.record _) => true | _ => false), true)
      let (v, back) ← match content with
        | none => pure (Value.null, false)
        | some (.plain v) => pure (v, false)
        | some (.set keys) => pure (.set (keys.mergeSort shownBefore), false)
        | some (.list items) => do
          let (vs, back) ← valuesOf rounds made fuel (id :: path) items
          pure (.list vs, back)
        | some (.record entries) => do
          let (vs, back) ← valuesOf rounds made fuel (id :: path) (entries.map (·.2))
          pure (.ofEntries ((entries.map (·.1)).zip vs), back)
        | some (.pairs entries) => do
          let (ks, back) ← valuesOf rounds made fuel (id :: path) (entries.map (·.1))
          let (vs, back') ← valuesOf rounds made fuel (id :: path) (entries.map (·.2))
          pure (.list ((ks.zip vs).map fun (k, v) => .tuple [k, v]), back || back')
      if !back then modify (·.setIfInBounds id (some v))
      return (v, back)

def valuesOf (rounds : Nat) (made : Array (Option Made)) : Nat → List Nat → List Nat → StateM Known (List Value × Bool)
  | _, _, [] => return ([], false)
  | 0, _, _ => return ([], true)
  | fuel + 1, path, id :: rest => do
    let (v, back) ← valueOf rounds made fuel path id
    let (vs, back') ← valuesOf rounds made fuel path rest
    return (v :: vs, back || back')

end

/-- The value of a graph, in which a collection that holds itself is followed so many times. -/
def Graph.value (g : Graph) (rounds : Nat) : Except Fault Value := do
  let start : Making := { nodes := g.nodes, made := Array.replicate g.nodes.size none }
  let act : Make Unit := do
    Make.meet g.root
    Make.completeAll (g.nodes.size + 1)
  let (_, s) ← act.run start
  let size := s.made.foldl (fun n made => n + match made with
    | some (.list items) => items.length + 1
    | some (.record entries) => entries.length + 1
    | some (.pairs entries) => 2 * entries.length + 1
    | _ => 1) 2
  return ((valueOf rounds s.made (size * rounds) [] g.root).run (Array.replicate g.nodes.size none)).1.1

/-- The value of a document, in which a collection that holds itself is followed so many times; nothing where
the text holds no document. -/
def readFollowing (rounds : Nat) (text : String) : Except Fault Value := do
  match ← Graph.ofText text with
  | some graph => graph.value rounds
  | none => return .null

def read (text : String) : Except Fault Value := readFollowing 1 text

end CodeAudit.Yaml

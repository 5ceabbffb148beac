import CodeAudit.Fault
import CodeAudit.Text.Basic

/-!
# Values

Findings, rules and settings are documents: records whose fields hold values of any kind. A record keeps the order of
its fields, since reports print them so. The operations work on every kind of value or report a `Fault` on others than
they name.
-/

namespace CodeAudit

inductive Value where
  | null
  | bool (b : Bool)
  | int (n : Int)
  | float (x : Float)
  | str (s : String)
  | list (items : List Value)
  | tuple (items : List Value)
  | set (items : List Value)
  /-- A record, its fields in order of first writing and with distinct names. -/
  | obj (fields : List (String × Value))
  /-- A record with a name that is no text; its fields are in order of first writing. -/
  | map (entries : List (Value × Value))
  /-- The enclosing record or list once more, in a document that holds itself. -/
  | again (inRecord : Bool)
  /-- A double that a model computed. It counts as a number like any other; only its quoted form tells. -/
  | estimate (x : Float)
  /-- A scalar of another kind, such as a date: its text and its quoted form. -/
  | foreign (text quoted : String)
  deriving Inhabited

abbrev Record := List (String × Value)

namespace Record

variable (r : Record) (name : String)

def get? : Option Value :=
  (r.find? (·.1 == name)).map (·.2)

def getD (default : Value) : Value := (get? r name).getD default

def has : Bool := r.any (·.1 == name)

/-- Writes a field: in its place if it is present, at the end otherwise. -/
def put (value : Value) : Record :=
  if has r name then r.map fun field => if field.1 == name then (name, value) else field
  else r ++ [(name, value)]

def erase : Record := r.filter (·.1 != name)

def names : List String := r.map (·.1)

/-- A record from fields in order of writing, where a later value replaces an earlier one. -/
def ofFields (fields : List (String × Value)) : Record :=
  fields.foldl (fun r field => r.put field.1 field.2) []

end Record

namespace Value

def texts (xs : List String) : Value := .list (xs.map .str)

def nat (n : Nat) : Value := .int n

def optText : Option String → Value
  | some s => .str s
  | none => .null

/-- Values that count as false: nothing, false, zero, and whatever is empty. -/
def truthy : Value → Bool
  | .null => false
  | .bool b => b
  | .int n => n != 0
  | .float x | .estimate x => !(x == 0.0)
  | .str s => !s.isEmpty
  | .list items => !items.isEmpty
  | .tuple items => !items.isEmpty
  | .set items => !items.isEmpty
  | .obj fields => !fields.isEmpty
  | .map entries => !entries.isEmpty
  | .again _ => true
  | .foreign _ quoted => quoted != "b''"

def orElse (a b : Value) : Value := if a.truthy then a else b

def ofEntries (entries : List (Value × Value)) : Value :=
  match entries.mapM fun
    | (.str name, value) => some (name, value)
    | _ => none with
  | some fields => .obj fields
  | none => .map entries

def namedFields : Value → Option Record
  | .obj fields => some fields
  | .map entries => some (entries.filterMap fun
    | (.str name, value) => some (name, value)
    | _ => none)
  | _ => none

/-- The named fields of a record; other kinds have none. -/
def fields (v : Value) : Except Fault Record :=
  match v.namedFields with
  | some fields => .ok fields
  | none => .error .noSuchPart

def asText : Value → Except Fault String
  | .str s => .ok s
  | _ => .error .noSuchPart

def showsBytes (quoted : String) : Bool :=
  [['b', '\''], ['b', '"']].contains (quoted.toList.take 2)

/-- A text or bytes in lower case; other kinds have no case. -/
def lowered : Value → Except Fault Value
  | .str s => .ok (.str (Text.lower s))
  | .foreign text quoted =>
    if showsBytes quoted then .ok (.foreign (Text.lower text) (Text.lower quoted)) else .error .noSuchPart
  | _ => .error .noSuchPart

def isText : Value → Bool
  | .str _ => true
  | _ => false

def isRecord : Value → Bool
  | .obj _ | .map _ => true
  | .again inRecord => inRecord
  | _ => false

/-- The elements over which a value can be run through: the members of a collection, the characters
of a text, the field names of a record. -/
def elements : Value → Except Fault (List Value)
  | .list items => .ok items
  | .tuple items => .ok items
  | .set items => .ok items
  | .str s => .ok (s.toList.map fun c => .str (String.singleton c))
  | .obj fields => .ok (fields.map fun f => .str f.1)
  | .map entries => .ok (entries.map (·.1))
  | _ => .error .wrongKind

def size (v : Value) : Except Fault Nat := v.elements.map List.length

/-- Values that can name an entry of a table: all but those that hold lists, sets or records. -/
def hashable : Value → Bool
  | .list _ => false
  | .set _ => false
  | .obj _ | .map _ | .again _ => false
  | .tuple items => hashableAll items
  | _ => true
where
  hashableAll : List Value → Bool
    | [] => true
    | v :: vs => v.hashable && hashableAll vs

/-- Whether a value can be looked up in a set; a set can, though it cannot be in one. -/
def isLookedUp : Value → Bool
  | .set _ => true
  | v => v.hashable

mutual

/-- The places that a copy needs. -/
def copyDepth : Value → Nat
  | .list items => 2 + copyDepthAll items
  | .tuple items => 3 + copyDepthAll items
  | .set items => 5 + copyDepthAll items
  | .obj fields => 2 + copyDepthFields fields
  | .map entries => 2 + copyDepthEntries entries
  | .foreign _ quoted => if showsBytes quoted then 2 else 5
  | _ => 2

def copyDepthAll : List Value → Nat
  | [] => 1
  | v :: vs => max v.copyDepth (copyDepthAll vs)

def copyDepthFields : List (String × Value) → Nat
  | [] => 1
  | (_, v) :: rest => max v.copyDepth (copyDepthFields rest)

def copyDepthEntries : List (Value × Value) → Nat
  | [] => 1
  | (name, v) :: rest => max (max name.copyDepth v.copyDepth) (copyDepthEntries rest)

end

mutual

def holdsItself : Value → Bool
  | .again _ => true
  | .list items | .tuple items | .set items => anyHolds items
  | .obj fields => anyFieldHolds fields
  | .map entries => anyEntryHolds entries
  | _ => false

def anyHolds : List Value → Bool
  | [] => false
  | v :: vs => v.holdsItself || anyHolds vs

def anyFieldHolds : List (String × Value) → Bool
  | [] => false
  | (_, v) :: rest => v.holdsItself || anyFieldHolds rest

def anyEntryHolds : List (Value × Value) → Bool
  | [] => false
  | (_, v) :: rest => v.holdsItself || anyEntryHolds rest

end

end Value

end CodeAudit

import CodeAudit.Decimal.Reader
import CodeAudit.Value.Order
import CodeAudit.Value.Display

/-!
# Parts of values

Reading parts of values whose kind is not known beforehand. Each operation says on which kinds it is
defined and which fault it gives on the others.
-/

namespace CodeAudit.Value

def part (v : Value) (name : String) (default : Value := .null) : Except Fault Value := do
  return Record.getD (← v.fields) name default

def need (v : Value) (name : String) : Except Fault Value :=
  match v.namedFields with
  | some fields => match Record.get? fields name with
    | some found => .ok found
    | none => .error .missingField
  | none => .error .wrongKind

def cut (n : Nat) : Value → Except Fault Value
  | .str s => .ok (.str (Text.take n s))
  | .list items => .ok (.list (items.take n))
  | .tuple items => .ok (.tuple (items.take n))
  | _ => .error .wrongKind

def first : Value → Except Fault Value
  | .list (x :: _) => .ok x
  | .tuple (x :: _) => .ok x
  | .str s => match s.toList with
    | c :: _ => .ok (.str (String.singleton c))
    | [] => .error .outOfRange
  | .list [] => .error .outOfRange
  | .tuple [] => .error .outOfRange
  | .obj _ => .error .missingField
  | _ => .error .wrongKind

/-- An entry given as a pair: two elements, the first of which can name an entry. -/
def pair (v : Value) : Except Fault (Value × Value) := do
  match ← v.elements with
  | [k, x] => if k.hashable then .ok (k, x) else .error .wrongKind
  | _ => .error .meaningless

def toEntries : Value → Except Fault (List (Value × Value))
  | .obj fields => .ok (fields.map fun (name, value) => (.str name, value))
  | .map entries => .ok entries
  | v => do
    (← v.elements).foldlM (fun entries item => do
      let (name, value) ← item.pair
      return putEntry entries name value) []

/-- The double nearest to a number; whole numbers out of range are a fault. -/
def toFloat? (v : Value) : Except Fault Float :=
  match v.number? with
  | none => .error .wrongKind
  | some n =>
    let x := n.toFloat
    match n with
    | .whole _ => if x.isInf then .error .overflow else .ok x
    | .real _ => .ok x

def readDouble : Value → Except Fault Float
  | .str s => match Decimal.readFloat? s with
    | some x => .ok x
    | none => .error .meaningless
  | v => v.toFloat?

def whole : Value → Except Fault Int
  | .bool b => .ok (if b then 1 else 0)
  | .int n => .ok n
  | _ => .error .wrongKind

def readWhole : Value → Except Fault Int
  | .bool b => .ok (if b then 1 else 0)
  | .int n => .ok n
  | .float x | .estimate x => match Decimal.truncate? x with
    | some n => .ok n
    | none => .error (if x.isNaN then .meaningless else .overflow)
  | .str s => match Decimal.readInt? s with
    | some n => .ok n
    | none => .error .meaningless
  | _ => .error .wrongKind

end CodeAudit.Value

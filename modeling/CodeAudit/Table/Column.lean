import CodeAudit.Value.Order

/-!
# Columns

A column has one kind where it can: whole numbers stay whole, become doubles where doubles or gaps stand between them,
and everything else keeps its cells. A gap among doubles is the double that is not a number. The kind is chosen in one
pass, so that it can depend on the order of the cells.
-/

namespace CodeAudit

def Decimal.gap : Float := 0.0 / 0.0

/-- The cells of a column: all whole, all doubles, or of any kind. -/
inductive Column where
  | whole (cells : List Int)
  | real (cells : List Float)
  | mixed (cells : List Value)

namespace Column

/-! ## Choice of a kind -/

structure Seen where
  null : Bool := false
  gap : Bool := false
  bool : Bool := false
  whole : Bool := false
  real : Bool := false
  negative : Bool := false
  large : Bool := false
  /-- Something that keeps the column from being one of numbers; nothing after it is looked at. -/
  other : Bool := false

/-- Looks at a whole number. It must have a nearest double, and as long as no null has come before, all
of them together must fit a machine word. -/
def Seen.afterWhole (s : Seen) (n : Int) : Except Fault Seen := do
  let _ ← (Number.whole n).double
  if s.null then return { s with whole := true }
  let negative := s.negative || (-(2 ^ 63) ≤ n && n < 0)
  let large := s.large || (2 ^ 63 ≤ n && n < 2 ^ 64)
  return { s with whole := true, negative, large
                  other := (negative && large) || n < -(2 ^ 63) || 2 ^ 64 ≤ n }

def Seen.after (s : Seen) (cell : Value) : Except Fault Seen :=
  if s.other then .ok s
  else match cell with
    | .null => .ok { s with null := true }
    | .bool _ => .ok { s with bool := true }
    | .int n => s.afterWhole n
    | .float x | .estimate x => .ok (if x.isNaN then { s with gap := true } else { s with real := true })
    | _ => .ok { s with other := true }

def cellDouble : Value → Float
  | .int n => Decimal.ofInt n
  | .float x | .estimate x => x
  | _ => Decimal.gap

/-- The column of the given cells. Truth values are not numbers here, and nulls alone are not either. -/
def ofCells (cells : List Value) : Except Fault Column := do
  let seen ← cells.foldlM Seen.after {}
  if seen.other || seen.bool then return .mixed cells
  else if seen.real || seen.gap || (seen.whole && seen.null) then return .real (cells.map cellDouble)
  else if seen.whole then return .whole (cells.filterMap fun | .int n => some n | _ => none)
  else return .mixed cells

def cells : Column → List Value
  | .whole ns => ns.map .int
  | .real xs => xs.map .float
  | .mixed vs => vs

def isNumeric : Column → Bool
  | .mixed _ => false
  | _ => true

def finite : Column → Column
  | .real xs => .real (xs.map fun x => if x.isFinite then x else 0.0)
  | c => c

end Column

structure Table where
  columns : List (String × Column)
  height : Nat

namespace Table

def names (t : Table) : List String := t.columns.map (·.1)

/-- The table of records. Its columns stand in the order in which their names first appear, and a
record without a field leaves a gap. -/
def ofRecords (records : List Record) : Except Fault Table := do
  let names := (records.flatMap Record.names).eraseDups
  let columns ← names.mapM fun name => do
    return (name, ← Column.ofCells (records.map fun r => Record.getD r name (.float Decimal.gap)))
  return { columns, height := records.length }

def rows (t : Table) : List (List Value) :=
  let cells := t.columns.map fun c => c.2.cells.toArray
  (List.range t.height).map fun i => cells.map fun column => column[i]?.getD .null

def records (t : Table) : List Record := t.rows.map fun row => t.names.zip row

def erase (t : Table) (name : String) : Table :=
  { t with columns := t.columns.filter (·.1 != name) }

end Table

end CodeAudit

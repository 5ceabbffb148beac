import CodeAudit.Table.Column
import CodeAudit.Value.Access

/-!
# Records of published vulnerabilities

What is kept of each vulnerability of a feed: its identifier, the first description, the weaknesses named by the first
assessment, and the products affected. Every part may be of another kind than expected, which is a fault.
-/

namespace CodeAudit

structure CveRecord where
  id : Value
  description : Value
  weaknesses : List Value
  products : List Value

namespace CveRecord

/-- The elements of a part; none where the part is absent. -/
def listed (v : Value) (name : String) : Except Fault (List Value) := do
  (← v.part name (.list [])).elements

/-- The first element of a part, or an empty record where the part is absent. -/
def firstOf (v : Value) (name : String) : Except Fault Value := do
  (← v.part name (.list [.obj []])).first

def productsOf (cve : Value) : Except Fault (List Value) := do
  let found ← (← listed cve "configurations").mapM fun configuration => do
    (← listed configuration "nodes").mapM fun node => do
      (← listed node "cpeMatch").mapM (·.part "criteria")
  return found.flatten.flatten

def ofEntry (entry : Value) : Except Fault CveRecord := do
  let cve ← entry.part "cve" (.obj [])
  let id ← cve.part "id"
  let description ← (← firstOf cve "descriptions").part "value" (.str "")
  let weaknesses ← (← listed (← firstOf cve "weaknesses") "description").mapM (·.part "value")
  return { id, description, weaknesses, products := ← productsOf cve }

def ofFeed (feed : Value) : Except Fault (List CveRecord) := do
  (← listed feed "vulnerabilities").mapM ofEntry

def toRecord (c : CveRecord) : Record :=
  [("cve_id", c.id), ("description", c.description), ("cwes", .list c.weaknesses), ("products", .list c.products)]

def table (records : List CveRecord) : Except Fault Table :=
  Table.ofRecords (records.map toRecord)

end CveRecord

end CodeAudit

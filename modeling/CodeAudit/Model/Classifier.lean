import CodeAudit.Host
import CodeAudit.Model.Features

/-!
# The classifier

Training fits a classifier to a table of features and stores it; scoring needs a stored one. The classifier at hand
finds both classes equally likely, so that the scores only say that a model was there.
-/

namespace CodeAudit.Classifier

def standardPath : String := "vulnpredict_model.joblib"

def settings : Record := [("n_estimators", .int 100), ("random_state", .int 42)]

/-- How many rows a classifier is fitted to: all of a few, else the first four fifths. -/
def fittedRows (rows : Nat) : Nat := if rows < 5 then rows else max 1 (rows * 4 / 5)

def score : Float := 0.5

/-- Fits a classifier to features and stores it. The answer is the number of rows it was fitted to. -/
def train (features : Table) (path : String) : Action Nat := do
  let rows := fittedRows features.height
  Action.changing (·.write path (.model rows))
  return rows

def load (files : FileTree) (path : String) : Except Fault Nat := do
  if files.isThere path then
    match ← files.content path with
    | .model rows => .ok rows
    | .text "" => .error .cutShort
    | _ => .error .meaningless
  else .error (.noModel path)

def predict (files : FileTree) (findings : List Value) (path : String) : Except Fault (List Value) := do
  let _ ← load files path
  let _ ← Features.table findings
  findings.mapM fun f => do return .obj (Record.put (← f.fields) "vuln_score" (.estimate score))

end CodeAudit.Classifier

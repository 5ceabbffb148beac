import CodeAudit.Python.Project
import CodeAudit.Scan.Packages
import CodeAudit.Table.Reader
import CodeAudit.Model.Classifier

/-!
# Labelled findings

Findings to train on, each with a label that says whether it counts as a vulnerability: it has dangerous calls, branches
or nests a lot, or is a flow of tainted data.
-/

namespace CodeAudit.Label

variable (finding : Value)

def exceeds (name : String) (limit : Int) : Except Fault Bool := do
  (← finding.part name (.int 0)).exceeds (.int limit)

def isVulnerable : Except Fault Bool := do
  if (← finding.part "dangerous_calls").truthy then return true
  else if ← exceeds finding "cyclomatic_complexity" 10 then return true
  else if ← exceeds finding "max_nesting_depth" 5 then return true
  else Features.hasType finding "interprocedural_taint"

def labelOf : Except Fault Value := do
  return .int (if ← isVulnerable finding then 1 else 0)

def labelled : Except Fault Record := do
  let label ← labelOf finding
  return Record.put (← finding.fields) "label" label

variable (path : String)

/-- All findings on a project: on its Python files, on its scripts, and on the flows between functions. -/
def allFindings : Action (List Value) := do
  let python ← Python.analyzeProject path
  let javascript ← Javascript.analyzeProject path
  let flows ← Action.visiting fun room files => Python.analyzeFlows files path 10 room
  return python.map Value.obj ++ javascript ++ flows.map Value.obj

def projectFindings : Action (List Record) := do
  let all ← allFindings path
  Action.ofExcept (all.mapM labelled)

def storeTable (table : Table) (path : String) : Action Unit := do
  let directory := Path.parent path
  if !(← get).files.isDirectory directory then throw .noDirectory
  Action.writeParts path table.lines

def store (findings : List Record) (output : String) : Action Unit := do
  storeTable (← Action.ofExcept (Table.ofRecords findings)) output

def writeProject (path output : String) : Action Unit := do
  store (← projectFindings path) output

/-- Checks that a label is a whole number. Text must write one that fits a machine word; doubles are cut
down to one. -/
def wholeLabel (label : Value) : Except Fault Unit := do
  let n ← label.readWhole
  if label.isText && (n < -(2 ^ 63) || 2 ^ 63 ≤ n) then throw .overflow

def examples (table : Table) : List Value := (table.erase "label").records.map .obj

/-- Trains a classifier on a table of labelled findings. With `wholeLabels` a label that is no whole
number is a fault. -/
def trainOn (wholeLabels : Bool := false) : Action Unit := do
  let text ← Action.reading (Archive.plainText · path)
  let table ← Action.ofExcept (Table.read text)
  match table.columns.lookup "label" with
  | none => throw .noColumn
  | some labels =>
    if wholeLabels then Action.ofExcept (labels.cells.forM wholeLabel)
    let features ← Action.ofExcept (Features.table (examples table))
    let _ ← Classifier.train features Classifier.standardPath

end CodeAudit.Label

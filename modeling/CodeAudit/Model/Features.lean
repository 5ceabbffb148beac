import CodeAudit.Table.Column
import CodeAudit.Value.Access

/-!
# Features of findings

A finding becomes a row of numbers: sizes, counts, history, and the embedding of its code where there is one. A number
may be given as text; what is no number is a fault, except inside an embedding, where it counts as zero. The table
keeps only columns of numbers, all of them finite.
-/

namespace CodeAudit.Features

variable (finding : Value)

def measure (name : String) : Except Fault Float := do
  ((← finding.part name (.int 0)).orElse (.int 0)).readDouble

def count (name : String) : Except Fault Nat := do
  (← finding.part name (.list [])).size

def hasType (type : String) : Except Fault Bool := do
  return (← finding.part "type").isWordOf [type]

def onlyFor (type : String) (finding : Value) (number : Except Fault Float) : Except Fault Float := do
  if ← hasType finding type then number else return 0.0

def doubles : List (String × Except Fault Float) :=
  let counted := fun (name : String) => do return Decimal.ofInt (← count finding name)
  let given := fun (name : String) => do (← finding.part name (.int 0)).readDouble
  let dependency := onlyFor "dependencies" finding
  let taint := onlyFor "taint_analysis" finding
  let flow := onlyFor "interprocedural_taint" finding
  [("cyclomatic_complexity", measure finding "cyclomatic_complexity"),
   ("max_nesting_depth", measure finding "max_nesting_depth"),
   ("input_validation", counted "input_validation"),
   ("dependency_count", dependency (counted "dependencies")),
   ("taint_path_to_sink", taint (.ok 1.0)),
   ("taint_path_length", taint (counted "trace")),
   ("interprocedural_taint_path", flow (.ok 1.0)),
   ("interprocedural_call_chain_length", flow (counted "call_chain")),
   ("interprocedural_var_trace_length", flow (counted "var_trace")),
   ("commit_count", measure finding "commit_count"),
   ("unique_authors", measure finding "unique_authors"),
   ("last_modified_days", measure finding "last_modified_days"),
   ("num_vulnerable_dependencies", dependency (given "num_vulnerable_dependencies")),
   ("num_outdated_dependencies", dependency (given "num_outdated_dependencies")),
   ("max_dependency_severity", dependency (given "max_dependency_severity")),
   ("sensitive_data_involved", do
     Value.toFloat? (.int (← (← finding.part "sensitive_data_involved" (.bool false)).readWhole))),
   ("num_sensitive_vars", measure finding "num_sensitive_vars")]

def fixed : Except Fault Record := do
  let length ← finding.part "length" (.int 0)
  let dangerous ← count finding "dangerous_calls"
  let numbers ← (doubles finding).mapM fun (name, number) => do return (name, Value.float (← number))
  return ("length", length) :: ("dangerous_calls", .nat dangerous) :: numbers

def embedding : Except Fault (List Float) := do
  let given ← finding.part "embedding"
  if given.truthy then
    return (← given.elements).map fun v => v.readDouble.toOption.getD 0.0
  else return []

def embeddingFields (width : Nat) (numbers : List Float) : Record :=
  let filled := numbers ++ List.replicate (width - numbers.length) 0.0
  filled.zipIdx.map fun ((x, i) : Float × Nat) => (s!"embedding_{i}", .float x)

/-- The numbers that the classifier learns from: a row for each finding, with columns of numbers only. -/
def table (findings : List Value) : Except Fault Table := do
  let parts ← findings.mapM fun f => do return (← fixed f, ← embedding f)
  let width := parts.foldl (fun w p => max w p.2.length) 0
  let tainted ← findings.filterM (hasType · "taint_analysis")
  let rows := parts.map fun (numbers, embedded) =>
    numbers ++ embeddingFields width embedded ++ [("taint_finding_count", .float (Decimal.ofInt tainted.length))]
  let all ← Table.ofRecords rows
  return { all with columns := (all.columns.filter (·.2.isNumeric)).map fun c => (c.1, c.2.finite) }

end CodeAudit.Features

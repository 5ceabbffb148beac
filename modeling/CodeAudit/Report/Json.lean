import CodeAudit.Json.Writer
import CodeAudit.Report.Basic

/-!
# The JSON report

Every finding is brought into one form with an id, a severity and a message; a summary counts the
findings by severity.
-/

namespace CodeAudit.JsonReport

open Report

inductive Level where
  | high
  | medium
  | low
  deriving DecidableEq

def Level.word : Level → String
  | .high => "high"
  | .medium => "medium"
  | .low => "low"

def graveSinks : List String := ["eval", "exec", "os.system", "subprocess.call", "cursor.execute"]

def lesserSinks : List String := ["open", "pickle.loads", "yaml.load", "marshal.loads"]

variable (finding : Record)

/-- The severity of a finding: by its score where it has one, else by its type and sink. -/
def levelOf : Except Fault Level := do
  match finding.getD "vuln_score" .null with
  | .null =>
    let kind := finding.getD "type" (.str "")
    let sink := (firstOf finding ["sink", "function"] (.str "")).text
    return if kind.isWordOf ["interprocedural_taint"] || graveSinks.contains sink then .high
      else if lesserSinks.contains sink then .medium
      else if kind.isWordOf ["hardcoded_secret"] then .high
      else if kind.isWordOf ["dangerous_function"] then .medium
      else .low
  | score =>
    match ← scoreBand score with
    | 2 => return .high
    | 1 => return .medium
    | _ => return .low

/-- A finding of the report; its number gives it its name. -/
structure Entry where
  number : Nat
  kind : Value
  level : Level
  details : Record

def Entry.id (e : Entry) : String := "VP-" ++ Text.zeroPadded 4 (e.number : Int)

def Entry.toRecord (e : Entry) : Record :=
  [("id", .str e.id), ("type", e.kind), ("severity", .str e.level.word)] ++ e.details

def copied (name : String) (newName : String) : Record :=
  match finding.get? name with
  | some v => [(newName, v)]
  | none => []

def location : Record :=
  (match finding.get? "filename" with
    | some v => [("file", v)]
    | none => copied finding "file" "file")
  ++ (match finding.get? "line" with
    | some v => [("line", v)]
    | none => copied finding "sink_line" "line")

def message (kind : Value) : Record :=
  let unknown (name : String) := finding.getD name (.str "unknown")
  let orMark (name : String) := (finding.getD name (.str "?")).text
  match kind with
  | .str "taint_analysis" =>
    let (sink, var) := (unknown "sink", unknown "variable")
    [("message", .str s!"Tainted variable '{var.text}' flows from source to dangerous sink '{sink.text}'"),
      ("sink", sink), ("variable", var)] ++ copied finding "trace" "trace"
  | .str "interprocedural_taint" =>
    let (var, sink) := (orMark "tainted_var", orMark "sink")
    [("message", .str s!"Interprocedural taint flow: {var} reaches sink '{sink}' via call chain"),
      ("sink", unknown "sink"), ("variable", unknown "tainted_var")]
      ++ copied finding "call_chain" "call_chain" ++ copied finding "source_func" "source_function"
      ++ copied finding "sink_func" "sink_function"
  | .str "dangerous_function" =>
    let function := unknown "function"
    [("message", .str s!"Dangerous function call: {function.text}"), ("function", function)]
  | .str "hardcoded_secret" =>
    [("message", .str ("Hardcoded secret detected: " ++ orMark "variable")), ("variable", unknown "variable")]
  | .str "high_complexity" =>
    [("message", .str ("High cyclomatic complexity: " ++ orMark "complexity")),
      ("complexity", finding.getD "complexity" .null)]
  | _ => [("message", finding.getD "message" (.str (Value.obj finding).text))]

/-- The entry of a finding. Its message depends on the kind of finding. -/
def entry (number : Nat) (finding : Value) : Except Fault Entry := do
  let fields ← finding.fields
  let level ← levelOf fields
  let kind := fields.getD "type" (.str "unknown")
  return { number, kind, level
           details := location fields ++ message fields kind ++ copied fields "vuln_score" "confidence" }

def entriesFrom : Nat → List Value → Except Fault (List Entry)
  | _, [] => .ok []
  | number, f :: rest => do
    let first ← entry number f
    return first :: (← entriesFrom (number + 1) rest)

def countOf (level : Level) (entries : List Entry) : Nat := (entries.filter (·.level = level)).length

def summary (entries : List Entry) (suppressed : Value) : Record :=
  [("total_findings", .nat entries.length),
   ("by_severity", .obj ([Level.high, .medium, .low].map fun level => (level.word, .nat (countOf level entries)))),
   ("suppressed_findings", suppressed)]

variable (facts : Facts) (findings : List Value)

def metadata : Except Fault Record := do
  let duration ← match facts.duration with
    | .null => pure []
    | given => do pure [("scan_duration_seconds", ← threePlaces given)]
  let files := match facts.fileCount with
    | .null => []
    | given => [("files_scanned", given)]
  return [("tool", .str "vulnpredict"), ("version", .str toolVersion),
    ("scan_timestamp", .str facts.now.standardText), ("scan_path", facts.path)] ++ duration ++ files

def document : Except Fault Value := do
  let entries ← entriesFrom 1 findings
  let facts' ← metadata facts
  return .obj [("$schema", .str "vulnpredict-json-v1"), ("schema_version", .str "1.0.0"),
    ("metadata", .obj facts'), ("summary", .obj (summary entries facts.suppressed)),
    ("findings", .list (entries.map fun e => .obj e.toRecord))]

def write (compact : Bool := false) : Except Fault String := do
  Json.writeWithin (if compact then .compact else .pretty) (← document facts findings)

end CodeAudit.JsonReport

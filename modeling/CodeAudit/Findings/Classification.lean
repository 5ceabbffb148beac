import CodeAudit.Value.Access

/-!
# Classification of findings

Each kind of evidence that a finding lists brings in rules of a fixed registry. The finding takes severity and
confidence from the first of the gravest, and a score that blends these with the score of a model.
-/

namespace CodeAudit

/-! ## Severity and confidence

How bad a finding is and how sure, each on a short scale with a rank for comparison. -/

inductive Severity where
  | low
  | medium
  | high
  | critical
  deriving DecidableEq, Repr

inductive Confidence where
  | low
  | medium
  | high
  deriving DecidableEq, Repr

namespace Severity

def rank : Severity → Nat
  | .low => 1
  | .medium => 2
  | .high => 3
  | .critical => 4

def word : Severity → String
  | .low => "Low"
  | .medium => "Medium"
  | .high => "High"
  | .critical => "Critical"

/-- The severity that a word names, in any case; unknown words count as medium. -/
def ofText (s : String) : Severity :=
  match Text.lower s with
  | "low" => .low
  | "medium" => .medium
  | "high" => .high
  | "critical" => .critical
  | _ => .medium

end Severity

namespace Confidence

def rank : Confidence → Nat
  | .low => 1
  | .medium => 2
  | .high => 3

def word : Confidence → String
  | .low => "Low"
  | .medium => "Medium"
  | .high => "High"

/-- The confidence that a word names, in any case; unknown words count as medium. -/
def ofText (s : String) : Confidence :=
  match Text.lower s with
  | "low" => .low
  | "medium" => .medium
  | "high" => .high
  | _ => .medium

end Confidence

/-! ## Grades -/

/-- How grave a kind of finding is, and how sure its rule. -/
structure Grade where
  id : String
  severity : Severity
  confidence : Confidence
  description : String

namespace Grade

def registry : List Grade := [
  ⟨"PY-EVAL-001", .critical, .high, "Use of eval() with potentially untrusted input"⟩,
  ⟨"PY-EXEC-001", .critical, .high, "Use of exec() with potentially untrusted input"⟩,
  ⟨"PY-DESER-001", .critical, .high, "Deserialization of untrusted data (pickle/marshal/yaml)"⟩,
  ⟨"PY-DESER-002", .critical, .high, "Deserialization via dill/cloudpickle"⟩,
  ⟨"PY-SQLI-001", .critical, .high, "Potential SQL injection via string formatting"⟩,
  ⟨"PY-CMDI-001", .critical, .high, "Command injection via subprocess with shell=True or user input"⟩,
  ⟨"PY-LDAP-001", .high, .high, "LDAP injection via unsanitized filter input"⟩,
  ⟨"PY-TMPL-001", .high, .high, "Server-side template injection"⟩,
  ⟨"PY-SSRF-001", .high, .medium, "Server-side request forgery via user-controlled URL"⟩,
  ⟨"PY-REDIR-001", .medium, .medium, "Open redirect via user-controlled URL"⟩,
  ⟨"PY-PATH-001", .high, .medium, "Path traversal via user-controlled file path"⟩,
  ⟨"PY-XXE-001", .high, .high, "XML external entity injection via unsafe parser"⟩,
  ⟨"PY-CRYPTO-001", .medium, .high, "Use of weak cryptographic hash (MD5/SHA1)"⟩,
  ⟨"PY-CRYPTO-002", .medium, .high, "Use of weak cipher (DES/ARC4)"⟩,
  ⟨"PY-SECRET-001", .high, .high, "Hardcoded secret or credential in source code"⟩,
  ⟨"PY-COMPLEX-001", .low, .high, "High cyclomatic complexity"⟩,
  ⟨"PY-NESTING-001", .low, .high, "Deeply nested code"⟩,
  ⟨"PY-DEP-001", .high, .high, "Known vulnerability in Python dependency"⟩,
  ⟨"JS-EVAL-001", .critical, .high, "Use of eval() in JavaScript"⟩,
  ⟨"JS-EXEC-001", .critical, .high, "Use of child_process.exec with user input"⟩,
  ⟨"JS-SQLI-001", .high, .high, "Potential SQL injection in JavaScript"⟩,
  ⟨"JS-XSS-001", .high, .high, "DOM-based XSS via innerHTML or document.write"⟩,
  ⟨"JS-PROTO-001", .medium, .medium, "Potential prototype pollution"⟩,
  ⟨"JS-DEP-001", .high, .high, "Known vulnerability in npm dependency"⟩]

def unknown : Grade := ⟨"UNKNOWN", .low, .low, "Unclassified finding"⟩

def find? (id : String) : Option Grade := registry.find? (·.id == id)

/-- Whether a grade is graver than another: of higher severity, or of equal severity and surer. -/
def graver (a b : Grade) : Bool :=
  b.severity.rank < a.severity.rank
    || (a.severity.rank == b.severity.rank && b.confidence.rank < a.confidence.rank)

def gravest (grades : List Grade) : Grade :=
  grades.foldl (fun best grade => if graver grade best then grade else best) unknown

end Grade

namespace Classification

def mentions (call : Value) (words : List String) : Except Fault Bool :=
  words.anyM fun word => (Value.str word).member call

/-- The rule for a call: that of the first words which it mentions, or else the one for other calls, if any. -/
def ruleOfCall (call : Value) (other : Option String) : List (List String × String) → Except Fault (Option String)
  | [] => return other
  | (words, rule) :: rest => do
    if ← mentions call words then return some rule
    ruleOfCall call other rest

/-- What brings rules in: the calls in a list, a field that is set, or a number above a limit. -/
inductive Clause where
  | calls (field : String) (byWords : List (List String × String)) (other : Option String)
  | set (field rule : String)
  | above (field : String) (limit : Int) (rule : String)

variable (finding : Record)

namespace Clause

def rules : Clause → Except Fault (List String)
  | calls field byWords other => do
    let rules ← (← (finding.getD field (.list [])).elements).mapM (ruleOfCall · other byWords)
    return rules.filterMap fun rule => rule
  | set field rule => return if (finding.getD field .null).truthy then [rule] else []
  | above field limit rule => do
    return if ← (finding.getD field (.int 0)).exceeds (.int limit) then [rule] else []

/-- Rules for calls that run code or commands. Where a subprocess is mentioned, `exec` does not count. -/
def ofDangerousWords : List (List String × String) :=
  [(["eval"], "PY-EVAL-001"), (["subprocess"], "PY-CMDI-001"), (["exec"], "PY-EXEC-001"),
   (["os.system", "os.popen"], "PY-CMDI-001")]

def all : List Clause := [
  calls "dangerous_calls" ofDangerousWords none,
  calls "deserialization_calls" [(["dill", "cloudpickle"], "PY-DESER-002")] (some "PY-DESER-001"),
  set "ssrf_calls" "PY-SSRF-001",
  set "path_traversal_calls" "PY-PATH-001",
  set "xxe_calls" "PY-XXE-001",
  calls "weak_crypto_calls" [(["DES", "ARC4"], "PY-CRYPTO-002")] (some "PY-CRYPTO-001"),
  set "template_injection_calls" "PY-TMPL-001",
  set "open_redirect_calls" "PY-REDIR-001",
  set "ldap_injection_calls" "PY-LDAP-001",
  set "sensitive_data_involved" "PY-SECRET-001",
  above "cyclomatic_complexity" 15 "PY-COMPLEX-001",
  above "max_nesting_depth" 5 "PY-NESTING-001"]

end Clause

/-- The rules whose clauses hold of a finding, in the order of the clauses. -/
def rulesOf : Except Fault (List String) := do
  return (← Clause.all.mapM (·.rules finding)).flatten

/-- Severity weighed by confidence, blended with a model's score and kept between zero and one. The
arithmetic may be that of doubles or exact; `fromNat` gives the numbers of its kind. -/
def blend {α : Type} [Add α] [Mul α] [Div α] [LT α] [DecidableLT α] (fromNat : Nat → α)
    (severity : Severity) (confidence : Confidence) (staticWeight scoreWeight score : α) : α :=
  let static := fromNat severity.rank / fromNat 4 * (fromNat confidence.rank / fromNat 3)
  let combined := staticWeight * static + scoreWeight * score
  if combined < fromNat 0 then fromNat 0
  else if fromNat 1 < combined then fromNat 1
  else combined

def score (severity : Severity) (confidence : Confidence) (modelScore : Float) : Float :=
  blend Float.ofNat severity confidence 0.6 0.4 modelScore

/-- The gravest of the grades of the rules that apply. -/
def gradeOf : Except Fault Grade := do
  return Grade.gravest ((← rulesOf finding).filterMap Grade.find?)

/-- A finding with its grade and the score that combines it with the model's. -/
def classify (finding : Value) : Except Fault Record := do
  let fields ← finding.fields
  let grade ← gradeOf fields
  let modelScore ← (fields.getD "vuln_score" (.float 0.5)).readDouble
  let combined := score grade.severity grade.confidence modelScore
  return fields.put "severity" (.str grade.severity.word)
    |>.put "confidence" (.str grade.confidence.word)
    |>.put "rule_id" (.str grade.id)
    |>.put "rule_description" (.str grade.description)
    |>.put "combined_score" (.float (Decimal.roundTo 3 combined))

end Classification

/-! ## Order and threshold -/

/-- The severity that a finding states; without one it is low. -/
def Severity.ofFinding (finding : Value) : Except Fault Severity := do
  return Severity.ofText (← (← finding.part "severity" (.str "low")).asText)

/-- The findings at least as grave as a word says; those below are left out. -/
def atLeastSeverity (least : String) (findings : List Value) : Except Fault (List Value) :=
  findings.filterM fun f => do return (Severity.ofText least).rank ≤ (← Severity.ofFinding f).rank

structure SortKey where
  severity : Severity
  score : Value

namespace SortKey

def ofFinding (finding : Value) : Except Fault SortKey := do
  return { severity := ← Severity.ofFinding finding, score := ← finding.part "combined_score" (.float 0.0) }

/-- Whether a key is below another one: by severity, and by score where severities are equal. -/
def isBelow (a b : SortKey) : Bool :=
  a.severity.rank < b.severity.rank
    || (a.severity.rank == b.severity.rank && (a.score.lessThan b.score).toOption == some true)

/-- Whether two keys can be ordered: their scores have an order, are equal, or do not matter. -/
def comparable (a b : SortKey) : Bool :=
  a.severity.rank != b.severity.rank || a.score.same b.score || (a.score.order b.score).toOption.isSome

end SortKey

/-- The findings ordered by severity and score; findings with equal keys keep their order. -/
def sortBySeverity (descending : Bool) (findings : List Value) : Except Fault (List Value) := do
  let keyed ← findings.mapM fun f => do return (← SortKey.ofFinding f, f)
  if !keyed.all fun a => keyed.all fun b => a.1.comparable b.1 then throw .wrongKind
  let inOrder (a b : SortKey × Value) : Bool :=
    if descending then !a.1.isBelow b.1 else !b.1.isBelow a.1
  return (keyed.mergeSort inOrder).map (·.2)

end CodeAudit

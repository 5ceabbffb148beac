import CodeAudit.Files.Tree
import CodeAudit.Json.Writer
import CodeAudit.Report.Basic

/-!
# The SARIF report

The report for code scanning services: the rules that occur, and for each finding the place of its rule in that list, a
message, a location with the lines around it, and a fingerprint.
-/

namespace CodeAudit.SarifReport

open Report

structure ReportRule where
  id : String
  name : String
  short : String
  full : String
  anchor : String
  level : String
  tags : List String

def rules : List ReportRule := [
  { id := "VP001", name := "TaintedDataFlow", short := "Tainted data flows from source to dangerous sink"
    full := "A variable assigned from an untrusted source (e.g., input(), request.args) flows to a dangerous "
      ++ "sink (e.g., eval(), exec(), cursor.execute()) without sanitization."
    anchor := "taint-analysis", level := "error", tags := ["security", "taint-analysis", "CWE-20"] },
  { id := "VP002", name := "InterproceduralTaintFlow"
    short := "Tainted data flows across function boundaries to a dangerous sink"
    full := "An interprocedural taint analysis detected that untrusted data crosses function call boundaries "
      ++ "and reaches a dangerous sink."
    anchor := "interprocedural-taint", level := "error"
    tags := ["security", "taint-analysis", "interprocedural", "CWE-20"] },
  { id := "VP003", name := "DangerousFunction", short := "Use of dangerous function"
    full := "A dangerous function (e.g., eval, exec, os.system) was called. These functions can lead to code "
      ++ "injection if used with untrusted input."
    anchor := "dangerous-functions", level := "warning", tags := ["security", "dangerous-function", "CWE-78"] },
  { id := "VP004", name := "HardcodedSecret", short := "Hardcoded secret or credential detected"
    full := "A variable name suggests it contains a secret (e.g., password, API key, token) and is assigned a "
      ++ "hardcoded string literal."
    anchor := "hardcoded-secrets", level := "error", tags := ["security", "secrets", "CWE-798"] },
  { id := "VP005", name := "HighComplexity", short := "Function has high cyclomatic complexity"
    full := "A function exceeds the cyclomatic complexity threshold, making it harder to test, maintain, and "
      ++ "reason about for security."
    anchor := "complexity", level := "note", tags := ["maintainability", "complexity"] },
  { id := "VP006", name := "JavaScriptVulnerability", short := "JavaScript security vulnerability detected"
    full := "A JavaScript-specific vulnerability pattern was detected, such as eval() usage, DOM XSS, or use of "
      ++ "dangerous APIs."
    anchor := "javascript-analysis", level := "warning", tags := ["security", "javascript"] }]

def ReportRule.toValue (r : ReportRule) : Value :=
  .obj [("id", .str r.id), ("name", .str r.name), ("shortDescription", .obj [("text", .str r.short)]),
    ("fullDescription", .obj [("text", .str r.full)]), ("helpUri", .str (toolPage ++ "#" ++ r.anchor)),
    ("defaultConfiguration", .obj [("level", .str r.level)]),
    ("properties", .obj [("tags", .texts r.tags)])]

def ruleOfType : String → String
  | "taint_analysis" => "VP001"
  | "interprocedural_taint" => "VP002"
  | "dangerous_function" => "VP003"
  | "hardcoded_secret" => "VP004"
  | "high_complexity" => "VP005"
  | "js_vulnerability" => "VP006"
  | "dangerous_js_function" => "VP006"
  | _ => "VP003"

variable (finding : Record)

def ruleOf : Except Fault String :=
  match finding.getD "type" (.str "") with
  | .str kind => .ok (ruleOfType kind)
  | other => if other.hashable then .ok (ruleOfType "") else .error .wrongKind

/-- The level of a finding: by its score where it has one, else by its type. -/
def levelOf : Except Fault String := do
  match finding.getD "vuln_score" .null with
  | .null =>
    let kind := finding.getD "type" (.str "")
    return if kind.isWordOf ["taint_analysis", "interprocedural_taint", "hardcoded_secret"] then "error"
      else if kind.isWordOf ["high_complexity"] then "note"
      else "warning"
  | score =>
    match ← scoreBand score with
    | 2 => return "error"
    | 1 => return "warning"
    | _ => return "note"

/-- Texts with a separator between them; other kinds cannot be joined. -/
def joinTexts (separator : String) (v : Value) : Except Fault String := do
  let parts ← (← v.elements).mapM fun
    | .str s => Except.ok s
    | _ => .error Fault.wrongKind
  return Text.join separator parts

def message : Except Fault String := do
  let unknown (name : String) := (finding.getD name (.str "unknown")).text
  let sink := unknown "sink"
  match finding.getD "type" (.str "") with
  | .str "taint_analysis" =>
    let var := unknown "variable"
    return s!"Tainted variable '{var}' flows to dangerous sink '{sink}'"
  | .str "interprocedural_taint" =>
    let var := unknown "tainted_var"
    let chain ← joinTexts " -> " (finding.getD "call_chain" (.list []))
    return s!"Interprocedural taint: '{var}' reaches '{sink}' via {chain}"
  | .str "dangerous_function" => return "Dangerous function call: " ++ unknown "function"
  | .str "hardcoded_secret" =>
    let var := unknown "variable"
    return s!"Hardcoded secret detected in variable '{var}'"
  | .str "high_complexity" =>
    return "High cyclomatic complexity: " ++ (finding.getD "complexity" (.str "?")).text
  | _ => return (finding.getD "message" (.str (Value.obj finding).text)).text

/-! ## Locations -/

/-- The line of a finding: a whole number from one on, and one where it states none. -/
def lineOf : Value :=
  match firstOf finding ["line", "sink_line"] (.int 1) with
  | .int n => if n < 1 then .int 1 else .int n
  | .bool true => .bool true
  | _ => .int 1

structure Snippet where
  line : String
  context : String

def snippetAt? (lines : List (List Char)) (number : Nat) : Option Snippet :=
  if number < 1 then none
  else match lines[number - 1]? with
    | none => none
    | some line => some {
        line := String.ofList (Chars.trimEnd (· == '\n') line)
        context := String.ofList ((lines.drop (number - 3)).take (number + 2 - (number - 3))).flatten }

variable (files : FileTree) (scanPath : Value) (findings : List Value)

def snippetOfFile? (path : String) (number : Nat) : Option Snippet :=
  if files.isFile path then
    match files.text .mark path with
    | .ok text => snippetAt? (Chars.keptLines text.toList) number
    | .error _ => none
  else none

/-- The snippet of a finding: its path counts from what was scanned, or else from where one stands. -/
def snippet? (scanPath path : String) (number : Nat) : Option Snippet :=
  let below := if scanPath.isEmpty then path else Path.join scanPath path
  (snippetOfFile? files below number).orElse fun _ => snippetOfFile? files path number

def contextRegion (number : Nat) (snippet : Snippet) : Value :=
  .obj [("startLine", .int (max 1 ((number : Int) - 2))), ("endLine", .int ((number : Int) + 2)),
    ("snippet", .obj [("text", .str snippet.context)])]

/-- What was scanned, as a path; what counts as false is no path, and other kinds cannot be one. -/
def scanPathOf : Value → Except Fault String
  | .str path => .ok path
  | other => if other.truthy then .error .wrongKind else .ok ""

/-- The path of a finding; an absolute one is written relative to what was scanned. -/
def pathOf (scanPath : String) (home : List String) : Except Fault String :=
  match firstOf finding ["file", "filename"] (.str "unknown") with
  | .str path => .ok (if Path.isAbsolute path && !scanPath.isEmpty then Path.relative path scanPath home else path)
  | _ => .error .wrongKind

def location (finding : Record) (scanned : Value) : Except Fault Value := do
  let scanPath ← scanPathOf scanned
  let path ← pathOf finding scanPath files.home
  let line := lineOf finding
  let number := match line with
    | .int n => n.toNat
    | _ => 1
  let artifact : Value := .obj [("uri", .str path), ("uriBaseId", .str "%SRCROOT%")]
  let region : Record := [("startLine", line), ("startColumn", .int 1)]
  match snippet? files scanPath path number with
  | none => return .obj [("physicalLocation", .obj [("artifactLocation", artifact), ("region", .obj region)])]
  | some found =>
    let shown := region ++ [("snippet", .obj [("text", .str found.line)])]
    return .obj [("physicalLocation", .obj [("artifactLocation", artifact), ("region", .obj shown),
      ("contextRegion", contextRegion number found)])]

/-! ## Results -/

def placeInRules (id : String) : Nat := (rules.findIdx? (·.id == id)).getD 0

def fingerprint (rule : String) : String :=
  Text.join "/" [rule, (firstOf finding ["file", "filename"] (.str "")).text,
    (firstOf finding ["line", "sink_line"] (.str "")).text,
    (firstOf finding ["variable", "tainted_var", "function"] (.str "")).text]

def properties : Record :=
  [("vuln_score", "confidence"), ("trace", "trace"), ("call_chain", "callChain")].filterMap fun (name, shown) =>
    (finding.get? name).map fun v => (shown, v)

structure Result where
  ruleId : String
  ruleIndex : Value
  level : String
  message : String
  location : Value
  fingerprint : String
  properties : Record

def Result.toRecord (r : Result) : Record :=
  [("ruleId", .str r.ruleId), ("ruleIndex", r.ruleIndex), ("level", .str r.level),
   ("message", .obj [("text", .str r.message)]), ("locations", .list [r.location]),
   ("fingerprints", .obj [("vulnpredict/v1", .str r.fingerprint)])]
  ++ (if r.properties.isEmpty then [] else [("properties", .obj r.properties)])

/-- The place of a rule: among given places, or else in the full list. -/
def placeOf (places : Value) (rule : String) : Except Fault Value := do
  if places.truthy then
    if ← (Value.str rule).member places then return ← places.need rule
  return .nat (placeInRules rule)

/-- The result of a finding; `places` gives the places of rules in the list of the report, and the full
list counts for others. -/
def result (scanPath places finding : Value) : Except Fault Result := do
  let fields ← finding.fields
  let ruleId ← ruleOf fields
  let ruleIndex ← placeOf places ruleId
  let level ← levelOf fields
  let text ← message fields
  let place ← location files fields scanPath
  return {
    ruleId, ruleIndex, level, message := text, location := place
    fingerprint := fingerprint fields ruleId
    properties := properties fields }

/-- The rules that findings refer to, in the order in which they are listed. -/
def usedRules (ids : List String) : List ReportRule := rules.filter fun r => ids.contains r.id

def placesOf (listed : List ReportRule) : Record :=
  (listed.zip (List.range listed.length)).map fun (r, place) => (r.id, .nat place)

def run : Except Fault (List ReportRule × List Result) := do
  let ids ← findings.mapM fun f => do ruleOf (← f.fields)
  let listed := usedRules ids
  let results ← findings.mapM (result files scanPath (.obj (placesOf listed)))
  return (listed, results)

def document : Except Fault Value := do
  let (listed, results) ← run files scanPath findings
  let tool : Value := .obj [("name", .str "VulnPredict"), ("version", .str toolVersion),
    ("informationUri", .str toolPage), ("rules", .list (listed.map (·.toValue)))]
  return .obj [
    ("$schema", .str ("https://raw.githubusercontent.com/oasis-tcs/sarif-spec/main/sarif-2.1/schema/"
      ++ "sarif-schema-2.1.0.json")),
    ("version", .str "2.1.0"),
    ("runs", .list [.obj [("tool", .obj [("driver", tool)]),
      ("results", .list (results.map fun r => .obj r.toRecord)), ("columnKind", .str "utf16CodeUnits")]])]

def write : Except Fault String := do
  Json.writeWithin .pretty (← document files scanPath findings)

end CodeAudit.SarifReport

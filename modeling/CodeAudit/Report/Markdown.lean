import CodeAudit.Report.Basic

/-!
# The Markdown report

A summary to post as a comment: counts by severity, a table of the gravest findings, and details that
unfold.
-/

namespace CodeAudit.MarkdownReport

open Report

inductive Level where
  | critical
  | high
  | medium
  | low
  | info
  deriving DecidableEq

namespace Level

def all : List Level := [.critical, .high, .medium, .low, .info]

def word : Level → String
  | .critical => "critical"
  | .high => "high"
  | .medium => "medium"
  | .low => "low"
  | .info => "info"

def rank (l : Level) : Nat := all.idxOf l

def sign : Level → String
  | .critical => "🔴"
  | .high => "🟠"
  | .medium => "🟡"
  | .low => "🟢"
  | .info => "🔵"

def label (l : Level) : String := l.sign ++ " " ++ Text.capitalize l.word

end Level

variable (finding : Record)

/-- The severity of a finding: the one it states, else by its score. -/
def levelOf : Except Fault Level := do
  let stated := Text.lower (← (finding.getD "severity" (.str "")).asText)
  match Level.all.find? (·.word == stated) with
  | some level => return level
  | none =>
    match finding.getD "vuln_score" .null with
    | .null => return .medium
    | score =>
      match ← scoreBand score with
      | 2 => return .high
      | 1 => return .medium
      | _ => return .low

def message : String :=
  let orMark (name : String) := (finding.getD name (.str "?")).text
  match finding.get? "rule_description", finding.get? "message" with
  | some v, _ => v.text
  | none, some v => v.text
  | none, none =>
    match finding.getD "type" (.str "") with
    | .str "dangerous_function" => "Dangerous function call: " ++ orMark "function"
    | .str "taint_analysis" => flow finding
    | .str "interprocedural_taint" => flow finding
    | .str "hardcoded_secret" => "Hardcoded secret: " ++ orMark "variable"
    | .str "high_complexity" => "High cyclomatic complexity: " ++ orMark "complexity"
    | _ => (finding.getD "name" (.str "Unknown finding")).text
where
  flow (finding : Record) : String :=
    let sink := (finding.getD "sink" (.str "?")).text
    let var := (firstOf finding ["variable", "tainted_var"] (.str "?")).text
    s!"Tainted variable `{var}` flows to sink `{sink}`"

def location : String :=
  let file := firstOf finding ["file", "filename"] (.str "")
  let line := firstOf finding ["line", "sink_line"] (.str "")
  if !file.truthy then ""
  else if line.truthy then s!"`{file.text}:{line.text}`"
  else s!"`{file.text}`"

structure Ranked where
  finding : Record
  level : Level
  score : Number

/-- A number that counts as false is zero; what is no number has no opposite. -/
def sortScore : Except Fault Number :=
  let score := finding.getD "vuln_score" (.int 0)
  if !score.truthy then .ok (.whole 0)
  else match score.number? with
    | some n => .ok n
    | none => .error .wrongKind

/-- Whether a finding may stand before another: graver, or equally grave with no lower score. -/
def Ranked.before (a b : Ranked) : Bool :=
  a.level.rank < b.level.rank || (a.level.rank == b.level.rank && a.score.compare? b.score != some .lt)

/-- The findings, the gravest first and those with higher scores before others. -/
def ranked (findings : List Record) (levels : List Level) : Except Fault (List Ranked) := do
  let all ← (findings.zip levels).mapM fun (finding, level) => do
    return { finding, level, score := ← sortScore finding : Ranked }
  return all.mergeSort Ranked.before

def countLines (levels : List Level) : List String :=
  ["| Severity | Count |", "|---|---|"]
    ++ [Level.critical, .high, .medium, .low].map (fun level =>
      let count := (levels.filter (· = level)).length
      s!"| {level.label} | {count} |")
    ++ [""]

variable (facts : Facts) (findings : List Value) (all : List Ranked)

def factLine : Except Fault String := do
  let files := match facts.fileCount with
    | .null => []
    | given => ["**Files scanned**: " ++ given.text]
  let duration ← match facts.duration with
    | .null => pure []
    | given => do pure ["**Duration**: " ++ (← twoPlaces given) ++ "s"]
  let suppressed ←
    if ← facts.suppressed.exceeds (.int 0) then pure ["**Suppressed**: " ++ facts.suppressed.text] else pure []
  return Text.join " | " ([s!"**Path**: `{facts.path.text}`"] ++ files ++ duration ++ suppressed)

def row (number : Nat) (r : Ranked) : String :=
  let text := Text.replaceAll (message r.finding) "|" "\\|"
  s!"| {number} | {r.level.label} | {location r.finding} | {text} |"

def tableSize : Nat := 20

def detailSize : Nat := 50

def numbered (items : List Ranked) : List (Nat × Ranked) := (List.range items.length).map (· + 1) |>.zip items

def tableLines : List String :=
  let more := all.length - tableSize
  ["### Top Findings", "", "| # | Severity | Location | Description |", "|---|---|---|---|"]
    ++ (numbered (all.take tableSize)).map (fun (number, r) => row number r)
    ++ (if more == 0 then [] else [s!"| | | | *... and {more} more findings* |"]) ++ [""]

def detailRow (field : String) (line : Value → Except Fault String) : Except Fault (List String) := do
  let v := finding.getD field (.str "")
  if v.truthy then return [← line v] else return []

def traceLines : List String :=
  let trace := firstOf finding ["trace", "call_chain"] .null
  if !trace.truthy then []
  else
    let steps := match trace with
      | .list items => items.map fun step => "  " ++ step.text
      | other => ["  " ++ other.text]
    ["", "**Trace**:", "```"] ++ steps ++ ["```"]

def detailLines (number : Nat) (r : Ranked) : Except Fault (List String) := do
  let f := r.finding
  let place := location f
  let kind ← detailRow f "type" fun v => return s!"| **Type** | {v.text} |"
  let rule ← detailRow f "rule_id" fun v => return s!"| **Rule** | `{v.text}` |"
  let weakness ← detailRow f "cwe" fun v => do
    let name ← v.asText
    let page := Text.replaceAll name "CWE-" ""
    return s!"| **CWE** | [{name}](https://cwe.mitre.org/data/definitions/{page}.html) |"
  let score ← match f.getD "vuln_score" .null with
    | .null => pure []
    | given => do pure ["| **Score** | " ++ (← twoPlaces given) ++ " |"]
  let confidence := match f.getD "confidence" (.str "") with
    | .float _ | .estimate _ => []
    | given => if given.truthy then [s!"| **Confidence** | {given.text} |"] else []
  return ["<details>", s!"<summary>{r.level.sign} <strong>#{number}</strong> {message f}</summary>", "",
      "| Field | Value |", "|---|---|", s!"| **Severity** | {Text.capitalize r.level.word} |"]
    ++ (if place.isEmpty then [] else [s!"| **Location** | {place} |"])
    ++ kind ++ rule ++ weakness ++ score ++ confidence ++ traceLines f ++ ["", "</details>", ""]

def detailsLines : Except Fault (List String) := do
  let each ← (numbered (all.take detailSize)).mapM fun (number, r) => detailLines number r
  let more := all.length - detailSize
  return ["### Finding Details", ""] ++ each.flatten
    ++ (if more == 0 then [] else [s!"*{more} additional findings omitted. "
      ++ "Run with `--format json` for the complete report.*", ""])

def heading (total : Nat) : String :=
  if total == 0 then "## ✅ VulnPredict Scan — No Findings"
  else s!"## ⚠️ VulnPredict Scan — {total} Finding" ++ (if total == 1 then "" else "s")

def lines : Except Fault (List String) := do
  let levelled ← findings.mapM fun f => do
    let fields ← f.fields
    return (fields, ← levelOf fields)
  let records := levelled.map (·.1)
  let levels := levelled.map (·.2)
  let start := [heading findings.length, ""] ++ countLines levels ++ [← factLine facts, ""]
  if findings.isEmpty then
    return start ++ ["No vulnerabilities detected. Great job!", ""]
  let all ← ranked records levels
  let details ← detailsLines all
  let moment := facts.now.dateText ++ " " ++ facts.now.minuteText ++ " UTC"
  return start ++ tableLines all ++ details
    ++ ["---", s!"*Generated by [VulnPredict]({toolPage}) at {moment}*", ""]

def write : Except Fault String := do
  return Text.join "\n" (← lines facts findings)

end CodeAudit.MarkdownReport

import CodeAudit.Json.Writer
import CodeAudit.Report.Basic
import CodeAudit.Report.Page

/-!
# The HTML report

One page with the numbers of findings by severity, three charts and a table of all findings.
-/

namespace CodeAudit.HtmlReport

open Report Text

/-! ## Severity -/

inductive Level where
  | critical
  | high
  | medium
  | low
  | info
  | unknown
  deriving DecidableEq

namespace Level

def all : List Level := [.critical, .high, .medium, .low, .info, .unknown]

def word : Level → String
  | .critical => "critical"
  | .high => "high"
  | .medium => "medium"
  | .low => "low"
  | .info => "info"
  | .unknown => "unknown"

def rank (l : Level) : Nat := all.idxOf l

def color : Level → String
  | .critical => "#dc2626"
  | .high => "#ea580c"
  | .medium => "#d97706"
  | .low => "#2563eb"
  | .info => "#6b7280"
  | .unknown => "#9ca3af"

end Level

variable (finding : Value)

/-- The severity of a finding: the one it states, else by its confidence. -/
def levelOf : Except Fault Level := do
  let stated := strip (lower (← finding.part "severity" (.str "")).text)
  match Level.all.find? (·.word == stated) with
  | some level => return level
  | none =>
    let confidence ← (← finding.part "confidence" (.str "")).asText
    return if strip (lower confidence) == "high" then .high else .medium

/-! ## Charts -/

/-- The values with their numbers of occurrence, in order of first occurrence; only values that can
name an entry are counted. -/
def tally (values : List Value) : Except Fault (List (Value × Nat)) :=
  values.foldlM (fun counts v =>
    if !v.hashable then .error .wrongKind
    else if counts.any (·.1.same v) then
      .ok (counts.map fun entry => if entry.1.same v then (entry.1, entry.2 + 1) else entry)
    else .ok (counts ++ [(v, 1)])) []

/-- How many entries are asked for: nothing asks for all of them, and a number must be whole unless it is
one. -/
def limitOf : Value → Except Fault (Option Int)
  | .null => .ok none
  | .bool b => .ok (some (if b then 1 else 0))
  | .int n => .ok (some n)
  | .float x | .estimate x => if x == 1.0 then .ok (some 1) else .error .wrongKind
  | _ => .error .wrongKind

/-- The most frequent entries, at most `limit` where one is given; of equally frequent ones the first. -/
def mostCommon (limit : Option Int) (counts : List (Value × Nat)) : List (Value × Nat) :=
  let sorted := counts.mergeSort fun a b => b.2 ≤ a.2
  match limit with
  | some n => sorted.take n.toNat
  | none => sorted

structure Chart where
  labels : List Value
  values : List Nat

def Chart.ofCounts (counts : List (Value × Nat)) : Chart :=
  { labels := counts.map (·.1), values := counts.map (·.2) }

variable (levels : List Level)

def levelCounts : List (Level × Nat) :=
  (Level.all.map fun level => (level, (levels.filter (· = level)).length)).filter (0 < ·.2)

def levelChart : Chart :=
  { labels := (levelCounts levels).map fun entry => .str (capitalize entry.1.word)
    values := (levelCounts levels).map (·.2) }

def levelColors : List String := (levelCounts levels).map (·.1.color)

def fieldOr (names : List String) (default : Value) : Except Fault Value := do
  return firstOf (← finding.fields) names default

variable (findings : List Value)

/-- The chart of the files with most findings, by the last component of their paths. -/
def fileChart (limit : Value := .int 10) : Except Fault Chart := do
  let counts ← tally (← findings.mapM fun f => fieldOr f ["file", "filename"] (.str "unknown"))
  let common := mostCommon (← limitOf limit) counts
  let labels ← common.mapM fun entry => do
    return Value.str (((Text.fields '/' (← entry.1.asText)).getLast?).getD "")
  return { labels, values := common.map (·.2) }

def typeChart : Except Fault Chart := do
  let counts ← tally (← findings.mapM fun f => fieldOr f ["type", "rule_id"] (.str "unknown"))
  return Chart.ofCounts (mostCommon (some 8) counts)

/-! ## Rows -/

def escapeChar : Char → List Char
  | '&' => "&amp;".toList
  | '<' => "&lt;".toList
  | '>' => "&gt;".toList
  | '"' => "&quot;".toList
  | '\'' => "&#x27;".toList
  | c => [c]

def escapeText (s : String) : String := String.ofList (s.toList.flatMap escapeChar)

/-- A value as it stands in markup; what counts as false is left out. -/
def escape (v : Value) : String := if v.truthy then escapeText v.text else ""

def remedies : List (String × String) := [
  ("eval_usage", "Replace eval() with ast.literal_eval() or a safe parser."),
  ("exec_usage", "Avoid exec(). Use a restricted execution environment if dynamic code is required."),
  ("hardcoded_secret", "Move secrets to environment variables or a secrets manager."),
  ("subprocess_injection", "Use a list of arguments instead of shell=True. Validate all inputs."),
  ("sql_injection", "Use parameterized queries or an ORM instead of string formatting."),
  ("taint_flow", "Sanitize or validate all user inputs before passing to sensitive sinks."),
  ("dangerous_function", "Avoid eval(), Function(), setTimeout/setInterval with string arguments."),
  ("xss", "Sanitize user input with DOMPurify or equivalent before inserting into the DOM."),
  ("high_complexity", "Refactor into smaller functions. Aim for cyclomatic complexity < 10.")]

def remedy : Except Fault String := do
  let kind := Text.lower (← (← fieldOr finding ["type", "rule_id"] (.str "")).asText)
  return ((remedies.find? fun entry => Text.contains kind entry.1).map (·.2)).getD
    "Review the finding and apply appropriate security controls."

def scoreText (v : Value) : Except Fault String :=
  match v.number? with
  | some _ => twoPlaces v
  | none => .ok "—"

/-- A row of the table, its cells already escaped. -/
structure Row where
  level : Level
  file : String
  line : String
  function : String
  kind : String
  detail : String
  remedy : String
  score : String

def rowOf (level : Level) (finding : Value) : Except Fault Row := do
  let fields ← finding.fields
  let cell (names : List String) := escape (firstOf fields names (.str "—"))
  return {
    level
    file := cell ["file", "filename"]
    line := (firstOf fields ["line", "lineno"] (.str "—")).text
    function := cell ["function", "name"]
    kind := cell ["type", "rule_id"]
    detail := cell ["detail", "message", "issue_text"]
    remedy := escapeText (← remedy finding)
    score := ← scoreText (fields.getD "score" .null) }

def Row.markup (r : Row) (number : Nat) : String :=
  let badge := "<span class=\"severity-badge\" style=\"background:" ++ r.level.color ++ "\">"
    ++ upper r.level.word ++ "</span>"
  let cell (content : String) := "          <td>" ++ content ++ "</td>"
  join "\n" ["", "        <tr>", cell (toString number), cell badge,
    "          <td class=\"filepath\">" ++ r.file ++ "</td>", cell r.line, cell r.function, cell r.kind,
    cell r.detail, cell r.remedy, cell r.score, "        </tr>"]

/-- The rows by level, the gravest first; findings of one level keep their order. -/
def rows : Except Fault (List Row) := do
  let levelled ← findings.mapM fun f => do return (← levelOf f, f)
  let sorted := levelled.mergeSort fun a b => a.1.rank ≤ b.1.rank
  sorted.mapM fun (level, f) => rowOf level f

def rowsMarkup (all : List Row) : String :=
  join "\n" ((all.zip (List.range all.length)).map fun (r, place) => r.markup (place + 1))

/-! ## The page -/

def card (style : String) (number label : String) : List String :=
  ["    <div class=\"card\">", "      <div class=\"number\"" ++ style ++ ">" ++ number ++ "</div>",
   "      <div class=\"label\">" ++ label ++ "</div>", "    </div>"]

def levelCard (level : Level) : List String :=
  card (" style=\"color:" ++ level.color ++ "\"") (toString (levels.filter (· = level)).length)
    (capitalize level.word)

def scriptList (items : List Value) : String := Json.write .line (.list items)

def Chart.script (c : Chart) : String := scriptList c.labels ++ ", " ++ scriptList (c.values.map .nat)

def write (facts : Facts) (findings : List Value) : Except Fault String := do
  let levels ← findings.mapM levelOf
  let files ← fileChart findings
  let types ← typeChart findings
  let table ← rows findings
  let duration ← twoPlaces facts.duration
  let total := toString findings.length
  let now := facts.now.dateText ++ " " ++ facts.now.secondText ++ " UTC"
  let cards := card "" total "Total Findings"
    ++ [Level.critical, .high, .medium, .low].flatMap (levelCard levels)
    ++ card "" facts.fileCount.text "Files Scanned"
  return Page.start ++ escape facts.path ++ "</strong> on " ++ now ++ "</p>\n\n  <div class=\"cards\">\n"
    ++ join "\n" cards ++ "\n" ++ Page.charts ++ rowsMarkup table ++ Page.footer ++ duration
    ++ "s &bull; " ++ total ++ " findings across " ++ facts.fileCount.text ++ Page.script
    ++ (levelChart levels).script ++ ", " ++ scriptList ((levelColors levels).map .str)
    ++ ");\n  drawBar('fileChart', " ++ files.script ++ ", '#3b82f6');\n  drawBar('typeChart', "
    ++ types.script ++ Page.finish

end CodeAudit.HtmlReport

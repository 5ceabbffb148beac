import CodeAudit.Audit.Scan
import CodeAudit.Command.Session
import CodeAudit.Report.Html
import CodeAudit.Report.Markdown
import CodeAudit.Report.Plain
import CodeAudit.Report.Sarif
import CodeAudit.Suppression.Saving

/-!
# The scan command

Scans a project and reports what it finds, in one of five formats, on the terminal or in a file.
-/

namespace CodeAudit.Command

inductive Format where
  | text
  | json
  | sarif
  | html
  | markdown
  deriving DecidableEq, Repr

namespace Format

def word : Format → String
  | text => "text"
  | json => "json"
  | sarif => "sarif"
  | html => "html"
  | markdown => "markdown"

def all : List Format := [text, json, sarif, html, markdown]

def ofWord (s : String) : Format := (all.find? (·.word == s)).getD text

def note : Format → String
  | text => "Results"
  | json => "JSON results"
  | sarif => "SARIF results"
  | html => "HTML report"
  | markdown => "Markdown report"

/-- What ends a report in a file: the reports in the notation of programs end with a line end. -/
def fileEnd : Format → String
  | json | sarif => "\n"
  | _ => ""

end Format

def scanGrammar : Grammar where
  about := "Scan the given codebase for potential vulnerabilities."
  parameters := [{ name := "path" }]
  settings := [
    { names := ["--format"], kind := some (.choice (Format.all.map (·.word))), about := "Output format for scan results." },
    { names := ["--output", "-o"], kind := some (.path false), about := "Write output to a file instead of stdout." },
    { names := ["--compact"], about := "Produce minified JSON output (only with --format json)." },
    { names := ["--baseline"], kind := some (.path true),
      about := "Path to a previous scan result (JSON) for differential scanning." },
    { names := ["--show-suppressed"], about := "Include suppressed findings in the output." },
    { names := ["--min-severity"], kind := some (.choice ["low", "medium", "high", "critical"]),
      about := "Only show findings at or above this severity level." },
    { names := ["--rules-dir"], kind := some (.path true), repeats := true,
      about := "Additional directory of YAML rule files (may be repeated)." },
    { names := ["--profile"], kind := some (.choice (ScanProfile.known.map (·.name))),
      about := "Scan profile controlling analysis depth (default: standard)." },
    { names := ["--save-baseline"], kind := some (.path false),
      about := "Save current scan results as a baseline file for future differential scans." }]

structure ScanOptions where
  plan : Audit.Plan
  format : Format
  output : Option String
  compact : Bool
  showAside : Bool
  least : Option String
  saveBaseline : Option String

def ScanOptions.ofRequest (r : Request) : ScanOptions where
  plan :=
    { path := r.operand 0
      profile := ((r.value? "--profile").bind fun name => ScanProfile.known.find? (·.name == name)).getD .standard
      rules := r.all "--rules-dir"
      baseline := r.nonempty? "--baseline" }
  format := .ofWord ((r.value? "--format").getD "text")
  output := r.nonempty? "--output"
  compact := r.isOn "--compact"
  showAside := r.isOn "--show-suppressed"
  least := r.value? "--min-severity"
  saveBaseline := r.nonempty? "--save-baseline"

/-- The facts about a scan. It takes no time on the host's clock. -/
def scanFacts (path : String) : Action Report.Facts := do
  let host ← get
  return { path := .str path, duration := .float 0.0, fileCount := .nat (Audit.fileCount host.files path), now := host.now }

variable (o : ScanOptions) (facts : Report.Facts) (findings : List Value)

def reportText : Action String :=
  match o.format with
  | .json => Action.ofExcept (JsonReport.write facts findings o.compact)
  | .sarif => Action.reading (SarifReport.write · facts.path findings)
  | .html => Action.ofExcept (HtmlReport.write facts findings)
  | _ => Action.ofExcept (MarkdownReport.write facts findings)

/-- Where a report goes: a page has to go to a file. -/
def ScanOptions.destination : Option String :=
  match o.format with
  | .html => some (o.output.getD "vulnpredict-report.html")
  | _ => o.output

def noteWritten (format : Format) (path : String) : Session Unit :=
  Session.say s!"[VulnPredict] {format.note} written to {path}"

def reportDocument : Session Unit := do
  Session.guarded do
    let text ← Session.perform (reportText o facts findings)
    match o.destination with
    | some path =>
      Session.perform (Action.writeText path (text ++ o.format.fileEnd))
      noteWritten o.format path
    | none => Session.say text

/-- Reports findings for the terminal; a file gets one line for each. -/
def reportPlain (reported : List Value) (aside : List Suppression.Judged) : Session Unit := do
  (PlainReport.lines (reported.filterMap fun f => f.fields.toOption) o.least).forM Session.say
  (PlainReport.asideLines aside).forM Session.say
  let shownAside := if o.showAside then aside else []
  if !shownAside.isEmpty then
    ["", "=== Suppressed Findings ==="].forM Session.say
    (shownAside.map PlainReport.asideLine).forM Session.say
  match o.output with
  | none => return
  | some path =>
    let lines := (reported ++ shownAside.map (·.toValue)).map (·.text ++ "\n")
    Session.guardedFiles (Action.writeParts path lines)
    noteWritten .text path

/-- Keeps all findings of a scan, also those set aside, as a baseline for later ones. -/
def keepBaseline (path : String) (facts : Report.Facts) (judged : List Suppression.Judged) : Session Unit := do
  Session.perform (Baseline.save path facts (judged.map (·.toValue)))
  Session.say s!"[VulnPredict] Baseline saved to {path} ({judged.length} findings)"

def scan : Session Unit := do
  if !(← Session.files).isThere o.plan.path then Session.exit Session.failureCode
  let examined ← Session.perform (Audit.examine o.plan)
  let facts ← Session.perform (scanFacts o.plan.path)
  if let some path := o.saveBaseline then keepBaseline path facts examined.judged
  let reported ← Session.perform (examined.reported o.least)
  let aside := Suppression.aside examined.judged
  match o.format with
  | .text => reportPlain o reported aside
  | _ =>
    let shown := if o.showAside then reported ++ aside.map (·.toValue) else reported
    reportDocument o { facts with suppressed := .nat aside.length } shown
    (PlainReport.asideLines aside).forM Session.say

end CodeAudit.Command

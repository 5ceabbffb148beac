import CodeAudit.Report.Basic
import CodeAudit.Suppression.Apply

/-!
# The report for the terminal

One line for each finding, the gravest first, and how many there are of each severity.
-/

namespace CodeAudit.PlainReport

def severities : List String := ["Critical", "High", "Medium", "Low"]

def severityOf (finding : Record) : String := (finding.getD "severity" (.str "Low")).text

def scoreText (finding : Record) : String :=
  let score := Report.firstOf finding ["combined_score", "vuln_score"] (.int 0)
  Decimal.fixed 3 (score.toFloat?.toOption.getD 0.0)

def findingLine (finding : Record) : String :=
  let rule := (finding.getD "rule_id" (.str "UNKNOWN")).text
  let confidence := (finding.getD "confidence" (.str "Medium")).text
  let name := (Report.firstOf finding ["name", "file"] (.str "unknown")).text
  let description := (finding.getD "rule_description" (.str "")).text
  "[" ++ Text.padEnd 8 (severityOf finding) ++ "] [" ++ rule ++ "] (confidence=" ++ confidence ++ ", score="
    ++ scoreText finding ++ ") " ++ name ++ ": " ++ description

def countLine? (findings : List Record) (severity : String) : Option String :=
  let count := findings.countP fun f => severityOf f == severity
  if count == 0 then none else some ("  " ++ Text.padEnd 10 severity ++ ": " ++ toString count)

def lines (findings : List Record) (least : Option String) : List String :=
  if findings.isEmpty then ["No potential vulnerabilities found."]
  else
    ["", "=== Vulnerability Findings ==="] ++ findings.map findingLine ++ ["", "=== Summary ==="]
      ++ severities.filterMap (countLine? findings)
      ++ ["  " ++ Text.padEnd 10 "Total" ++ ": " ++ toString findings.length ++ " findings"]
      ++ (least.map fun word => "  (filtered to " ++ word ++ "+ severity)").toList

def asideLines (aside : List Suppression.Judged) : List String :=
  if aside.isEmpty then []
  else
    let words := aside.filterMap fun j => j.reason.map (·.word)
    ["", "[VulnPredict] " ++ toString aside.length ++ " finding(s) suppressed:"]
      ++ (Text.sortedSet words).map fun word => "  - " ++ word ++ ": " ++ toString (words.count word)

def asideLine (j : Suppression.Judged) : String :=
  "[suppressed:" ++ ((j.reason.map (·.word)).getD "unknown") ++ "] " ++ j.toValue.text

end CodeAudit.PlainReport

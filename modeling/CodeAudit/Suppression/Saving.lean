import CodeAudit.Host
import CodeAudit.Report.Json

/-!
# Saving a baseline

A baseline is the JSON report of the findings that it knows.
-/

namespace CodeAudit.Baseline

/-- Writes a report that can be loaded as a baseline. -/
def save (path : String) (facts : Report.Facts) (findings : List Value) : Action Unit := do
  Action.writeText path ((← Action.ofExcept (JsonReport.write facts findings)) ++ "\n")

end CodeAudit.Baseline

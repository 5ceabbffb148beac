import CodeAudit.Json.Reader
import CodeAudit.Calendar.Moment
import CodeAudit.Value.Access

/-!
# External programs

Linters that print a document, and the history of a file under version control. A program that is missing, fails or
prints something else has found nothing.
-/

namespace CodeAudit

structure ToolRun where
  output : String := ""
  code : Int := 0

/-- The other programs. What a linter or the analyzer of syntax prints is a matter of the file that it is given. -/
structure Tools where
  bandit : String → Option ToolRun := fun _ => none
  eslint : String → Option ToolRun := fun _ => none
  node : String → Option ToolRun := fun _ => none
  /-- What the calls of the version control program print, one after the other; none for a call
  that fails. -/
  git : List (Option String) := []

def ToolRun.result : Option ToolRun → Except Fault String
  | none => .error .notInstalled
  | some run => if run.code == 0 then .ok run.output else .error .toolFailed

def orNothing {α : Type} : Except Fault (List α) → List α
  | .ok found => found
  | .error _ => []

namespace Tools

def banditFindings (t : Tools) (path : String) : List Record := orNothing do
  let document ← Json.read (← ToolRun.result (t.bandit path))
  let issues ← (← document.part "results" (.list [])).elements
  issues.mapM fun issue => do
    return [("type", .str "bandit"), ("test_id", ← issue.part "test_id"),
            ("issue_text", ← issue.part "issue_text"), ("line_number", ← issue.part "line_number"),
            ("severity", ← issue.part "issue_severity"),
            ("confidence", ← issue.part "issue_confidence")]

def eslintFindings (t : Tools) (path : String) : List Record := orNothing do
  let document ← Json.read (← ToolRun.result (t.eslint path))
  let files ← document.elements
  let found ← files.mapM fun file => do
    (← (← file.part "messages" (.list [])).elements).mapM fun m => do
      return ([("type", .str "eslint"), ("ruleId", ← m.part "ruleId"), ("message", ← m.part "message"),
              ("line", ← m.part "line"), ("severity", ← m.part "severity")] : Record)
  return found.flatten

def nodeDocument (t : Tools) (path : String) : Value :=
  match ToolRun.result (t.node path) >>= Json.read with
  | .ok document => document
  | .error _ => .list []

def gitCall (t : Tools) : Option String × Tools :=
  match t.git with
  | output :: rest => (output, { t with git := rest })
  | [] => (none, t)

structure Churn where
  commits : Nat := 0
  authors : Nat := 0
  days : Int := 0

def Churn.toRecord (c : Churn) : Record :=
  [("commit_count", .nat c.commits), ("unique_authors", .nat c.authors), ("last_modified_days", .int c.days)]

/-- How a file has changed by now: its commits, its different authors, and the days since the last
change. All are zero where one of the calls fails. -/
def churn (now : Moment) (t : Tools) : Churn × Tools :=
  match t.gitCall with
  | (none, t1) => ({}, t1)
  | (some commits, t1) =>
    match t1.gitCall with
    | (none, t2) => ({}, t2)
    | (some authors, t2) =>
      match t2.gitCall with
      | (none, t3) => ({}, t3)
      | (some date, t3) =>
        match Moment.read? (Text.take 19 (Text.strip date)) with
        | none => ({}, t3)
        | some last =>
          ({ commits := commits.toList.count '\n'
             authors := (Chars.brokenLines authors.toList).eraseDups.length
             days := now.daysSince last }, t3)

end Tools

end CodeAudit

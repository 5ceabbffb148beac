import CodeAudit.Python.Flow
import CodeAudit.Host

/-!
# Python projects

All findings on the Python files of a directory: functions, what the linter says, tainted variables, each with how the
file has changed, and the dependencies. A file that is no program ends the analysis.
-/

namespace CodeAudit.Python

def withFields (finding fields : Record) : Record :=
  fields.foldl (fun r (k, v) => r.put k v) finding

def fileFindings (path : String) : Action (List Record) := do
  let changed := (← Action.churn).toRecord
  let functions ← Action.visiting fun room files => analyzeFile files path room
  let linted := (← get).tools.banditFindings path
  let tainted ← Action.visiting fun room files => taintFile files path room
  return (functions ++ linted ++ tainted).map (withFields · changed)

def projectDependencies (path : String) : Action DependencyReport := do
  let host ← get
  Action.lookingUp (pythonDependencies host.files host.index path)

/-- The findings on a project: those of its files in the order of the walk, then its dependencies. -/
def analyzeProject (path : String) : Action (List Record) := do
  let sources := ((← get).files.walk path).filter (Text.endsWith · ".py")
  let found ← sources.mapM fileFindings
  let dependencies ← projectDependencies path
  return found.flatten ++ dependencies.finding?

end CodeAudit.Python

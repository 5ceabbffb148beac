import CodeAudit.Host

/-!
# Javascript projects

What the syntax analyzer and the linter say about the Javascript files of a directory, and the
dependencies that the project declares.
-/

namespace CodeAudit.Javascript

def projectDependencies (path : String) : Action DependencyReport := do
  let host ← get
  Action.lookingUp (javascriptDependencies host.files path)

/-- The findings on a project. The analyzer's findings are taken as they are. -/
def analyzeProject (path : String) : Action (List Value) := do
  let host ← get
  let sources := (host.files.walk path).filter (Text.endsWith · ".js")
  let found ← sources.mapM fun file => do
    let parsed ← Action.ofExcept (host.tools.nodeDocument file).elements
    return parsed ++ (host.tools.eslintFindings file).map .obj
  let dependencies ← projectDependencies path
  return found.flatten ++ dependencies.finding?.map .obj

end CodeAudit.Javascript

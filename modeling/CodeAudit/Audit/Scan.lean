import CodeAudit.Findings.Classification
import CodeAudit.Rules.Index
import CodeAudit.Rules.Loading
import CodeAudit.Suppression.Apply
import CodeAudit.Config.Profile
import CodeAudit.Model.Example
import CodeAudit.Model.Label

/-!
# Scans

A scan collects the findings on a project, sets some aside and grades the others. Rules are read and indexed first, so
that faults in them end a scan early.
-/

namespace CodeAudit.Audit

open Action

/-! ## Collecting findings

The analyses that a profile asks for, one after another. An analysis that fails finds nothing and does
not keep the others from reporting. -/

def orNothing (analysis : Action (List Value)) : Action (List Value) :=
  tryCatch analysis fun _ => return []

def pythonFindings (path : String) : Action (List Value) := orNothing do
  return (← Python.analyzeProject path).map Value.obj

def scriptFindings (path : String) : Action (List Value) := orNothing (Javascript.analyzeProject path)

def flowFindings (path : String) : Action (List Value) := orNothing do
  return (← visiting fun room files => Python.analyzeFlows files path 10 room).map Value.obj

def onlyIf (wanted : Bool) (analysis : Action (List Value)) : Action (List Value) :=
  if wanted then analysis else return []

/-- What the analyses that a profile asks for find, in their order. -/
def collect (profile : ScanProfile) (path : String) : Action (List Value) := do
  let python ← onlyIf profile.patternMatching (pythonFindings path)
  let scripts ← onlyIf profile.javascript (scriptFindings path)
  let flows ← onlyIf profile.flows (flowFindings path)
  return python ++ scripts ++ flows

def fileCount (files : FileTree) (path : String) : Nat :=
  ((files.walk path).filter fun file =>
    [".py", ".js", ".jsx", ".ts", ".tsx"].any (Text.endsWith file ·)).length

/-! ### The classifier -/

def trainOnExample : Action Unit := do
  let findings ← onFiles ExampleProject.files (Label.projectFindings ExampleProject.directory)
  Label.store findings "labeled_findings.csv"
  Label.trainOn "labeled_findings.csv" true

/-- Whether a classifier is at hand. Where none is stored, one is trained on the example project. -/
def hasClassifier : Action Bool := do
  if (← get).files.isThere Classifier.standardPath then return true
  tryCatch (do trainOnExample; return true) fun _ => return false

/-- Findings with their scores; without them where scoring fails. -/
def scored (findings : List Value) : Action (List Value) :=
  tryCatch (reading (Classifier.predict · findings Classifier.standardPath)) fun _ => return findings

/-! ## Examining and grading -/

structure Plan where
  path : String
  profile : ScanProfile := .standard
  rules : List String := []
  baseline : Option String := none

/-- A project looked through: its findings, judged, and whether a classifier is there to score them. -/
structure Examined where
  judged : List Suppression.Judged
  scorable : Bool

/-- Reads rules and indexes them; a fault in one of them is a fault here. -/
def checkRules (directories : List String) : Action Unit := do
  let rules ← reading (Rules.all false · directories)
  let _ ← Action.ofExcept (RuleIndex.ofRules rules)

/-- Reads what a project sets aside, collects its findings and judges each of them. -/
def examineProject (path : String) (profile : ScanProfile) (baseline : Option String) : Action Examined := do
  let root := Path.absolute path (← get).files.home
  let ignore ← reading (IgnoreFile.ofProject · root)
  let baseline ← baseline.mapM fun path => reading (Baseline.load · path)
  let scorable ← if profile.scoring then hasClassifier else pure false
  let findings ← collect profile path
  let options := { root := .str root, patterns := .texts ignore.patterns, baseline }
  let judged ← reading (Suppression.judge options · findings)
  return { judged, scorable }

/-- Examines a project as a plan asks for, once the rules have been checked. -/
def examine (plan : Plan) : Action Examined := do
  checkRules plan.rules
  examineProject plan.path plan.profile plan.baseline

/-- Grades findings by how grave they are and puts the gravest first; with a least severity, those below
it are left out. -/
def graded (least : Option String) (findings : List Value) : Except Fault (List Value) := do
  let classified ← findings.mapM Classification.classify
  let sorted ← sortBySeverity true (classified.map .obj)
  match least with
  | none => return sorted
  | some word => atLeastSeverity word sorted

/-- The findings to report: the active ones, scored where that is wanted, graded and sorted. -/
def Examined.reported (e : Examined) (least : Option String) : Action (List Value) := do
  let active := Suppression.active e.judged
  let findings ← if e.scorable then scored active else pure active
  Action.ofExcept (graded least findings)

end CodeAudit.Audit

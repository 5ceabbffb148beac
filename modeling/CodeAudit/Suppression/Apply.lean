import CodeAudit.Suppression.Baseline
import CodeAudit.Suppression.Ignore
import CodeAudit.Regex.Pattern

/-!
# Suppressing findings

Findings are set aside by the list of ignored files, by marks in the source, and by a baseline, in this
order. A finding that is set aside says why.
-/

/-! ## Marks in source files

A comment may say that findings on its line are not reported: all of them, or those of some rules. -/

namespace CodeAudit

structure InlineMarks where
  rules : List (Nat × List String) := []
  lines : List Nat := []

inductive LineMark where
  | rules (ids : List String)
  | all

namespace InlineMarks

def rulesPattern (comment : String) : Regex := .anyCase (comment ++ "\\s*vulnpredict-ignore:\\s*(.+)")

def linePattern (comment : String) : Regex := .anyCase (comment ++ "\\s*vulnpredict-ignore-line")

def ids (text : List Char) : List String :=
  Text.sortedSet ((Chars.fieldsAt ',' text).map fun id => Text.upper (Text.strip (String.ofList id)))

def ofComment (rules line : Regex) (cs : List Char) : Option LineMark :=
  match rules.search? cs with
  | some found => some (.rules (ids ((found.group? 1).getD [])))
  | none => if line.occursIn cs then some .all else none

def hashRules : Regex := rulesPattern "#"

def hashLine : Regex := linePattern "#"

def slashRules : Regex := rulesPattern "//"

def slashLine : Regex := linePattern "//"

/-- What a line says; a hash comes before slashes. -/
def ofLine (cs : List Char) : Option LineMark :=
  (ofComment hashRules hashLine cs).orElse fun _ => ofComment slashRules slashLine cs

def ofLines : Nat → List (List Char) → InlineMarks
  | _, [] => {}
  | number, line :: rest =>
    let later := ofLines (number + 1) rest
    match ofLine line with
    | some (.rules ids) => { later with rules := (number, ids) :: later.rules }
    | some .all => { later with lines := number :: later.lines }
    | none => later

def ofFile (files : FileTree) (path : String) : Except Fault InlineMarks :=
  match files.text .mark path with
  | .ok text => .ok (ofLines 1 (Chars.keptLines text.toList))
  | .error fault => if fault.isOfFiles then .ok {} else .error fault

end InlineMarks

end CodeAudit

/-! ## Verdicts -/

namespace CodeAudit.Suppression

inductive Reason where
  | ignoredFile
  | markedLine
  | markedRule
  | knownBefore
  deriving DecidableEq, Repr

def Reason.word : Reason → String
  | .ignoredFile => "ignore_file"
  | .markedLine => "inline_ignore_line"
  | .markedRule => "inline_ignore_rule"
  | .knownBefore => "baseline"

structure Judged where
  finding : Record
  reason : Option Reason

/-- A judged finding as it is shown: one that is set aside says why. -/
def Judged.toValue (j : Judged) : Value :=
  match j.reason with
  | none => .obj j.finding
  | some reason => .obj (j.finding.put "suppression_reason" (.str reason.word))

structure Options where
  /-- The root of the project; paths of findings are taken as they are where it is empty. -/
  root : Value := .str ""
  patterns : Value := .list []
  baseline : Option Value := none

/-- The place of a finding's file, from the working directory. A whole number is that of an open file, about which the
tree knows nothing. -/
def fullPath (root path : Value) : Except Fault String :=
  match path, root with
  | .str p, .str r => .ok (if r.isEmpty then p else Path.join r p)
  | .str p, _ => if Path.isAbsolute p || !root.truthy then .ok p else .error .wrongKind
  | .int n, _ =>
    if root.truthy || n < -2 ^ 31 || 2 ^ 31 ≤ n then .error .wrongKind
    else if n < 0 then .error .meaningless
    else .ok ("/dev/fd/" ++ toString n)
  | _, _ => .error .wrongKind

def inlineReason? (marks : InlineMarks) (line : Value) (rule : String) : Except Fault (Option Reason) := do
  if !line.hashable then throw .wrongKind
  if marks.lines.any fun n => line.same (.nat n) then return some .markedLine
  let off := marks.rules.any fun entry => line.same (.nat entry.1) && entry.2.contains rule
  return if off then some .markedRule else none

variable (options : Options) (files : FileTree) (judged : List Judged) (findings : List Value)

def reason? (finding : Record) : Except Fault (Option Reason) := do
  let path := finding.getD "file" (.str "")
  let line := finding.getD "line" .null
  let rule := Text.upper (← (Baseline.ruleOf finding).asText)
  if !path.truthy then return none
  if ← IgnoreFile.matchedBy options.patterns path options.root files.home then return some .ignoredFile
  match line with
  | .null => return none
  | _ => inlineReason? (← InlineMarks.ofFile files (← fullPath options.root path)) line rule

/-- The verdicts on findings, the baseline apart. -/
def ofProject : Except Fault (List Judged) :=
  findings.mapM fun f => do
    let finding ← f.fields
    return { finding, reason := ← reason? options files finding }

/-- The verdict on a finding that a baseline may know: only one not set aside yet is looked up. -/
def againstKnown (known : Baseline.Known) (j : Judged) : Except Fault Judged := do
  if j.reason.isSome then return j
  else if ← known.has Baseline.standardTolerance (.obj j.finding) then
    return { j with reason := some .knownBefore }
  else return j

/-- Every finding with the reason to set it aside, if there is one. -/
def judge : Except Fault (List Judged) := do
  let judged ← ofProject options files findings
  match options.baseline with
  | none => return judged
  | some baseline =>
    let known ← Baseline.Known.ofFindings (← baseline.elements)
    judged.mapM (againstKnown known)

def active : List Value := (judged.filter (·.reason.isNone)).map (·.toValue)

def aside : List Judged :=
  let known := fun (j : Judged) => decide (j.reason = some .knownBefore)
  judged.filter (fun j => j.reason.isSome && !known j) ++ judged.filter known

/-- The active findings, and those set aside with their reasons. -/
def apply : Except Fault (List Value × List Value) := do
  let judged ← judge options files findings
  return (active judged, (aside judged).map (·.toValue))

end CodeAudit.Suppression

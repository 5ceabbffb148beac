import CodeAudit.Files.Tree
import CodeAudit.Json.Reader
import CodeAudit.Value.Access

/-!
# Baselines

Findings of an earlier scan need not be reported again. A finding is known if an earlier one has the same file, rule
and message, on the same line or one not far away.
-/

namespace CodeAudit.Baseline

/-- The findings in the report of an earlier scan; none where it cannot be read. -/
def load (files : FileTree) (path : String) : Except Fault Value := do
  match (files.text .refuse path).bind Json.read with
  | .ok document =>
    let findings ← document.part "findings" (.list [])
    let _ ← findings.size
    return findings
  | .error (.badJson _) => return .list []
  | .error fault => if fault.isOfFiles then return .list [] else throw fault

/-- What identifies a finding but for its line: file, rule and message. -/
structure Key where
  file : String
  rule : String
  message : String
  deriving DecidableEq

/-- What stands for a finding: its file, rule and message, and its line as written. -/
structure Print where
  key : Key
  line : String
  deriving DecidableEq

/-- A text among the parts of a print; other kinds cannot be joined. -/
def joinable : Value → Except Fault String
  | .str s => .ok s
  | _ => .error .wrongKind

def ruleOf (finding : Record) : Value := finding.getD "rule_id" (finding.getD "type" (.str ""))

def messageOf (finding : Record) : Value := finding.getD "message" (finding.getD "description" (.str ""))

def printOf (finding : Value) : Except Fault Print := do
  let fields ← finding.fields
  let file ← joinable (fields.getD "file" (.str ""))
  let rule ← joinable (ruleOf fields)
  let message ← joinable (messageOf fields)
  return { key := { file, rule, message }, line := (fields.getD "line" (.str "")).text }

def Print.text (p : Print) : String :=
  Text.join "|" [p.key.file, p.line, p.key.rule, p.key.message]

/-- What a baseline knows: the texts of prints, and the lines of each key. -/
structure Known where
  prints : List String
  lines : List (Key × Value)

def Known.ofFindings (findings : List Value) : Except Fault Known := do
  let prints ← findings.mapM printOf
  let lines ← findings.mapM fun f => f.part "line" (.int 0)
  if !lines.all Value.hashable then throw .wrongKind
  return { prints := prints.map (·.text), lines := (prints.map (·.key)).zip lines }

def distance (a b : Value) : Except Fault Value := do
  return (← (← a.toNumber).minus (← b.toNumber)).size.toValue

def isNear (tolerance line : Value) : List Value → Except Fault Bool
  | [] => .ok false
  | known :: rest => do
    if ← tolerance.atLeast (← distance line known) then return true
    isNear tolerance line rest

/-- Whether a finding is known: its print is, or one of the same key lies on a line near by. -/
def Known.has (known : Known) (tolerance finding : Value) : Except Fault Bool := do
  let print ← printOf finding
  if known.prints.contains print.text then return true
  let lines := (known.lines.filter fun entry => entry.1 == print.key).map (·.2)
  isNear tolerance (← finding.part "line" (.int 0)) lines

def standardTolerance : Value := .int 5

/-- The new findings and the known ones, each in their order. -/
def split (baseline : Value) (findings : List Value) (tolerance : Value := standardTolerance) :
    Except Fault (List Value × List Value) := do
  let known ← Known.ofFindings (← baseline.elements)
  let marked ← findings.mapM fun f => do return (f, ← known.has tolerance f)
  return ((marked.filter fun m => !m.2).map (·.1), (marked.filter (·.2)).map (·.1))

end CodeAudit.Baseline

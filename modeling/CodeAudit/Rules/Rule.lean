import CodeAudit.Value.Access

/-!
# Detection rules

A rule names what to look for and how to report it. Anyone may write rules, so one is read in two steps:
`Rule.problems` says what is wrong with a document, and `Rule.ofValue` builds the rule. A field whose kind nothing
depends on is kept as it was written.
-/

namespace CodeAudit

structure RulePattern where
  /-- The kind of pattern; only calls of functions are looked up by name. -/
  kind : Value
  name : Value := .null
  names : Value := .null
  regex : Value := .null

/-- A rule as a file states it. Most fields are kept as given, of whatever kind. -/
structure Rule where
  id : Value
  name : Value
  severity : Value
  message : Value
  pattern : RulePattern
  confidence : String
  languages : List String
  cwe : Value
  references : Value
  category : Value
  enabled : Value
  tags : Value
  sourceFile : Value

variable (data : Value) (id : String)

namespace RulePattern

def callKind : String := "function_call"

def kinds : List String := ["attribute_access", callKind, "import", "string_match"]

def ofValue : Except Fault RulePattern := do
  let fields ← data.fields
  return {
    kind := fields.getD "type" (.str callKind)
    name := fields.getD "name" .null
    names := fields.getD "names" .null
    regex := fields.getD "regex" .null }

variable (p : RulePattern)

def isCall : Bool := p.kind.isWordOf [callKind]

def matchesCall (function : Value) : Except Fault Bool :=
  if !p.isCall then .ok false
  else if p.name.truthy && function.same p.name then .ok true
  else if p.names.truthy then function.member p.names
  else .ok false

def written : Except Fault (List Value) :=
  (if p.names.truthy then p.names.elements else .ok []).map ((if p.name.truthy then [p.name] else []) ++ ·)

def once (all : List Value) : List Value :=
  all.foldl (fun kept v => if v.isOneOf kept then kept else kept ++ [v]) []

def allNames : Except Fault (List Value) := do
  let all ← p.written
  if all.all Value.hashable then return once all
  throw .wrongKind

end RulePattern

/-! ## What can be wrong with a rule -/

inductive RuleProblem where
  | missing (field source : String)
  | severity (id given : String)
  | confidence (id given : String)
  | patternKind (id given : String)
  | noNames (id : String)
  | language (id given : String)

namespace Rule

def requiredFields : List String := ["id", "message", "name", "pattern", "severity"]

def severities : List String := ["critical", "high", "info", "low", "medium"]

def confidences : List String := ["high", "low", "medium"]

def languageNames : List String := ["go", "javascript", "python", "typescript"]

end Rule

def RuleProblem.message : RuleProblem → String
  | .missing field source => s!"Missing required field '{field}' in rule from {source}"
  | .severity id given => s!"Rule {id}: invalid severity '{given}'. Must be one of "
      ++ (Value.texts Rule.severities).quoted
  | .confidence id given => s!"Rule {id}: invalid confidence '{given}'. Must be one of "
      ++ (Value.texts Rule.confidences).quoted
  | .patternKind id given => s!"Rule {id}: invalid pattern type '{given}'. Must be one of "
      ++ (Value.texts RulePattern.kinds).quoted
  | .noNames id => s!"Rule {id}: function_call pattern requires 'name' or 'names'"
  | .language id given => s!"Rule {id}: unsupported language '{given}'. Supported: "
      ++ (Value.texts Rule.languageNames).quoted

namespace Rule

def kindProblems (kind : Value) : Except Fault (List RuleProblem) :=
  if !kind.truthy || kind.isWordOf RulePattern.kinds then .ok []
  else if kind.isLookedUp then .ok [.patternKind id kind.text]
  else .error .wrongKind

def patternProblems (pattern : Record) : Except Fault (List RuleProblem) :=
  let kind := pattern.getD "type" (.str "")
  (kindProblems id kind).map (· ++ if kind.isWordOf [RulePattern.callKind] && !(pattern.getD "name" .null).truthy
      && !(pattern.getD "names" .null).truthy then [.noNames id] else [])

def languageProblems (languages : Value) : Except Fault (List RuleProblem) :=
  if !languages.truthy then .ok []
  else do
    let unknown ← (← languages.elements).filterM fun language => language.lowered.map (!·.isWordOf languageNames)
    return unknown.map fun language => .language id language.text

variable (fields : Record)

def patternOf : Option Record := (fields.getD "pattern" (.obj [])).namedFields

def fieldProblems : Except Fault (List RuleProblem) := do
  let id := (fields.getD "id" (.str "<no-id>")).text
  let severity ← (fields.getD "severity" (.str "")).lowered
  let confidence ← (fields.getD "confidence" (.str "medium")).lowered
  let ofPattern ← (patternOf fields).elim (.ok []) (patternProblems id)
  let ofLanguages ← languageProblems id (fields.getD "languages" (.list []))
  return (if !severity.truthy || severity.isWordOf severities then [] else [.severity id severity.text])
    ++ (if confidence.isWordOf confidences then [] else [.confidence id confidence.text])
    ++ ofPattern ++ ofLanguages

/-- What is wrong with the document of a rule that came from `source`; nothing is wrong with a valid
one. A field of a kind on which a check is not defined is a fault. -/
def problems (source : String := "<unknown>") : Except Fault (List RuleProblem) := do
  let absent ← requiredFields.filterM fun field => ((Value.str field).member data).map (!·)
  return absent.map (.missing · source) ++ (← fieldProblems (← data.fields))

def required (name : String) : Except Fault Value :=
  match Record.get? fields name with
  | some v => .ok v
  | none => .error .missingField

def ofFields (sourceFile : Value) : Except Fault Rule := do
  let id ← required fields "id"
  let name ← required fields "name"
  let severity ← (← required fields "severity").lowered
  let message ← required fields "message"
  let pattern ← RulePattern.ofValue (fields.getD "pattern" (.obj []))
  let confidence ← (fields.getD "confidence" (.str "medium")).asText
  let languages ← (← (fields.getD "languages" (.texts ["python"])).elements).mapM Value.asText
  return {
    id, name, severity, message, pattern, sourceFile
    confidence := Text.lower confidence
    languages := languages.map Text.lower
    cwe := fields.getD "cwe" .null
    references := fields.getD "references" (.list [])
    category := fields.getD "category" (.str "general")
    enabled := fields.getD "enabled" (.bool true)
    tags := fields.getD "tags" (.list []) }

def ofValue (sourceFile : Value := .null) : Except Fault Rule := do
  ofFields (← data.fields) sourceFile

def description (r : Rule) : Value :=
  if r.cwe.truthy then .str (r.message.text ++ " (" ++ r.cwe.text ++ ")") else r.message

end Rule

end CodeAudit

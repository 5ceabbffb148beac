import CodeAudit.Files.Tree
import CodeAudit.Rules.Builtin
import CodeAudit.Rules.Rule
import CodeAudit.Yaml.Document

/-!
# Loading rules

Rules are read from documents with a list under `rules`. Lenient loading passes over what is not well formed; strict
loading stops there. Rules that are not enabled are left out, and of rules with one id the last counts.
-/

namespace CodeAudit.Rules

variable (strict : Bool) (files : FileTree) (path : String) (directory : String)

/-- How to go on after a problem of a document: strict loading stops with it, lenient loading takes
nothing from the document. -/
def orNothing (problem : Option String) : Except Fault (List Rule) :=
  if strict then .error (.badRule problem) else .ok []

def isUnreadable (fault : Fault) : Bool := fault == .badYaml || fault.isOfFiles

def isPassedOver (fault : Fault) : Bool := fault == .missingField || fault == .wrongKind

/-- The rules that one entry of the list gives: one, or none where it is disabled or passed over. -/
def ofEntry (entry : Value) : Except Fault (List Rule) :=
  if entry.namedFields.isNone then .ok []
  else do
    match ← Rule.problems entry path with
    | problem :: _ => orNothing strict (some problem.message)
    | [] =>
      match Rule.ofValue entry (.str path) with
      | .ok rule => return if rule.enabled.truthy then [rule] else []
      | .error fault => if isPassedOver fault then orNothing strict none else throw fault

def ofDocument (document : Value) : Except Fault (List Rule) :=
  match document.namedFields.bind fun fields => Record.get? fields "rules" with
  | some (.list entries) => do return (← entries.mapM (ofEntry strict path)).flatten
  | some _ => orNothing strict (some s!"'rules' in {path} must be a list")
  | none => orNothing strict (some s!"Rule file {path} must contain a top-level 'rules' key")

/-- How often a document that holds itself is followed: from the whole to an entry, its pattern and the names. -/
def rounds : Nat := 4

def ofText (text : Except Fault String) : Except Fault (List Rule) :=
  match text.bind (Yaml.readFollowing rounds) with
  | .ok document => ofDocument strict path document
  | .error fault => if isUnreadable fault then orNothing strict none else .error fault

/-- The rules of a file. One that cannot be read gives none, or a fault where reading is strict. -/
def ofFile (path : String) : Except Fault (List Rule) :=
  ofText strict path (files.text .refuse path)

def ofFiles (paths : List String) : Except Fault (List Rule) := do
  return (← paths.mapM (ofFile strict files)).flatten

def ruleFiles : List String :=
  if !files.isDirectory directory then []
  else
    let names := (files.names directory).filter fun name =>
      Text.endsWith name ".yml" || Text.endsWith name ".yaml"
    (Text.sorted names).map (Path.join directory)

def ofDirectory : Except Fault (List Rule) :=
  ofFiles strict files (ruleFiles files directory)

def builtin : Except Fault (List Rule) := do
  return (← BuiltinRules.documents.mapM fun (path, text) => ofText strict path (.ok text)).flatten

/-- Adds a rule; it takes the place of one with the same id. -/
def putRule (rules : List Rule) (rule : Rule) : Except Fault (List Rule) :=
  if !rule.id.hashable then .error .wrongKind
  else if rules.any (·.id.same rule.id) then
    .ok (rules.map fun old => if old.id.same rule.id then rule else old)
  else .ok (rules ++ [rule])

/-- Some rules and those of further directories, which take precedence. -/
def extended (own : List Rule) (strict : Bool) (files : FileTree) (directories : List String) :
    Except Fault (List Rule) := do
  let further ← ofFiles strict files (directories.flatMap (ruleFiles files))
  (own ++ further).foldlM putRule []

def all (directories : List String) : Except Fault (List Rule) := do
  extended (← builtin strict) strict files directories

end CodeAudit.Rules

import CodeAudit.Files.Tree
import CodeAudit.Value.Access
import CodeAudit.Yaml.Document

/-!
# Settings of a project

The sections of a settings file are laid over the usual settings, and `ScanSettings` is what a scan takes from the
result. Values that are not supported are reported, and kept.
-/

namespace CodeAudit.Config

/-! ## A first settings file

The file that is written for a project which has no settings yet. -/

def template : String := Text.join "\n" [
  "# VulnPredict Configuration",
  "# Documentation: https://github.com/thehhugg/vulnpredict#configuration",
  "version: 1",
  "",
  "scan:",
  "  # Directories to scan (relative to project root)",
  "  paths:",
  "    - .",
  "  # Directories/files to exclude from scanning",
  "  exclude:",
  "    - tests/",
  "    - docs/",
  "    - node_modules/",
  "    - .venv/",
  "    - __pycache__/",
  "  # Languages to analyze",
  "  languages:",
  "    - python",
  "    - javascript",
  "",
  "rules:",
  "  # Additional directories containing custom rule files",
  "  additional_dirs: []",
  "  # Rule IDs to disable",
  "  disabled: []",
  "",
  "severity:",
  "  # Minimum severity to report: low, medium, high",
  "  minimum: low",
  "",
  "ml:",
  "  # Enable ML-based vulnerability prediction",
  "  enabled: true",
  "  # Path to a custom trained model (optional)",
  "  # model_path: models/custom_model.joblib",
  "",
  "output:",
  "  # Output format: text, json, sarif, html, markdown",
  "  format: text",
  "  # Output file path (optional; defaults to stdout for text/json)",
  "  # file: vulnpredict-results.sarif",
  ""]

/-! ## Settings -/

def fileName : String := ".vulnpredict.yml"

def schemaVersion : Int := 1

def languages : List String := ["javascript", "python"]

def severities : List String := ["high", "low", "medium"]

def formats : List String := ["html", "json", "markdown", "sarif", "text"]

def defaults : Record :=
  [("version", .int schemaVersion),
   ("scan", .obj [("paths", .texts ["."]), ("exclude", .list []), ("languages", .texts ["python", "javascript"])]),
   ("rules", .obj [("additional_dirs", .list []), ("disabled", .list [])]),
   ("severity", .obj [("minimum", .str "low")]),
   ("ml", .obj [("enabled", .bool true), ("model_path", .null)]),
   ("output", .obj [("format", .str "text"), ("file", .null)])]

/-! ## Laying settings over others -/

mutual

def mergeFields (base : Record) : List (String × Value) → Record
  | [] => base
  | (name, value) :: rest => mergeFields (base.put name (mergeValue (base.get? name) value)) rest

def mergeNamed (base : List (Value × Value)) : List (String × Value) → List (Value × Value)
  | [] => base
  | (name, value) :: rest =>
    mergeNamed (Value.putEntry base (.str name) (mergeValue (Value.underName? base (.str name)) value)) rest

def mergeEntries (base : List (Value × Value)) : List (Value × Value) → List (Value × Value)
  | [] => base
  | (name, value) :: rest => mergeEntries (Value.putEntry base name (mergeValue (Value.underName? base name) value)) rest

/-- Lays a value over an old one: records are merged, and all else is replaced. -/
def mergeValue (old : Option Value) : Value → Value
  | .obj fields =>
    match old with
    | some (.obj base) => .obj (mergeFields base fields)
    | some (.map base) => .map (mergeNamed base fields)
    | _ => .obj fields
  | .map entries =>
    match old with
    | some (.obj base) => .map (mergeEntries (base.map fun field => (.str field.1, field.2)) entries)
    | some (.map base) => .map (mergeEntries base entries)
    | _ => .map entries
  | value => value

end

def under? (base name : Value) : Option Value :=
  match base, name with
  | .obj fields, .str s => Record.get? fields s
  | .map entries, _ => Value.underName? entries name
  | _, _ => none

mutual

/-- The places that it takes to lay a value over an old one: first a record is copied, and then what is laid over it,
but for the records in it that meet others. -/
def mergeDepth (old : Option Value) : Value → Nat
  | .obj fields =>
    match old.filter Value.isRecord with
    | some base => 1 + max base.copyDepth (mergeDepthFields base fields)
    | none => Value.copyDepth (.obj fields)
  | .map entries =>
    match old.filter Value.isRecord with
    | some base => 1 + max base.copyDepth (mergeDepthEntries base entries)
    | none => Value.copyDepth (.map entries)
  | v => v.copyDepth

def mergeDepthFields (base : Value) : List (String × Value) → Nat
  | [] => 0
  | (name, v) :: rest => max (mergeDepth (under? base (.str name)) v) (mergeDepthFields base rest)

def mergeDepthEntries (base : Value) : List (Value × Value) → Nat
  | [] => 0
  | (name, v) :: rest => max (mergeDepth (under? base name) v) (mergeDepthEntries base rest)

end

/-- A record laid over another, as deep as there is room for. -/
def merge (base override : Record) (room : Nat := usualRoom) : Except Fault Record :=
  inRoom room (mergeDepth (some (.obj base)) (.obj override)) (mergeFields base override)

/-- A value with the fields of another laid over it. Only over a record can fields be laid. -/
def mergeOnto (base override : Value) (room : Nat := usualRoom) : Except Fault Value := do
  inRoom room (base.copyDepth + 1) ()
  if !override.isRecord then throw .noSuchPart
  if base.isRecord then inRoom room (mergeDepth (some base) override) (mergeValue (some base) override)
  else if override.truthy then throw .wrongKind
  else return base

/-! ## Checks -/

inductive Warning where
  | version (given path : String)
  | language (given : String)
  | severity (given : String)
  | format (given : String)

def Warning.message : Warning → String
  | .version given path => s!"Config version {given} in {path} is not supported (expected {schemaVersion}). "
      ++ "Some settings may be ignored."
  | .language given => s!"Unsupported language '{given}' in config. Supported: " ++ Text.join ", " languages
  | .severity given => s!"Invalid minimum severity '{given}'. Supported: " ++ Text.join ", " severities
  | .format given => s!"Unsupported output format '{given}'. Supported: " ++ Text.join ", " formats

/-- Whether a value is none of the supported words; a value that cannot be one is a fault. -/
def isUnsupported (value : Value) (words : List String) : Except Fault Bool :=
  if value.isLookedUp then .ok (!value.isWordOf words) else .error .wrongKind

variable (settings : Record)

def checkField (sectionName field : String) (words : List String)
    (warning : String → Warning) : Except Fault (List Warning) := do
  match (settings.getD sectionName (.obj [])).namedFields with
  | some fields =>
    let value := Record.getD fields field .null
    if !value.truthy then return []
    return if ← isUnsupported value words then [warning value.text] else []
  | none => return []

def checkLanguages : Except Fault (List Warning) := do
  match (settings.getD "scan" (.obj [])).namedFields with
  | some fields =>
    match Record.getD fields "languages" (.list []) with
    | .list given =>
      let unknown ← given.filterM fun language => isUnsupported language languages
      return unknown.map fun language => .language language.text
    | _ => return []
  | none => return []

def warnings (path : String) : Except Fault (List Warning) := do
  let given := settings.getD "version" .null
  let ofVersion := match given with
    | .null => []
    | _ => if given.same (.int schemaVersion) then [] else [Warning.version given.text path]
  let ofLanguages ← checkLanguages settings
  let ofSeverity ← checkField settings "severity" "minimum" severities .severity
  let ofFormat ← checkField settings "output" "format" formats .format
  return ofVersion ++ ofLanguages ++ ofSeverity ++ ofFormat

/-! ## Reading -/

variable (files : FileTree)

/-- The settings in a file, a record; an empty one where it cannot be read or holds something else. -/
def read (path : String) : Except Fault Value :=
  match (files.text .refuse path).bind Yaml.read with
  | .ok v => .ok (if v.isRecord then v else .obj [])
  | .error fault => if fault == .badYaml || fault.isOfFiles then .ok (.obj []) else .error fault

def find? (project : String) : Option String :=
  let path := Path.join project fileName
  if files.isFile path then some path else none

/-- Whether settings can be laid over the usual ones if no two places in them share a part. -/
def fitsUsually (given : Value) : Bool := mergeDepth (some (.obj defaults)) given ≤ usualRoom

/-- The settings of a project: the usual ones with those of its file laid over them. A part that places in a file share
is copied once, so it is not the tree alone that says whether it fits. -/
def load (project : String) (fits : Value → Bool := fitsUsually) : Except Fault Value := do
  match find? files project with
  | none => return .obj defaults
  | some path =>
    let given ← read files path
    if !given.truthy then return .obj defaults
    let _ ← warnings (← given.fields) path
    if !fits given then throw .tooDeep
    return mergeValue (some (.obj defaults)) given

structure ScanSettings where
  paths : Value
  exclude : Value
  languages : Value
  additionalRuleDirs : Value
  disabledRules : Value
  minimumSeverity : Value
  modelEnabled : Value
  modelPath : Value
  outputFormat : Value
  outputFile : Value
  configFile : Value

namespace ScanSettings

/-- The settings of a scan; every section must be a record. -/
def ofRecord (configFile : Value := .null) : Except Fault ScanSettings := do
  let scan := settings.getD "scan" (.obj [])
  let rules := settings.getD "rules" (.obj [])
  let severity := settings.getD "severity" (.obj [])
  let model := settings.getD "ml" (.obj [])
  let output := settings.getD "output" (.obj [])
  return {
    paths := ← scan.part "paths" (.texts ["."])
    exclude := ← scan.part "exclude" (.list [])
    languages := ← scan.part "languages" (.texts ["python", "javascript"])
    additionalRuleDirs := ← rules.part "additional_dirs" (.list [])
    disabledRules := ← rules.part "disabled" (.list [])
    minimumSeverity := ← severity.part "minimum" (.str "low")
    modelEnabled := ← model.part "enabled" (.bool true)
    modelPath := ← model.part "model_path"
    outputFormat := ← output.part "format" (.str "text")
    outputFile := ← output.part "file"
    configFile }

def given (value old : Value) : Value :=
  match value with
  | .null => old
  | _ => value

def override (s : ScanSettings) (outputFormat outputFile minimumSeverity modelEnabled : Value) : ScanSettings :=
  { s with
    outputFormat := given outputFormat s.outputFormat
    outputFile := given outputFile s.outputFile
    minimumSeverity := given minimumSeverity s.minimumSeverity
    modelEnabled := given modelEnabled s.modelEnabled }

end ScanSettings

end CodeAudit.Config

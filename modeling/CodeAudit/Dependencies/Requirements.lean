import CodeAudit.Dependencies.Lookup

/-!
# Declared dependencies

The packages that a requirements file or a package description declares, with whether each is outdated and whether it
has known vulnerabilities.
-/

namespace CodeAudit

/-- The packages of a project, how many have known flaws or newer versions, and the worst severity. -/
structure DependencyReport where
  dependencies : List Record := []
  vulnerable : Nat := 0
  outdated : Nat := 0
  worst : Value := .null

namespace DependencyReport

/-- The rank of a severity; what is no word comes last. -/
def rankOf : Value → Nat
  | .str w => AdvisoryLevel.rankOf w
  | _ => 99

/-- The worse of two severities; none is better than all others. -/
def worse (worst severity : Value) : Value :=
  match worst with
  | .null => severity
  | w => if rankOf severity < rankOf w then severity else w

/-- Adds a vulnerable dependency's severity; one that counts as false does not count. -/
def addSeverity (r : DependencyReport) (severity : Value) : DependencyReport :=
  if severity.truthy then { r with worst := worse r.worst severity } else r

def finding? (r : DependencyReport) : List Record :=
  if r.dependencies.isEmpty then []
  else [[("type", .str "dependencies"), ("dependencies", .list (r.dependencies.map .obj)),
         ("num_vulnerable_dependencies", .nat r.vulnerable),
         ("num_outdated_dependencies", .nat r.outdated),
         ("max_dependency_severity", r.worst)]]

end DependencyReport

/-! ## Requirements of Python projects -/

def isPackageChar (c : Char) : Bool :=
  Text.isAsciiLetter c || Text.isAsciiDigit c || c == '_' || c == '-'

def isComparison (c : Char) : Bool := c == '=' || c == '<' || c == '>' || c == '!' || c == '~'

def isVersionChar (c : Char) : Bool :=
  Text.isAsciiLetter c || Text.isAsciiDigit c || c == '_' || c == '.'

def readVersion (rest : List Char) : Option String :=
  let compared := rest.dropWhile isComparison
  let version := compared.takeWhile isVersionChar
  if compared.length < rest.length && !version.isEmpty then some (String.ofList version) else none

/-- The name at the start of a requirement and the version after the comparison that follows it. -/
def readRequirement (line : List Char) : Option (String × Option String) :=
  let name := line.takeWhile isPackageChar
  if name.isEmpty then none else some (String.ofList name, readVersion (line.dropWhile isPackageChar))

/-- The newest versions of packages, as the package index answers for each: a version, a status or a
document. -/
abbrev PackageIndex := Record

def PackageIndex.latest? (index : PackageIndex) (package : String) : Option String :=
  match Record.get? index package with
  | some (.str v) => some v
  | some (.obj document) =>
    match (Value.obj document).need "info" >>= fun info => info.need "version" with
    | .ok v => some v.text
    | .error _ => none
  | _ => none

/-- Looks a package up; where that fails it counts as not vulnerable. -/
def lookUpSeverity (p : Package) : LookupState → Option Value × LookupState := fun s =>
  match (Lookup.vulnerable p).run s with
  | (.ok (some finding), s') => (some (Record.getD finding "severity" .null), s')
  | (_, s') => (none, s')

/-- Adds a requirement to a report. The package index is asked first. -/
def addRequirement (index : PackageIndex) (report : DependencyReport) (s : LookupState)
    (name : String) (version : Option String) : DependencyReport × LookupState :=
  let outdated := match index.latest? name, version with
    | some latest, some v => !latest.isEmpty && !v.isEmpty && latest != v
    | _, _ => false
  let (severity, s') := lookUpSeverity
    (.ofTexts "PyPI" name (version.getD "")) { s with inquiries := s.inquiries ++ [name] }
  let entry : Record :=
    [("name", .str name), ("version", .optText version), ("outdated", .bool outdated),
     ("vulnerable", .bool severity.isSome)]
  let counted := { report with
    dependencies := report.dependencies ++ [entry]
    outdated := report.outdated + (if outdated then 1 else 0)
    vulnerable := report.vulnerable + (if severity.isSome then 1 else 0) }
  (match severity with
    | some w => counted.addSeverity w
    | none => counted, s')

/-- The requirements of a text: one a line, without empty lines and comments. -/
def requirementsOf (text : String) : List (String × Option String) :=
  ((Chars.fieldsAt '\n' text.toList).map (Chars.trim Text.isBlank)).filterMap fun line =>
    if line.isEmpty || line.head? == some '#' then none else readRequirement line

/-- The report on the requirements of a project, which is empty for a project without such a file. -/
def pythonDependencies (files : FileTree) (index : PackageIndex) (path : String)
    (s : LookupState) : Except Fault DependencyReport × LookupState :=
  let file := Path.join path "requirements.txt"
  if !files.isThere file then (.ok {}, s)
  else match files.text .refuse file with
    | .error fault => (.error fault, s)
    | .ok text =>
      let (report, s') := (requirementsOf text).foldl
        (fun (report, s) (name, version) => addRequirement index report s name version)
        (({} : DependencyReport), s)
      (.ok report, s')

/-! ## Packages of Javascript projects -/

/-- Adds a package to a report. A version that is no text is a fault. -/
def addPackage (report : DependencyReport) (s : LookupState) (name spec : Value) :
    Except Fault DependencyReport × LookupState :=
  match spec with
  | .str text =>
    let version := Text.stripStartOf "^~><=!" text
    let base : Record := [("name", name), ("version", .str version)]
    match (Lookup.vulnerable { ecosystem := .str "npm", name, version := .str version }).run s with
    | (.ok (some finding), s') =>
      let entry := base ++ [("vulnerable", .bool true), ("vuln_details", .obj finding)]
      (.ok ({ report with
        dependencies := report.dependencies ++ [entry]
        vulnerable := report.vulnerable + 1 }.addSeverity (Record.getD finding "severity" .null)), s')
    | (_, s') =>
      (.ok { report with dependencies := report.dependencies ++ [base ++ [("vulnerable", .bool false)]] }, s')
  | _ => (.error .noSuchPart, s)

def addPackages : DependencyReport → LookupState → List (Value × Value) → Except Fault DependencyReport × LookupState
  | report, s, [] => (.ok report, s)
  | report, s, (name, spec) :: rest =>
    match addPackage report s name spec with
    | (.ok report', s') => addPackages report' s' rest
    | (.error fault, s') => (.error fault, s')

/-- The packages that a description declares: the ones needed to run, then the ones needed to
develop, which replace those of the same name. -/
def declaredPackages (description : Value) : Except Fault (List (Value × Value)) := do
  let needed ← (← description.part "dependencies" (.obj [])).toEntries
  let developing ← (← description.part "devDependencies" (.obj [])).toEntries
  return developing.foldl (fun found (name, spec) => Value.putEntry found name spec) needed

/-- The dependencies of a Javascript project. A description that cannot be read declares none. -/
def javascriptDependencies (files : FileTree) (path : String) (s : LookupState) :
    Except Fault DependencyReport × LookupState :=
  let file := Path.join path "package.json"
  if !files.isThere file then (.ok {}, s)
  else match files.content file with
    | .error fault => (.error fault, s)
    | .ok _ =>
      match files.text .refuse file >>= Json.read with
      | .error _ => (.ok {}, s)
      | .ok description =>
        match declaredPackages description with
        | .error fault => (.error fault, s)
        | .ok packages => addPackages {} s packages

end CodeAudit

import CodeAudit.Digest.Sha
import CodeAudit.Files.Tree
import CodeAudit.Json.Reader
import CodeAudit.Value.Access

/-!
# The vulnerability cache

Answers about packages are kept for a while. An entry belongs to a package in an ecosystem at a version, whatever the
case of the letters; it is a JSON file named by the digest of its key, with the answer and the time of storing. An
entry that is too old stays where it is, but is not used.
-/

namespace CodeAudit

/-- A package at a version in an ecosystem. Each is usually a text; whatever else it is is sent and
shown as it is, and counts as its text otherwise. -/
structure Package where
  ecosystem : Value
  name : Value
  version : Value

namespace Package

def ofTexts (ecosystem name version : String) : Package :=
  { ecosystem := .str ecosystem, name := .str name, version := .str version }

variable (p : Package)

def key : String :=
  Text.lower (p.ecosystem.text ++ ":" ++ p.name.text ++ ":" ++ p.version.text)

def checkedKey : Except Fault String :=
  if Text.isEncodable p.key then .ok p.key else .error .unencodable

def digest : Except Fault String := p.checkedKey.map Sha256.hex

/-- The name of the file that holds what is known of a package. -/
def fileName : Except Fault String := p.digest.map (· ++ ".json")

def label : String := p.ecosystem.text ++ ":" ++ p.name.text ++ "@" ++ p.version.text

end Package

/-- A cache: how long entries count, and what stands in its directory, by name; none where the
directory is gone. -/
structure VulnCache where
  ttl : Value
  directory : Option (List (String × Entry))

namespace VulnCache

def empty (ttl : Value) : VulnCache := { ttl, directory := some [] }

def standard : VulnCache := empty (.int 86400)

def inDirectory (files : FileTree) (directory : String) (ttl : Value) : Except Fault VulnCache := do
  let files ← files.makeDirectory directory
  let entries ← (files.names directory).mapM fun name => do
    return (name, ← files.find (Path.join directory name))
  return { ttl, directory := some entries }

variable (c : VulnCache) (now : Float) (name : String)

def entry? : Option Entry :=
  c.directory.bind fun entries => (entries.find? (·.1 == name)).map (·.2)

def setEntry (e : Entry) : VulnCache :=
  { c with directory := c.directory.map fun entries => (name, e) :: entries.filter (·.1 != name) }

/-- Whether a file of this name can be written: the directory must be there, and no other directory in
the file's place. -/
def isWritable : Bool :=
  c.directory.isSome && c.entry? name != some .directory

def document (time : Float) (vulns : Value) : Value := .obj [("ts", .float time), ("vulns", vulns)]

def live (time vulns : Value) : Except Fault (Option (List Value)) := do
  let age := now - (← time.toFloat?)
  if ← (Value.float age).exceeds c.ttl then return none
  return some (← vulns.elements)

def answerIn (document : Value) : Except Fault (Option (List Value)) := do
  c.live now (← document.part "ts" (.int 0)) (← document.part "vulns" (.list []))

/-- The answer that a file holds, if it is not too old. A file that is no document counts as none. -/
def readEntry (content : Content) : Except Fault (Option (List Value)) := do
  let text ← content.decode .refuse
  match Json.read (String.ofList (Text.unifyLineEnds text.toList)) with
  | .error (.badJson _) => return none
  | .error fault => throw fault
  | .ok document => c.answerIn now document

/-- What is stored for a package, if it is there and still counts. -/
def get (p : Package) : Except Fault (Option (List Value)) := do
  match c.entry? (← p.fileName) with
  | none => return none
  | some .directory => return none
  | some (.file content) => c.readEntry now content

/-- Stores an answer; where the file cannot be written nothing changes. -/
def put (p : Package) (vulns : Value) : Except Fault VulnCache := do
  let name ← p.fileName
  if c.isWritable name then
    return c.setEntry name (.file (.text (← Json.writeStrict .line (document now vulns))))
  else return c

def isEntryFile : String × Entry → Bool
  | (name, .file _) => Text.endsWith name ".json"
  | (_, .directory) => false

/-- Removes all entries and says how many there were. Files of other kinds stay. -/
def clear : Nat × VulnCache :=
  match c.directory with
  | none => (0, c)
  | some entries => (entries.countP isEntryFile, { c with directory := some (entries.filter (!isEntryFile ·)) })

def size? : Option Nat := c.directory.map List.length

end VulnCache

end CodeAudit

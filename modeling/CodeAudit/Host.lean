import CodeAudit.Dependencies.Requirements
import CodeAudit.Remote.Tools

/-!
# What a scan reaches outside the program

Files, other programs, the package index, the vulnerability database with its cache, the time, and the room that is
left for a recursion. What an action has changed stays even where it fails.
-/

namespace CodeAudit

/-- All that an action can read or change outside itself. -/
structure Host where
  files : FileTree
  tools : Tools
  index : PackageIndex
  lookup : LookupState
  now : Moment
  room : Nat := usualRoom

/-- A part of the program that acts on its host. What it changed before a fault stays changed. -/
abbrev Action := ExceptT Fault (StateM Host)

namespace Action

def ofExcept {α : Type} : Except Fault α → Action α
  | .ok a => return a
  | .error fault => throw fault

def reading {α : Type} (f : FileTree → Except Fault α) : Action α := do
  ofExcept (f (← get).files)

/-- Looks at files within the room that there is. -/
def visiting {α : Type} (f : Nat → FileTree → Except Fault α) : Action α := do
  let host ← get
  ofExcept (f host.room host.files)

def changing (f : FileTree → Except Fault FileTree) : Action Unit := do
  let host ← get
  let files ← ofExcept (f host.files)
  set { host with files }

/-- Writes a text file part by part. It is opened first, and a part that cannot be encoded is a fault that
leaves those before it written. -/
def writeParts (path : String) (parts : List String) : Action Unit := do
  let encodable := parts.takeWhile Text.isEncodable
  changing (·.writeText path (String.join encodable))
  if encodable.length < parts.length then throw .unencodable

def writeText (path text : String) : Action Unit := writeParts path [text]

/-- Runs an action on other files, which are gone afterwards. -/
def onFiles {α : Type} (files : FileTree) (act : Action α) : Action α := fun host =>
  let (result, after) := act.run { host with files }
  (result, { after with files := host.files })

def send (request : Request) : Action Reply := do
  let host ← get
  let (reply, network) := host.lookup.network.send request
  set { host with lookup := { host.lookup with network } }
  return reply

def lookingUp {α : Type} (f : LookupState → Except Fault α × LookupState) : Action α := do
  let host ← get
  let (result, lookup) := f host.lookup
  set { host with lookup }
  ofExcept result

def churn : Action Tools.Churn := do
  let host ← get
  let (found, tools) := host.tools.churn host.now
  set { host with tools }
  return found

end Action

end CodeAudit

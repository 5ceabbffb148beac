import CodeAudit.Command.Program
import Std.Time.DateTime.Timestamp

/-!
# The command line

Reads the files below the working directory, runs the program on them, stores what it has changed and shows what it has
to say. Other programs and the network are out of reach.
-/

/-! ## Files as bytes

Files as they are stored outside a file tree. Bytes that are text are kept as text; a stored model is
written as a line that says to how many rows it was fitted. -/

namespace CodeAudit

namespace Content

def modelMark : String := "classifier fitted to rows: "

def toBytes : Content → ByteArray
  | .text s => s.toUTF8
  | .bytes bs => ⟨bs.toArray⟩
  | .model rows => (modelMark ++ toString rows).toUTF8

def model? (s : String) : Option Content :=
  if Text.startsWith s modelMark then ((Text.drop modelMark.length s).toNat?).map .model else none

def ofBytes (bytes : ByteArray) : Content :=
  match Text.decode? .refuse bytes.data.toList with
  | some s => (model? s).getD (.text s)
  | none => .bytes bytes.data.toList

end Content

/-- What differs in a tree from an earlier one: places that are new or hold something else. -/
def FileTree.changesSince (t before : FileTree) : List (List String × Entry) :=
  t.entries.filter fun e => decide (before.entries.find? (·.1 == e.1) ≠ some e)

end CodeAudit

open CodeAudit

partial def readEntry (place : List String) (entry : IO.FS.DirEntry) : IO (List (List String × Entry)) := do
  let place := place ++ [entry.fileName]
  if ← entry.path.isDir then
    let below ← (← entry.path.readDir).toList.mapM (readEntry place)
    return (place, .directory) :: below.flatten
  else
    return [(place, .file (Content.ofBytes (← IO.FS.readBinFile entry.path)))]

def readFiles : IO FileTree := do
  let entries ← (← (← IO.currentDir).readDir).toList.mapM (readEntry [])
  return { entries := entries.flatten, home := Path.components (← IO.currentDir).toString }

def storeEntry (change : List String × Entry) : IO Unit := do
  let path := Text.join "/" change.1
  match change.2 with
  | .file content => IO.FS.writeBinFile path content.toBytes
  | .directory => IO.FS.createDirAll path

def typedLines : IO (List String) := do
  let input ← IO.getStdin
  if ← input.isTty then return []
  return Text.fields '\n' (String.ofList (Text.unifyLineEnds (← input.readToEnd).toList))

def readHost : IO Host := do
  let seconds := (← Std.Time.Timestamp.now).toSecondsSinceUnixEpoch.val.toNat
  return { files := ← readFiles, tools := {}, index := [], now := .ofEpoch seconds
           lookup := { network := { replies := [] }, cache := .standard, clock := Float.ofNat seconds } }

def main (line : List String) : IO UInt32 := do
  let host ← readHost
  let desk : Command.Desk := { host, typed := ← typedLines }
  let (outcome, after) := Command.Program.main.run (← IO.getEnv "NVD_API_KEY") "vulnpredict" line desk
  (after.files.changesSince host.files).forM storeEntry
  IO.print outcome.output
  if let some complaint := outcome.complaint then IO.eprintln ("Error: " ++ complaint)
  if let some fault := outcome.fault then IO.eprintln (repr fault)
  return outcome.code.toUInt32

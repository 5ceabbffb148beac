import CodeAudit.Text.Utf8
import CodeAudit.Fault
import CodeAudit.Text.Surrogate

/-!
# File trees

A tree is a list of places below the working directory, each a file or a directory that was made on purpose; a directory
also exists wherever something lies below it. A walk visits the files of a directory in order of their names, then its
subdirectories: that is the order `Place.before` on paths, so a walk is a sorted list of files.
-/

/-! ## Paths

A path is text, since answers repeat it as it was given; `Path.components` is the view in which two spellings of one
place agree. Relative paths start at the working directory, which a tree knows as its `home`. Not every text can be a
path, and names and whole paths have a greatest length. -/

namespace CodeAudit.Path

def usualHome : List String := ["work"]

/-! ### Which texts are paths -/

variable (p : String)

/-- The number of bytes of a name in the file system; half a character in the last range stands for a
byte that is no text. -/
def byteCount : Nat :=
  (p.toList.map fun c => if (Text.surrogate? c).isSome then 1 else c.utf8Size).sum

/-- Whether a character can stand in the name of a file: half a character can only where it stands for a
byte. -/
def isNamable (c : Char) : Bool := (Text.surrogate? c).all fun n => 0xDC80 ≤ n && n ≤ 0xDCFF

def longestName : Nat := 255

def longestPath : Nat := 4095

/-- What keeps a text from being a path at all. -/
def fault? : Option Fault :=
  if !p.toList.all isNamable then some .unencodable
  else if p.toList.contains '\x00' then some .meaningless
  else if longestPath < byteCount p then some .nameTooLong
  else none

/-! ### Parts of paths -/

def isAbsolute : Bool := Text.startsWith p "/"

/-- A path below another one; an absolute path stands for itself. -/
def join (dir name : String) : String :=
  if isAbsolute name then name
  else if dir.isEmpty || Text.endsWith dir "/" then dir ++ name
  else dir ++ "/" ++ name

def basename : String := ((Text.fields '/' p).getLast?).getD p

/-- The directory in which a path lies, as written: what stands before the last component, slashes at the
end apart. -/
def parent : String :=
  let before := (Text.fields '/' (Text.stripEndOf "/" p)).dropLast
  if before.isEmpty then (if isAbsolute p then "/" else ".")
  else
    let joined := Text.join "/" before
    if joined.isEmpty then "/" else joined

/-- The extension of a path: the last component from its last dot on, where something other than
dots comes before it. -/
def extension : String :=
  let name := (basename p).toList
  let leading := name.takeWhile (· == '.')
  let rest := name.drop leading.length
  let tail := rest.reverse.takeWhile (· != '.')
  if tail.length == rest.length then "" else String.ofList ('.' :: tail.reverse)

/-- Component by component, with `.` passed over and `..` one step up; above the root there is
nothing to step up to. -/
def resolve (base : List String) (parts : List String) : List String :=
  parts.foldl (fun acc part =>
    if part.isEmpty || part == "." then acc
    else if part == ".." then acc.dropLast
    else acc ++ [part]) base

def components (home : List String := usualHome) : List String :=
  resolve (if isAbsolute p then [] else home) (Text.fields '/' p)

def absolute (home : List String := usualHome) : String := "/" ++ Text.join "/" (components p home)

def sharedLength : List String → List String → Nat
  | a :: as, b :: bs => if a == b then sharedLength as bs + 1 else 0
  | _, _ => 0

def relative (p dir : String) (home : List String := usualHome) : String :=
  let target := components p home
  let start := components dir home
  let shared := sharedLength target start
  let parts := List.replicate (start.length - shared) ".." ++ target.drop shared
  if parts.isEmpty then "." else Text.join "/" parts

def local? (home : List String := usualHome) : Option (List String) :=
  let parts := components p home
  if home.isPrefixOf parts then some (parts.drop home.length) else none

end CodeAudit.Path

/-! ## Trees -/

namespace CodeAudit

inductive Content where
  | text (s : String)
  | bytes (bs : List UInt8)
  | model (rows : Nat)
  deriving DecidableEq

def Content.decode (mode : Text.OnBadBytes) : Content → Except Fault String
  | .text s => .ok s
  | .bytes bs => match Text.decode? mode bs with
    | some s => .ok s
    | none => .error .undecodable
  | .model _ => .error .undecodable

inductive Entry where
  | file (content : Content)
  | directory
  deriving DecidableEq

structure FileTree where
  entries : List (List String × Entry)
  home : List String := Path.usualHome

namespace FileTree

def empty : FileTree := { entries := [] }

/-- What stands at a place. The working directory itself is a directory, and so is every place
with something below it. -/
def entry? (t : FileTree) (place : List String) : Option Entry :=
  match t.entries.find? (·.1 == place) with
  | some (_, e) => some e
  | none => if place.isEmpty || t.entries.any (fun e => place.isPrefixOf e.1) then some .directory else none

/-- What stands at a place given by its components from the root. What leads to the working directory
is a directory; of what lies beside it nothing is known. -/
def entryFromRoot? (t : FileTree) (parts : List String) : Option Entry :=
  if t.home.isPrefixOf parts then t.entry? (parts.drop t.home.length)
  else if parts.isPrefixOf t.home then some .directory
  else none

/-- What keeps a path from being followed step by step: only a directory can be stepped into, out of or
stayed in, and a name must not be too long. -/
def obstacle? (t : FileTree) : List String → List String → Option Fault
  | _, [] => none
  | here, part :: rest => match t.entryFromRoot? here with
    | some .directory =>
      if Path.longestName < Path.byteCount part then some .nameTooLong
      else t.obstacle? (Path.resolve here [part]) rest
    | some (.file _) => some .notDirectory
    | none => some .noFile

/-- What keeps a path from being followed to its last component, which need not be there. -/
def obstacleOn? (t : FileTree) (path : String) : Option Fault :=
  Path.fault? path <|>
    t.obstacle? (if Path.isAbsolute path then [] else t.home) (Text.fields '/' path)

def find (t : FileTree) (path : String) : Except Fault Entry :=
  if path.isEmpty then .error .noFile
  else match t.obstacleOn? path, t.entryFromRoot? (Path.components path t.home) with
    | some fault, _ => .error fault
    | none, some e => .ok e
    | none, none => .error .noFile

def isFile (t : FileTree) (path : String) : Bool :=
  match t.find path with
  | .ok (.file _) => true
  | _ => false

def isDirectory (t : FileTree) (path : String) : Bool :=
  match t.find path with
  | .ok .directory => true
  | _ => false

def isThere (t : FileTree) (path : String) : Bool := (t.find path).isOk

def content (t : FileTree) (path : String) : Except Fault Content := do
  match ← t.find path with
  | .file c => return c
  | .directory => throw .isDirectory

def rawText (t : FileTree) (mode : Text.OnBadBytes) (path : String) : Except Fault String := do
  (← t.content path).decode mode

def text (t : FileTree) (mode : Text.OnBadBytes) (path : String) : Except Fault String := do
  let s ← t.rawText mode path
  pure (String.ofList (Text.unifyLineEnds s.toList))

/-- What is found in a file; nothing where it cannot be read. -/
def foundIn {α : Type} (find : List Char → List α) (t : FileTree) (path : String) : List α :=
  match t.text .drop path with
  | .ok s => find s.toList
  | .error _ => []

def put (t : FileTree) (place : List String) (e : Entry) : FileTree :=
  let entries :=
    if t.entries.any (·.1 == place) then t.entries.map fun old => if old.1 == place then (place, e) else old
    else t.entries ++ [(place, e)]
  { t with entries }

/-- Writes a file. Its directory must exist, and no directory may stand in its place. -/
def write (t : FileTree) (path : String) (c : Content) : Except Fault FileTree :=
  let parts := Text.fields '/' (Text.stripEndOf "/" path)
  match t.obstacleOn? (Text.join "/" parts), Path.local? path t.home with
  | some fault, _ => .error fault
  | none, none => .error .noFile
  | none, some place =>
    if path.isEmpty then .error .noFile
    else if t.entry? place == some .directory || Text.endsWith path "/" then .error .isDirectory
    else .ok (t.put place (.file c))

def writeText (t : FileTree) (path : String) (s : String) : Except Fault FileTree :=
  t.write path (.text s)

/-- What keeps a directory from being made at a place with all that lead to it: a file on the way, a
file at its end, or too long a name. -/
def blocked? (t : FileTree) : List String → List String → Option Fault
  | _, [] => none
  | here, part :: rest =>
    let next := here ++ [part]
    match t.entry? next with
    | some (.file _) => some (if rest.isEmpty then .alreadyThere else .notDirectory)
    | _ => if Path.longestName < Path.byteCount part then some .nameTooLong else t.blocked? next rest

def makeDirectory (t : FileTree) (path : String) : Except Fault FileTree :=
  match Path.fault? path, Path.local? path t.home with
  | some fault, _ => .error fault
  | none, none => .ok t
  | none, some place => match t.blocked? [] place, t.entry? place with
    | some fault, _ => .error fault
    | none, some _ => .ok t
    | none, none => .ok (t.put place .directory)

/-! ## Walking -/

/-- The order of a walk: files of a directory by name, then the subdirectories by name. -/
def visitedBefore : List String → List String → Bool
  | [a], [b] => a ≤ b
  | [_], _ => true
  | _, [_] => false
  | a :: as, b :: bs => if a == b then visitedBefore as bs else a ≤ b
  | [], _ => true
  | _, [] => false

/-- The files below a place, with their places relative to it, in the order of a walk.
Directories whose name is in `skip` are not entered. -/
def filesBelow (t : FileTree) (skip : List String) (place : List String) : List (List String) :=
  let below := t.entries.filterMap fun (p, e) =>
    match e with
    | .file _ =>
      if place.isPrefixOf p && place.length < p.length then
        let rest := p.drop place.length
        if rest.dropLast.any (skip.contains ·) then none else some rest
      else none
    | .directory => none
  below.mergeSort visitedBefore

/-- The paths of the files that a walk through a directory visits, each written below the directory
as it was given. -/
def walk (t : FileTree) (directory : String) (skip : List String := []) : List String :=
  match t.find directory, Path.local? directory t.home with
  | .ok .directory, some place =>
    (t.filesBelow skip place).map fun rest => Path.join directory (Text.join "/" rest)
  | _, _ => []

def names (t : FileTree) (directory : String) : List String :=
  match Path.local? directory t.home with
  | none => []
  | some place =>
    let firsts := t.entries.filterMap fun (p, _) =>
      if place.isPrefixOf p then (p.drop place.length).head? else none
    firsts.eraseDups.mergeSort (· ≤ ·)

end FileTree

end CodeAudit

import CodeAudit.Files.Tree
import CodeAudit.Regex.Basic
import CodeAudit.Value.Access

/-!
# Ignored files

A project may list patterns of files whose findings are not reported. A pattern that ends in a slash names directories;
one with `**` goes across directories; any other is matched with the whole path and, where it has no slash, with the
file name.
-/

namespace CodeAudit

/-! ## File name patterns

`*` stands for any run of characters, `?` for any one, and a class in brackets for one of its members. A bracket that
is not closed is a character like any other. -/

inductive GlobPart where
  | run
  | any
  | char (c : Char)
  /-- One of some ranges of characters, or none of them. -/
  | oneOf (negated : Bool) (ranges : List (Char × Char))
  deriving DecidableEq

namespace GlobPart

/-- The ranges of a class: two characters with a hyphen between them, or one alone. -/
def ranges : List Char → List (Char × Char)
  | a :: '-' :: b :: rest => (a, b) :: ranges rest
  | a :: rest => (a, a) :: ranges rest
  | [] => []

/-- The text of a class before its closing bracket, and what follows; the first character may be a
bracket. -/
def classText? (cs : List Char) : Option (List Char × List Char) :=
  let start := match cs with
    | ']' :: _ => 1
    | '!' :: ']' :: _ => 2
    | '!' :: _ => 1
    | _ => 0
  let later := cs.drop start
  let body := later.takeWhile (· != ']')
  if body.length < later.length then
    some (cs.take start ++ body, later.drop (body.length + 1))
  else none

def ofClass : List Char → GlobPart
  | '!' :: body => .oneOf true (ranges body)
  | body => .oneOf false (ranges body)

def readFrom : Nat → List Char → List GlobPart
  | 0, _ => []
  | _, [] => []
  | fuel + 1, '*' :: cs => .run :: readFrom fuel cs
  | fuel + 1, '?' :: cs => .any :: readFrom fuel cs
  | fuel + 1, '[' :: cs =>
    match classText? cs with
    | some (body, rest) => ofClass body :: readFrom fuel rest
    | none => .char '[' :: readFrom fuel cs
  | fuel + 1, c :: cs => .char c :: readFrom fuel cs

def inRange (c : Char) (range : Char × Char) : Bool := range.1 ≤ c && c ≤ range.2

def isOne (c : Char) : GlobPart → Bool
  | .run => false
  | .any => true
  | .char x => c == x
  | .oneOf negated ranges => ranges.any (inRange c) != negated

end GlobPart

abbrev Glob := List GlobPart

namespace Glob

def ofText (s : String) : Glob := GlobPart.readFrom s.length s.toList

/-- What can be left of a pattern after a character. -/
def after (c : Char) : Glob → List Glob
  | [] => []
  | .run :: rest => (.run :: rest) :: after c rest
  | part :: rest => if part.isOne c then [rest] else []

def accepts (g : Glob) (cs : List Char) : Bool :=
  (cs.foldl (fun left c => (left.flatMap (after c)).eraseDups) [g]).any (·.all (· == .run))

end Glob

/-! ## Patterns across directories -/

namespace DeepPattern

def only (c : Char) : CharSet := { negated := false, anyCase := false, items := [.char c] }

def allBut (c : Char) : CharSet := { negated := true, anyCase := false, items := [.char c] }

def piece (c : Char) : Regex :=
  if c == '*' then .rep 0 none false (.one (allBut '/'))
  else if c == '?' then .one (allBut '/')
  else .one (only c)

def segment (cs : List Char) : Regex := cs.foldr (fun c rest => .seq (piece c) rest) .empty

/-- Nothing, or directories with the slash after them; `named` says that their names are not empty. -/
def directories (named : Bool) : Regex :=
  .rep 0 (some 1) false
    (.seq (.rep (if named then 1 else 0) none false (.one (allBut '\n'))) (.one (only '/')))

/-- Segments with directories between them. A line feed at the end of a path does not count. -/
def joined : List (List Char) → Regex
  | [] => .finish false
  | [cs] => .seq (segment cs) (.finish false)
  | cs :: rest => .seq (segment cs) (.seq (directories true) (joined rest))

end DeepPattern

inductive IgnorePattern where
  /-- Files below a directory of this name, or below this path. -/
  | directory (name : String)
  | deep (pattern : Regex)
  /-- Paths that match as a whole; `byName` says that the name of the file may match instead. -/
  | path (glob : Glob) (byName : Bool)

namespace IgnorePattern

def segments : List Char → List (List Char)
  | '*' :: '*' :: cs => [] :: segments cs
  | c :: cs =>
    match segments cs with
    | [] => [[c]]
    | segment :: rest => (c :: segment) :: rest
  | [] => [[]]

def ofText (s : String) : IgnorePattern :=
  if Text.endsWith s "/" then .directory (Text.stripEndOf "/" s)
  else if Text.contains s "**" then
    let parts := ((segments s.toList).map (Chars.trim (· == '/'))).filter fun part => !part.isEmpty
    let body := DeepPattern.joined parts
    .deep (if Text.startsWith s "**" then .seq (DeepPattern.directories false) body else body)
  else .path (Glob.ofText s) (!Text.contains s "/")

def accepts (pattern : IgnorePattern) (path : String) : Bool :=
  match pattern with
  | .directory name =>
    ((Text.fields '/' path).dropLast.any fun part => (Glob.ofText name).accepts part.toList)
      || Text.startsWith path (name ++ "/")
  | .deep pattern => (pattern.matchStart? path.toList).isSome
  | .path glob byName =>
    glob.accepts path.toList || (byName && glob.accepts (Path.basename path).toList)

end IgnorePattern

structure IgnoreFile where
  patterns : List String := []

namespace IgnoreFile

def fileName : String := ".vulnpredictignore"

def ofText (text : String) : IgnoreFile :=
  let lines := (Chars.keptLines text.toList).map fun line => Text.strip (String.ofList line)
  { patterns := lines.filter fun line => !line.isEmpty && !Text.startsWith line "#" }

def ofFile (files : FileTree) (path : String) : Except Fault IgnoreFile :=
  match files.text .refuse path with
  | .ok text => .ok (ofText text)
  | .error fault => if fault.isOfFiles then .ok {} else .error fault

def ofProject (files : FileTree) (project : String) : Except Fault IgnoreFile :=
  ofFile files (Path.join project fileName)

/-- A path as patterns see it: relative to the root of the project, if there is one. -/
def relativePath (path root : String) (home : List String) : String :=
  if root.isEmpty || path.isEmpty then path else Path.relative path root home

def ignores (file : IgnoreFile) (path : String) (root : String := "") (home : List String := Path.usualHome) : Bool :=
  file.patterns.any fun pattern => (IgnorePattern.ofText pattern).accepts (relativePath path root home)

/-- The path of a finding as patterns see it. Only texts can be taken relative to a root, and only texts
can be matched. -/
def relativeOf (path root : Value) (home : List String) : Except Fault String :=
  match path, root with
  | .str p, .str r => .ok (relativePath p r home)
  | .str p, _ => if p.isEmpty || !root.truthy then .ok p else .error .wrongKind
  | _, _ => if path.truthy && root.truthy then .error .wrongKind else .error .noSuchPart

/-- Whether one of some patterns, tried in order, matches a path; the first that is no text is a
fault. -/
def anyAccepts (path : String) : List Value → Except Fault Bool
  | [] => .ok false
  | .str pattern :: rest => if (IgnorePattern.ofText pattern).accepts path then .ok true else anyAccepts path rest
  | _ :: _ => .error .noSuchPart

/-- Whether given patterns match the path of a finding; without patterns nothing is asked of it. -/
def matchedBy (patterns path root : Value) (home : List String := Path.usualHome) : Except Fault Bool := do
  if !patterns.truthy then return false
  let relative ← relativeOf path root home
  anyAccepts relative (← patterns.elements)

end IgnoreFile

end CodeAudit

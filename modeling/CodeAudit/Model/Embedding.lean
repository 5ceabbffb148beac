import CodeAudit.Model.Features
import CodeAudit.Python.Functions

/-!
# Code embeddings

The code around a finding and the vector that stands for it, which is zero with the model at hand and without one. The
code around a line of a Python file is the outermost function that holds it, and else, as in other files, a window of
lines.
-/

namespace CodeAudit.Embedding

def size : Nat := 768

def ofCode (_code : String) : List Float := List.replicate size 0.0

/-- The embeddings of several texts, computed in batches of the given size. Without a model no batches
are made. -/
def ofCodes (hasModel : Bool) (batchSize : Int) (codes : List String) : Except Fault (List (List Float)) :=
  if !codes.isEmpty && hasModel && batchSize ≤ 0 then .error .meaningless
  else .ok (codes.map ofCode)

def model (hasModel : Bool) : Except Fault Unit :=
  if hasModel then .ok () else .error .notInstalled

/-! ## Code around a line -/

/-- A bound of a window of lines: the nearer of a limit and a computed position. A position that is no
whole number cannot bound a window. -/
def bound (takesLimit : Ordering → Bool) (limit : Int) (position : Number) : Except Fault Int :=
  match (Number.whole limit).compare? position with
  | some order =>
    if takesLimit order then .ok limit
    else match position with
      | .whole n => .ok n
      | .real _ => .error .wrongKind
  | none => .ok limit

/-- The lines from one position up to another; a negative end counts from the last line back. -/
def window (lines : List (List Char)) (start stop : Int) : List (List Char) :=
  let last := if stop < 0 then stop + lines.length else stop
  (lines.take last.toNat).drop start.toNat

def joined (lines : List (List Char)) : String := String.ofList (['\n'].intercalate lines)

/-- The function that holds a line, or none: of two that do, the outer one. -/
def enclosingFunction (source : String) (line : Number) : Except Fault (Option String) :=
  let holds (t : Python.Tree) : Bool :=
    match (Number.whole t.line).compare? line, line.compare? (.whole t.endLine) with
    | some a, some b => a != .gt && b != .gt
    | _, _ => false
  match Python.Tree.ofSource source with
  | .error .badSource => .ok none
  | .error fault => .error fault
  | .ok tree =>
    .ok ((tree.levelOrder.find? fun t => t.anyFunctionName?.isSome && holds t).map fun t =>
      joined (window (Chars.brokenLines source.toList) (t.line - 1) t.endLine))

def around (source : String) (line reach : Number) : Except Fault String := do
  let lines := Chars.brokenLines source.toList
  let start ← bound (· != .lt) 0 (← (← line.minus (.whole 1)).minus reach)
  let stop ← bound (· != .gt) lines.length (← line.plus reach)
  return joined (window lines start stop)

def context (files : FileTree) (path : String) (line : Value) (reach : Value := .int 10) :
    Except Fault String :=
  match files.text .mark path with
  | .error fault => if fault.isOfFiles then .ok "" else .error fault
  | .ok source => do
    let n ← line.toNumber
    let enclosing ← if Text.endsWith path ".py" then enclosingFunction source n else .ok none
    match enclosing.filter (!·.isEmpty) with
    | some code => return code
    | none => around source n (← reach.toNumber)

def enriched (files : FileTree) (finding : Value) : Except Fault Record := do
  let path ← finding.part "file" (.str "")
  let line ← finding.part "line" (.int 1)
  let code ← match path with
    | .str p => context files p line
    | .int _ | .bool _ => .ok ""
    | _ => .error .wrongKind
  return Record.put (← finding.fields) "embedding" (.list ((ofCode code).map .float))

/-! ## Arrays of numbers -/

/-- The extents of a nested list of numbers, outermost first, with the numbers in order; a list whose
parts differ in shape has none. -/
def shaped : Nat → Value → Except Fault (List Nat × List Float)
  | 0, _ => .error .meaningless
  | depth + 1, .list items => do
    let parts ← items.mapM (shaped depth)
    match parts with
    | [] => return ([0], [])
    | (extents, _) :: _ =>
      if parts.all (·.1 == extents) then
        return (items.length :: extents, parts.flatMap (·.2))
      else .error .meaningless
  | _, .null => .ok ([], [Decimal.gap])
  | _, v => v.readDouble.map fun x => ([], [x])

def nested : List Nat → List Float → Value
  | [], numbers => .float (numbers.headD 0.0)
  | [_], numbers => .list (numbers.map .float)
  | extent :: inner, numbers =>
    let step := inner.foldl (· * ·) 1
    .list ((List.range extent).map fun i => nested inner ((numbers.drop (i * step)).take step))

/-- The features of a finding followed by its embedding. Arrays can be joined where they differ in
their outermost extent only. -/
def combined (features embedding : Value) : Except Fault Value := do
  let (a, xs) ← shaped 32 features
  let (b, ys) ← shaped 32 embedding
  match a, b with
  | m :: inner, n :: inner' =>
    if inner == inner' then return nested ((m + n) :: inner) (xs ++ ys) else .error .meaningless
  | _, _ => .error .meaningless

end CodeAudit.Embedding

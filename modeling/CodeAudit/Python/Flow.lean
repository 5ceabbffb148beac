import CodeAudit.Python.Taint
import CodeAudit.Value.Access

/-!
# Tainted values across functions

All functions of a project are indexed by file and name. From each that reads from outside, the search follows calls to
indexed functions that receive a tainted variable, level by level, and reports each sink that receives one.
-/

namespace CodeAudit.Python

/-- A call inside an indexed function: the name called, which parameter of the function at the same
position stands for which variable, and the line. -/
structure FlowCall where
  callee : String
  arguments : List (String × String)
  line : Nat
  deriving DecidableEq, Repr

/-- A function with its calls, under the key by which calls find it. -/
structure IndexedFunction where
  key : String
  parameters : List String
  tree : Tree
  calls : List FlowCall
  file : String
  line : Nat

/-- Writes an entry: in its place if the key is present, at the end otherwise. -/
def putEntry {α : Type} (entries : List (String × α)) (key : String) (value : α) : List (String × α) :=
  if entries.any (·.1 == key) then
    entries.map fun entry => if entry.1 == key then (key, value) else entry
  else entries ++ [(key, value)]

/-- The call of a node, seen from a function with the given parameters. The variables among its
plain arguments are matched with the parameters at the same positions. -/
def flowCall (parameters : List String) (t : Tree) : FlowCall :=
  let matched := (parameters.zip (t.partsIn .argument)).filterMap fun (p, a) =>
    a.name?.map fun v => (p, v)
  { callee := t.calleeName, line := t.line
    arguments := matched.foldl (fun found (p, v) => putEntry found p v) [] }

def IndexedFunction.ofTree (key file : String) (t : Tree) : IndexedFunction :=
  let parameters := t.parameterNames
  { key, parameters, tree := t, file, line := t.line
    calls := (t.preorder.filter Tree.isCall).map (flowCall parameters) }

def functionsOf (t : Tree) : List (String × Tree) :=
  t.levelOrder.filterMap fun f => f.functionName?.map (·, f)

/-- The index of a project: a later definition under the same key takes the place of the earlier
one. Files that are no programs are passed over; files that are no text are faults. -/
def indexProject (files : FileTree) (path : String) (room : Nat := usualRoom) :
    Except Fault (List IndexedFunction) := do
  let mut entries : List (String × IndexedFunction) := []
  for file in files.walk path do
    if Text.endsWith file ".py" then
      let source ← files.text .refuse file
      match Tree.ofSource source with
      | .error _ => pure ()
      | .ok t =>
        (functionsOf t).forM fun (_, f) => f.visitable Tree.calling room
        entries := (functionsOf t).foldl (fun found (name, f) =>
          let key := Path.relative file path files.home ++ "::" ++ name
          putEntry found key (IndexedFunction.ofTree key file f)) entries
  return entries.map (·.2)

/-- The variables of a tree that are assigned the result of an outside call, in order of their code
points. -/
def flowSources (t : Tree) : List String := Text.sortedSet (t.levelOrder.flatMap Tree.taintedTargets)

def sinkCalls (t : Tree) : List Tree := t.calls.filter fun c => flowSinks.contains c.calleeName

/-- A stage of the search: a function with its tainted variables, the chain of functions that leads
to it and the tainted variables of each. -/
structure FlowStage where
  key : String
  tainted : List String
  chain : List String
  trace : List (List String)

/-- A value from outside that reaches a sink through calls: the functions on its way and the variables
that carry it in each. -/
structure FlowFinding where
  source : String
  function : String
  sink : String
  line : Nat
  chain : List String
  var : String
  trace : List (List String)

def FlowFinding.toRecord (f : FlowFinding) : Record :=
  [("type", .str "interprocedural_taint"), ("source_func", .str f.source),
   ("sink_func", .str f.function), ("sink", .str f.sink), ("sink_line", .nat f.line),
   ("call_chain", .texts f.chain), ("tainted_var", .str f.var),
   ("var_trace", .list (f.trace.map fun vars => .set (vars.map .str)))]

def lookUp (index : List IndexedFunction) (key : String) : Option IndexedFunction :=
  index.find? (·.key == key)

/-- The findings of a stage: each sink of the function, each tainted variable among its plain
arguments. -/
def FlowStage.findings (s : FlowStage) (f : IndexedFunction) : List FlowFinding :=
  (sinkCalls f.tree).flatMap fun call =>
    (((call.partsIn .argument).filterMap Tree.name?).filter (s.tainted.contains ·)).map fun v =>
      { source := s.chain.headD "", function := s.key, sink := call.calleeName, line := call.line
        chain := s.chain, var := v, trace := s.trace }

/-- The stages that follow a stage: one for each call of an indexed function that receives a tainted
variable. -/
def FlowStage.next (index : List IndexedFunction) (s : FlowStage) (f : IndexedFunction) : List FlowStage :=
  f.calls.filterMap fun call =>
    if (lookUp index call.callee).isSome then
      let received := (call.arguments.filter fun (_, v) => s.tainted.contains v).map (·.1)
      if received.isEmpty then none
      else some { key := call.callee, tainted := Text.sortedSet received
                  chain := s.chain ++ [call.callee], trace := s.trace ++ [Text.sortedSet received] }
    else none

/-- The findings of the stages of one level, the stages of the next and what has been visited. A
function is visited once with the same tainted variables. -/
def visitStages (index : List IndexedFunction) :
    List (String × List String) → List FlowStage → List FlowFinding × List FlowStage × List (String × List String)
  | visited, [] => ([], [], visited)
  | visited, s :: rest =>
    match lookUp index s.key with
    | none => visitStages index visited rest
    | some f =>
      if visited.contains (s.key, s.tainted) then visitStages index visited rest
      else
        let (found, next, visited') := visitStages index ((s.key, s.tainted) :: visited) rest
        (s.findings f ++ found, s.next index f ++ next, visited')

def flowLevels (index : List IndexedFunction) :
    Nat → List (String × List String) → List FlowStage → List FlowFinding
  | 0, _, _ => []
  | n + 1, visited, stages =>
    if stages.isEmpty then []
    else
      let (found, next, visited') := visitStages index visited stages
      found ++ flowLevels index n visited' next

def flowsFrom (index : List IndexedFunction) (levels : Nat) (f : IndexedFunction) : List FlowFinding :=
  let sources := flowSources f.tree
  if sources.isEmpty then []
  else flowLevels index levels []
    [{ key := f.key, tainted := sources, chain := [f.key], trace := [sources] }]

/-- The findings on an index; chains have at most `maxDepth` calls. -/
def flowFindings (index : List IndexedFunction) (maxDepth : Int) : List FlowFinding :=
  index.flatMap (flowsFrom index (maxDepth + 1).toNat)

/-- The number of calls that a bound of any kind allows: a fraction is rounded down, and what has no
bound above allows as many as usual. -/
def depthOf (bound : Value) : Except Fault Int :=
  match bound.number? with
  | some (.whole n) => .ok n
  | some (.real x) => match Decimal.truncate? x with
    | some n => .ok (if x < Decimal.ofInt n then n - 1 else n)
    | none => .ok (if x < 0.0 then -1 else 10)
  | none => .error .wrongKind

/-- The flows in a project along at most so many calls. -/
def analyzeFlows (files : FileTree) (path : String) (maxDepth : Int := 10) (room : Nat := usualRoom) :
    Except Fault (List Record) := do
  return (flowFindings (← indexProject files path room) maxDepth).map (·.toRecord)

end CodeAudit.Python

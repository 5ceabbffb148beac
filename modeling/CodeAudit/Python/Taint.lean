import CodeAudit.Python.Functions

/-!
# Tainted variables within a file

A variable is tainted when it is assigned the result of a call that reads from outside. The tree is visited node by
node, each before its parts; a sink that has a tainted variable among its plain arguments, visited after the assignment,
is reported. An assignment counts from its visit on, also for calls inside its own value.
-/

namespace CodeAudit.Python

structure Sighting where
  line : Nat
  call : String
  deriving DecidableEq, Repr

def Sighting.toValue (s : Sighting) : Value := .tuple [.nat s.line, .str s.call]

abbrev Taints := List (String × Sighting)

variable (taints : Taints)

def Taints.source? (var : String) : Option Sighting :=
  (taints.find? (·.1 == var)).map (·.2)

variable (t : Tree)

def Tree.assignedSource? : Option String :=
  if t.isAssign then
    match (t.partsIn .value).head? with
    | some value =>
      if value.isCall && taintSources.contains value.calleeName then some value.calleeName else none
    | none => none
  else none

def Tree.taintedTargets : List String :=
  if t.assignedSource?.isSome then (t.partsIn .target).filterMap Tree.name? else []

def Taints.after (t : Tree) : Taints :=
  match t.assignedSource? with
  | some call => (t.taintedTargets.map fun v => (v, { line := t.line, call })) ++ taints
  | none => taints

/-- A variable that was assigned from a source and is handed to a sink. -/
structure TaintFinding where
  var : String
  source : Sighting
  sink : Sighting
  deriving DecidableEq, Repr

def Taints.reached (t : Tree) : List TaintFinding :=
  if t.isCall && taintSinks.contains t.calleeName then
    ((t.partsIn .argument).filterMap Tree.name?).filterMap fun v =>
      (taints.source? v).map fun source =>
        { var := v, source, sink := { line := t.line, call := t.calleeName } }
  else []

structure TaintVisit where
  taints : Taints := []
  latest : List TaintFinding := []

namespace TaintVisit

/-- A node is looked at: what it hands to a sink is reported, and what it taints is kept in mind. -/
def see (visit : TaintVisit) (t : Tree) : TaintVisit :=
  { taints := visit.taints.after t, latest := (visit.taints.reached t).reverse ++ visit.latest }

mutual

/-- A node is visited: it is looked at, then its parts are visited. -/
def enter (visit : TaintVisit) : Tree → TaintVisit
  | .node role tag line endLine parts => enterAll (visit.see (.node role tag line endLine parts)) parts

def enterAll (visit : TaintVisit) : List Tree → TaintVisit
  | [] => visit
  | t :: ts => enterAll (visit.enter t) ts

end

end TaintVisit

/-- The findings of a whole visit, in its order. -/
def taintFindings : List TaintFinding := ((({} : TaintVisit).enter t).latest).reverse

def TaintFinding.toRecord (f : TaintFinding) : Record :=
  [("type", .str "taint_analysis"), ("source", .list [f.source.toValue]),
   ("sink", .str f.sink.call), ("sink_line", .nat f.sink.line), ("variable", .str f.var),
   ("trace", .list [f.source.toValue, f.sink.toValue])]

/-- The findings on a tree as documents; a tree that a visit cannot follow to its leaves is refused. -/
def taintTree (room : Nat := usualRoom) : Except Fault (List Record) := do
  t.visitable Tree.tainting room
  return (taintFindings t).map (·.toRecord)

def taintFile (files : FileTree) (path : String) (room : Nat := usualRoom) : Except Fault (List Record) := do
  taintTree (← treeOfFile files path) room

end CodeAudit.Python

import CodeAudit.Value.Basic

/-!
# Issues

What the line scanners report: a check that failed at a line of a file.
-/

namespace CodeAudit

structure Check where
  kind : String
  id : String
  name : String
  severity : String
  cwe : String
  message : String
  deriving DecidableEq, Repr

structure Issue where
  check : Check
  file : String
  line : Nat
  deriving DecidableEq, Repr

def Issue.toRecord (i : Issue) : Record :=
  [("type", .str i.check.kind), ("rule_id", .str i.check.id), ("name", .str i.check.name),
   ("file", .str i.file), ("line", .nat i.line), ("severity", .str i.check.severity),
   ("cwe", .str i.check.cwe), ("message", .str i.check.message)]

def linesWhere (p : List Char → Bool) (lines : List (List Char)) : List Nat :=
  (lines.zipIdx 1).filterMap fun (line, n) => if p line then some n else none

def Check.issuesWhere (c : Check) (file : String) (lines : List (List Char)) (p : List Char → Bool) : List Issue :=
  (linesWhere p lines).map fun n => { check := c, file, line := n }

end CodeAudit

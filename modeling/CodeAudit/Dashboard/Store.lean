import CodeAudit.Dashboard.Page
import CodeAudit.Json.Writer
import CodeAudit.Value.Access

/-!
# The store of scans

Scans with their findings, in the order in which they were made. A scan comes with its stamp, a new identifier and the
time, which are not the store's to choose. The rows of a report are written one after the other and committed together;
an attempt that fails leaves nothing behind. Findings are numbered through all scans, and no number is used twice.
-/

namespace CodeAudit

structure SeverityCounts where
  critical : Nat := 0
  high : Nat := 0
  medium : Nat := 0
  low : Nat := 0
  deriving DecidableEq

def SeverityCounts.add (c : SeverityCounts) : Value → SeverityCounts
  | .str "critical" => { c with critical := c.critical + 1 }
  | .str "high" => { c with high := c.high + 1 }
  | .str "medium" => { c with medium := c.medium + 1 }
  | .str "low" => { c with low := c.low + 1 }
  | _ => c

structure StoredScan where
  id : String
  path : Cell
  total : Nat
  counts : SeverityCounts
  files : Cell
  duration : Cell
  metadata : Cell
  created : String

def StoredScan.toRecord (s : StoredScan) : Record :=
  [("id", .str s.id), ("scan_path", s.path.toValue), ("status", .str "completed"),
   ("total_findings", .nat s.total), ("high_count", .nat s.counts.high),
   ("medium_count", .nat s.counts.medium), ("low_count", .nat s.counts.low),
   ("critical_count", .nat s.counts.critical), ("files_scanned", s.files.toValue),
   ("scan_duration", s.duration.toValue), ("metadata", s.metadata.toValue),
   ("created_at", .str s.created)]

structure StoredFinding where
  id : Nat
  scan : String
  findingId : Cell
  type : Cell
  severity : Cell
  file : Cell
  line : Cell
  message : Cell
  rule : Cell
  weakness : Cell
  details : String

def StoredFinding.toRecord (f : StoredFinding) : Record :=
  [("id", .nat f.id), ("scan_id", .str f.scan), ("finding_id", f.findingId.toValue),
   ("type", f.type.toValue), ("severity", f.severity.toValue), ("file", f.file.toValue),
   ("line", f.line.toValue), ("message", f.message.toValue), ("rule_id", f.rule.toValue),
   ("cwe", f.weakness.toValue), ("details", .str f.details)]

/-- A scan as it is handed in; the store reads its findings and counts them itself. -/
structure ScanReport where
  path : Value
  findings : Value
  files : Value := .null
  duration : Value := .null
  metadata : Value := .null

/-- The scans and findings in order of writing, and the last number that a finding was given. -/
structure Store where
  scans : List StoredScan := []
  findings : List StoredFinding := []
  numbered : Nat := 0

namespace Store

/-! ## Making scans -/

/-- What a scan is given from outside when it is made: an identifier and the time. -/
structure Stamp where
  id : String
  created : String

/-- The severity of a finding, low unless said otherwise. It must be something that can be looked up. -/
def severityOf (finding : Value) : Except Fault Value := do
  let severity ← finding.part "severity" (.str "low")
  if severity.hashable then return severity else .error .wrongKind

def countsOf (findings : List Value) : Except Fault SeverityCounts := do
  return (← findings.mapM severityOf).foldl SeverityCounts.add {}

def required (c : Cell) : Except Fault Cell := if c.isNull then .error .constraint else .ok c

variable (stamp : Stamp) (report : ScanReport)

def scanOf (total : Nat) (counts : SeverityCounts) : Except Fault StoredScan := do
  let metadata ← if report.metadata.truthy then (Json.writeStrict .line report.metadata).map Cell.text
    else .ok Cell.null
  let path ← Cell.ofValue report.path
  let files ← Cell.ofValue report.files
  let duration ← Cell.ofValue report.duration
  return { id := stamp.id, path := (← required path).inTextColumn, total, counts
           files := files.inWholeColumn, duration := duration.inRealColumn, metadata
           created := stamp.created }

def findingOf (scan : String) (id place : Nat) (finding : Value) : Except Fault StoredFinding := do
  let fields ← finding.fields
  let cell := fun (name : String) (default : Value) => Cell.ofValue (fields.getD name default)
  let details ← Json.writeStrict .line finding
  let findingId ← cell "id" (.str ("VP-" ++ Text.zeroPadded 4 (place + 1 : Nat)))
  let type ← cell "type" (.str "unknown")
  let severity ← cell "severity" (.str "low")
  let file ← cell "file" .null
  let line ← cell "line" .null
  let message ← cell "message" .null
  let rule ← cell "rule_id" .null
  let weakness ← cell "cwe" .null
  return { id, scan, findingId := (← required findingId).inTextColumn
           type := (← required type).inTextColumn, severity := (← required severity).inTextColumn
           file := file.inTextColumn, line := line.inWholeColumn, message := message.inTextColumn
           rule := rule.inTextColumn, weakness := weakness.inTextColumn, details }

/-- The store as everyone sees it, and as it is for a connection that has written to it. -/
structure Connection where
  committed : Store
  working : Store

/-- Statements on a connection. What was written stays in the connection even where a later one fails. -/
abbrev Transaction := ExceptT Fault (StateM Connection)

namespace Transaction

def ofExcept {α : Type} : Except Fault α → Transaction α
  | .ok a => return a
  | .error fault => throw fault

def view : Transaction Store := return (← get).working

def write (change : Store → Store) : Transaction Unit :=
  modify fun c => { c with working := change c.working }

def commit : Transaction Unit := modify fun c => { c with committed := c.working }

/-- Runs statements on a connection of their own, which is closed at the end: what has not been committed
by then is gone. -/
def runOn {α : Type} (s : Store) (statements : Transaction α) : Except Fault α × Store :=
  let (result, last) := statements.run { committed := s, working := s }
  (result, last.committed)

end Transaction

def insertScan (total : Nat) (counts : SeverityCounts) : Transaction StoredScan := do
  let scan ← Transaction.ofExcept (scanOf stamp report total counts)
  let s ← Transaction.view
  if s.scans.any (·.id == scan.id) then throw .constraint
  Transaction.write fun s => { s with scans := s.scans ++ [scan] }
  return scan

def insertFinding (scan : String) (finding : Value × Nat) : Transaction Unit := do
  let s ← Transaction.view
  let row ← Transaction.ofExcept (findingOf scan (s.numbered + 1) finding.2 finding.1)
  Transaction.write fun s => { s with findings := s.findings ++ [row], numbered := s.numbered + 1 }

def insertReport : Transaction StoredScan := do
  let findings ← Transaction.ofExcept report.findings.elements
  let counts ← Transaction.ofExcept (countsOf findings)
  let scan ← insertScan stamp report findings.length counts
  findings.zipIdx.forM (insertFinding scan.id)
  Transaction.commit
  return scan

variable (s : Store)

/-- Stores a scan with its findings under a stamp; where it fails the store is left as it is. -/
def create (stamp : Stamp) (report : ScanReport) : Except Fault StoredScan × Store :=
  Transaction.runOn s (insertReport stamp report)

/-! ## Looking things up -/

def scan? (id : Value) : Except Fault (Option StoredScan) := do
  let wanted ← Cell.ofValue id
  return s.scans.find? fun scan => (Cell.text scan.id).holds wanted

/-- The scans by time, the latest first, and of those of one time the one that was made last. -/
def newestFirst (scans : List StoredScan) : List StoredScan :=
  scans.reverse.mergeSort fun a b => b.created ≤ a.created

def scanPage (number size : Value) : Except Fault (Page StoredScan) := do
  Page.of (newestFirst s.scans) (← PageRequest.of number size)

/-- Which findings are wanted. A filter that is empty lets everything pass. -/
structure Filter where
  severity : Value := .null
  type : Value := .null

def cellFilter (wanted : Value) : Except Fault (Cell → Bool) := do
  if wanted.truthy then
    let cell ← Cell.ofValue wanted
    return fun c => c.holds cell
  else return fun _ => true

/-- The findings of a scan that pass a filter. -/
def matching (scan : Value) (filter : Filter) : Except Fault (List StoredFinding) := do
  let id ← Cell.ofValue scan
  let bySeverity ← cellFilter filter.severity
  let byType ← cellFilter filter.type
  return s.findings.filter fun f => (Cell.text f.scan).holds id && bySeverity f.severity && byType f.type

def findingPage (scan : Value) (filter : Filter) (number size : Value) : Except Fault (Page StoredFinding) := do
  let request ← PageRequest.of number size
  Page.of (← s.matching scan filter) request

def delete (id : Value) : Except Fault Bool × Store :=
  match s.scan? id with
  | .error fault => (.error fault, s)
  | .ok none => (.ok false, s)
  | .ok (some scan) =>
    (.ok true, { s with scans := s.scans.filter (·.id != scan.id)
                        findings := s.findings.filter (·.scan != scan.id) })

/-! ## Statistics -/

def frequencies (cells : List Cell) : List (String × Nat) :=
  let texts := cells.filterMap fun
    | .text s => some s
    | _ => none
  (Text.sortedSet texts).map fun s => (s, texts.count s)

/-- The ten most frequent ones, of equally frequent ones the last in order. -/
def mostFrequent (found : List (String × Nat)) : List (String × Nat) :=
  (found.reverse.mergeSort fun a b => b.2 ≤ a.2).take 10

def statistics : Record :=
  let counted := fun (found : List (String × Nat)) => Value.obj (found.map fun (k, n) => (k, .nat n))
  [("total_scans", .nat s.scans.length), ("total_findings", .nat s.findings.length),
   ("severity_distribution", counted (frequencies (s.findings.map (·.severity)))),
   ("type_distribution", counted (mostFrequent (frequencies (s.findings.map (·.type))))),
   ("recent_scans", .list (((newestFirst s.scans).take 5).map fun scan => .obj scan.toRecord))]

end Store

end CodeAudit

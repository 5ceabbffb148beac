import CodeAudit.Value.Access

/-!
# Advisories

An advisory as a vulnerability database sends it, reduced to what a report shows.
-/

namespace CodeAudit

inductive AdvisoryLevel where
  | critical
  | high
  | medium
  | low
  | unknown
  deriving DecidableEq, Repr

namespace AdvisoryLevel

def word : AdvisoryLevel → String
  | critical => "critical"
  | high => "high"
  | medium => "medium"
  | low => "low"
  | unknown => "unknown"

def all : List AdvisoryLevel := [critical, high, medium, low, unknown]

/-- The rank of a word: smaller is more severe, and words that name no level come last. -/
def rankOf (w : String) : Nat :=
  match all.findIdx? (·.word == w) with
  | some i => i
  | none => 99

def ofScore (score : Value) : Except Fault AdvisoryLevel := do
  if ← score.atLeast (.float 9.0) then return critical
  if ← score.atLeast (.float 7.0) then return high
  if ← score.atLeast (.float 4.0) then return medium
  return low

def ofName (name : String) : AdvisoryLevel :=
  match Text.upper name with
  | "CRITICAL" => critical
  | "HIGH" => high
  | "MODERATE" => medium
  | "MEDIUM" => medium
  | "LOW" => low
  | _ => unknown

end AdvisoryLevel

/-- The version that brought a flaw and the one without it; either may be missing. -/
structure AffectedRange where
  introduced : Value
  fixed : Value

structure Advisory where
  id : Value
  summary : Value
  cves : List Value
  level : AdvisoryLevel
  score : Option Float
  urls : Value
  ranges : List AffectedRange

namespace Advisory

/-- The level of an advisory with its score. The listed severities are only looked through; the
database's own score counts, else the word it uses. -/
def readLevel (vuln : Value) : Except Fault (AdvisoryLevel × Option Float) := do
  for entry in ← (← vuln.part "severity" (.list [])).elements do
    let kind ← entry.part "type" (.str "")
    let _ ← entry.part "score" (.str "")
    let _ ← kind.asText
  let own ← vuln.part "database_specific" (.obj [])
  let score := (← own.part "cvss_score").orElse (← own.part "score")
  match score.number? with
  | some _ =>
    let level ← AdvisoryLevel.ofScore score
    return (level, some (← score.toFloat?))
  | none => return (.ofName (← (← own.part "severity" (.str "")).asText), none)

/-- The version that an event names, or the one named before where it names none. -/
def readBound (event : Value) (name : String) (before : Value) : Except Fault Value := do
  if ← (Value.str name).member event then event.need name else return before

def readBounds (events : List Value) : Except Fault AffectedRange :=
  events.foldlM (fun (range : AffectedRange) event => do
    let introduced ← readBound event "introduced" range.introduced
    let fixed ← readBound event "fixed" range.fixed
    return { introduced, fixed }) { introduced := .null, fixed := .null }

def readRange (range : Value) : Except Fault (List AffectedRange) := do
  let bounds ← readBounds (← (← range.part "events" (.list [])).elements)
  return if bounds.introduced.truthy || bounds.fixed.truthy then [bounds] else []

def readAffected (affected : Value) : Except Fault (List AffectedRange) := do
  let ranges ← (← affected.part "ranges" (.list [])).elements
  return (← ranges.mapM readRange).flatten

/-- The affected ranges of an advisory; a range without bounds is left out. -/
def readRanges (vuln : Value) : Except Fault (List AffectedRange) := do
  let affected ← (← vuln.part "affected" (.list [])).elements
  return (← affected.mapM readAffected).flatten

/-- An advisory from the document of the database. Fields it does not have get usual values. -/
def read (vuln : Value) : Except Fault Advisory := do
  let id ← vuln.part "id" (.str "UNKNOWN")
  let details ← vuln.part "details" (.str "No description available")
  let summary ← (← vuln.part "summary" details).cut 200
  let aliases ← (← vuln.part "aliases" (.list [])).elements
  let cves ← aliases.filterM fun a => do return Text.startsWith (← a.asText) "CVE-"
  let (level, score) ← readLevel vuln
  let references ← (← vuln.part "references" (.list [])).elements
  let urls ← references.mapM fun r => r.part "url"
  let ranges ← readRanges vuln
  return { id, summary, cves, level, score, urls := .list ((urls.filter Value.truthy).take 3), ranges }

def toRecord (a : Advisory) : Record :=
  [("vuln_id", a.id), ("summary", a.summary), ("cve_ids", .list a.cves),
   ("severity", .str a.level.word), ("cvss_score", (a.score.map Value.float).getD .null),
   ("advisory_urls", a.urls),
   ("affected_ranges", .list (a.ranges.map fun r =>
     .obj [("introduced", r.introduced), ("fixed", r.fixed)]))]

def readAll (vulns : Value) : Except Fault (List Value) := do
  (← vulns.elements).mapM fun v => do return .obj (← read v).toRecord

end Advisory

end CodeAudit

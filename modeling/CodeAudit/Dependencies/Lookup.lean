import CodeAudit.Dependencies.Advisory
import CodeAudit.Dependencies.Cache
import CodeAudit.Remote.Network

/-!
# Looking packages up

Known vulnerabilities come from a remote database, asked for one package or for several at once, again when the server
is busy or cannot be reached. Answers are cached.
-/

namespace CodeAudit

/-- What a look-up reads and changes. -/
structure LookupState where
  network : Network
  cache : VulnCache
  clock : Float
  /-- The packages whose newest version the package index was asked for, in order. -/
  inquiries : List String := []

/-- A look-up; what it has sent and stored stays even where it fails. -/
abbrev Lookup := ExceptT Fault (StateM LookupState)

namespace Lookup

def maxAttempts : Nat := 3

def backoff (attempt : Nat) : Float := Float.ofNat (2 ^ attempt)

def queryUrl : String := "https://api.osv.dev/v1/query"

def batchUrl : String := "https://api.osv.dev/v1/querybatch"

inductive Verdict where
  /-- Stop with what was received, if anything. -/
  | stop (received : Option Record)
  | abort (fault : Fault)
  /-- Try again; a busy server is waited for even after the last attempt. -/
  | again (busy : Bool)

/-- What a reply means: busy and failing servers are asked again, a refusal is final. -/
def judge : Reply → Verdict
  | .timeout => .again false
  | .unreachable => .again false
  | .failed => .abort .requestFailed
  | .answer status body =>
    if status == 429 || 500 ≤ status then .again true
    else if 400 ≤ status then .stop none
    else
      match body.read >>= Value.toEntries with
      | .ok entries => .stop ((Value.ofEntries entries).namedFields)
      | .error .meaningless | .error (.badJson _) => .stop none
      | .error fault => .abort fault

/-- Sends a request, so many times at most, after the given number of earlier attempts. -/
def sendFrom (request : Request) : Nat → Nat → Network → Except Fault (Option Record) × Network
  | 0, _, network => (.ok none, network)
  | left + 1, attempt, network =>
    let (reply, sent) := network.send request
    match judge reply with
    | .stop received => (.ok received, sent)
    | .abort fault => (.error fault, sent)
    | .again busy =>
      sendFrom request left (attempt + 1)
        (if busy || left != 0 then sent.sleep (backoff attempt) else sent)

def ofExcept {α : Type} : Except Fault α → Lookup α
  | .ok a => return a
  | .error fault => throw fault

def send (request : Request) : Lookup (Option Record) := do
  let s ← get
  let (result, network) := sendFrom request maxAttempts 0 s.network
  set { s with network }
  ofExcept result

variable (p : Package)

def query : Value :=
  .obj [("version", p.version), ("package", .obj [("name", p.name), ("ecosystem", p.ecosystem)])]

def queryRequest : Request := { url := queryUrl, payload := query p, headers := [], timeout := 15 }

def batchRequest (asked : List Package) : Request :=
  { url := batchUrl, payload := .obj [("queries", .list (asked.map query))], headers := [], timeout := 30 }

def cached : Lookup (Option (List Value)) := do
  let s ← get
  ofExcept (s.cache.get s.clock p)

def store (vulns : Value) : Lookup Unit := do
  let s ← get
  let cache ← ofExcept (s.cache.put s.clock p vulns)
  set { s with cache }

/-- The known vulnerabilities of a package. Where the database does not answer there are none, and
nothing is cached. -/
def package : Lookup (List Value) := do
  match ← cached p with
  | some vulns => return vulns
  | none =>
    match ← send (queryRequest p) with
    | none => return []
    | some answer =>
      let vulns ← ofExcept (Advisory.readAll (answer.getD "vulns" (.list [])))
      store p (.list vulns)
      return vulns

def readPackage (v : Value) : Except Fault Package := do
  return { ecosystem := ← v.need "ecosystem", name := ← v.need "package", version := ← v.need "version" }

/-- Splits queries into the ones answered from the cache and the others. -/
def split : List Value → Lookup (Record × List Package)
  | [] => return ([], [])
  | q :: rest => do
    let p ← ofExcept (readPackage q)
    let found ← cached p
    let (answered, asked) ← split rest
    match found with
    | some vulns => return ((p.label, .list vulns) :: answered, asked)
    | none => return (answered, p :: asked)

def readAnswer (entry : Value) : Except Fault (List Value) := do
  Advisory.readAll (← entry.part "vulns" (.list []))

/-- What the answers to a batch say about the package at a place; beyond the last answer there is nothing. -/
def answerAt (answers : Value) (i : Nat) : Except Fault (List Value) := do
  if i < (← answers.size) then
    let items ← answers.elements
    match answers with
    | .obj _ => throw .missingField
    | _ => readAnswer ((items[i]?).getD .null)
  else return []

/-- Reads and stores the answers to a batch, matched with the packages by position; a package
beyond the last answer counts as answered with nothing. -/
def storeBatch (answers : Value) : Nat → List Package → Lookup Record
  | _, [] => return []
  | i, p :: rest => do
    let vulns ← ofExcept (answerAt answers i)
    store p (.list vulns)
    return (p.label, .list vulns) :: (← storeBatch answers (i + 1) rest)

def askEach : List Package → Lookup Record
  | [] => return []
  | p :: rest => do
    let vulns ← package p
    return (p.label, .list vulns) :: (← askEach rest)

/-- The known vulnerabilities of several packages, by label. If the batch is not answered each
package is asked for on its own. -/
def batch (queries : List Value) : Lookup Record := do
  let (answered, asked) ← split queries
  let known := Record.ofFields answered
  if asked.isEmpty then return known
  let fresh ← match ← send (batchRequest asked) with
    | none => askEach asked
    | some answer => storeBatch (answer.getD "results" (.list [])) 0 asked
  return fresh.foldl (fun r (k, v) => Record.put r k v) known

/-- The rank of an advisory given as a document; its severity must be able to name an entry. -/
def rank (vuln : Value) : Except Fault Nat := do
  let severity ← vuln.part "severity" (.str "unknown")
  if !severity.hashable then throw .wrongKind
  match severity with
  | .str w => return AdvisoryLevel.rankOf w
  | _ => return 99

def mostSevere : List (Nat × Value) → Option Value
  | [] => none
  | (r, v) :: rest => some (rest.foldl (fun best x => if x.1 < best.1 then x else best) (r, v)).2

/-- The finding on a vulnerable package: its most severe advisory and how many there are. -/
def vulnerable : Lookup (Option Record) := do
  let vulns ← package p
  let ranked ← ofExcept (vulns.mapM fun v => do return (← rank v, v))
  match mostSevere ranked with
  | none => return none
  | some worst =>
    let field := fun name => ofExcept (worst.need name)
    let id ← field "vuln_id"
    let cves ← field "cve_ids"
    let severity ← field "severity"
    let score ← field "cvss_score"
    let summary ← field "summary"
    let urls ← field "advisory_urls"
    return some
      [("type", .str "vulnerable_dependency"), ("package", p.name), ("version", p.version),
       ("vuln_id", id), ("cve_ids", cves), ("severity", severity), ("cvss_score", score),
       ("summary", summary), ("advisory_urls", urls), ("total_vulnerabilities", .nat vulns.length)]

end Lookup

end CodeAudit

import CodeAudit.Host

/-!
# Download of the vulnerability feed

The vulnerabilities published in a year, fetched in one request and stored as a file. The file is opened before the
answer is read: an answer that is no document leaves it empty.
-/

namespace CodeAudit.CveFeed

def address (year : String) : String :=
  "https://services.nvd.nist.gov/rest/json/cves/2.0?pubStartDate=" ++ year ++
    "-01-01T00:00:00.000&pubEndDate=" ++ year ++ "-12-31T23:59:59.999"

def request (key : Option String) (year : String) : Request :=
  { url := address year, payload := .null, timeout := 60
    headers := match key with
      | some k => if k.isEmpty then [] else [("apiKey", .str k)]
      | none => [] }

/-- The body of an answer; only the statuses from 400 to 599 are errors. -/
def bodyOf : Reply → Except Fault Body
  | .timeout => .error .timeout
  | .unreachable => .error .unreachable
  | .failed => .error .requestFailed
  | .answer status body => if 400 ≤ status ∧ status < 600 then .error .errorStatus else .ok body

/-- Stores the feed of a year. The file is emptied before the answer is read, so an answer that is no
document leaves it empty. -/
def fetch (key : Option String) (year path : String) : Action Unit := do
  let body ← Action.ofExcept (bodyOf (← Action.send (request key year)))
  Action.writeText path ""
  let document ← Action.ofExcept body.read
  Action.writeText path (Json.write .line document)

end CodeAudit.CveFeed

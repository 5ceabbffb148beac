import CodeAudit.Dashboard.Store
import CodeAudit.Json.Reader

/-!
# The interface to the store

A request is looked at in a fixed order: its path and method, the form of its body, the key of the caller, its
parameters and fields, and then the store. All parameters and fields that are not as they should be are named in the
answer. A path that misses only a slash, or has one too many, is sent on.
-/

namespace CodeAudit.Api

structure Request where
  method : String
  target : String
  headers : List (String × String) := []
  body : String := ""

/-- An answer with its status, one without a body, or the places in a request that are not valid. -/
inductive Response where
  | answer (status : Nat) (body : Value)
  | done
  | invalid (places : List (List String))

def Response.refusal (status : Nat) (detail : String) : Response :=
  .answer status (.obj [("detail", .str detail)])

/-! ## Targets -/

/-- The bytes of a text in which a percent sign and two digits stand for one byte; `skip` counts the
digits to be passed over. -/
def escapedBytes : Nat → List Char → List UInt8
  | _, [] => []
  | skip + 1, _ :: cs => escapedBytes skip cs
  | 0, c :: cs =>
    match c, cs.head?.bind Text.hexDigit?, (cs.drop 1).head?.bind Text.hexDigit? with
    | '%', some high, some low => UInt8.ofNat (high * 16 + low) :: escapedBytes 2 cs
    | _, _, _ => (String.singleton c).toUTF8.toList ++ escapedBytes 0 cs

def unescaped (s : String) : String :=
  if s.toList.contains '%' then (Text.decode? .mark (escapedBytes 0 s.toList)).getD s else s

def splitTarget (target : String) : String × String :=
  let cs := target.toList.takeWhile (· != '#')
  (String.ofList (cs.takeWhile (· != '?')), String.ofList ((cs.dropWhile (· != '?')).drop 1))

def parameters (query : String) : List (String × String) :=
  ((Text.fields '&' query).filter (!·.isEmpty)).map fun piece =>
    let cs := piece.toList
    let plain := fun (part : List Char) => unescaped (String.ofList (part.map fun c => if c == '+' then ' ' else c))
    (plain (cs.takeWhile (· != '=')), plain ((cs.dropWhile (· != '=')).drop 1))

variable (ps : List (String × String))

def parameter? (name : String) : Option String :=
  (ps.reverse.find? (·.1 == name)).map (·.2)

/-! ## Routes -/

inductive Place where
  | health
  | scans
  | scan (id : String)
  | findings (id : String)
  | statistics
  | manual
  deriving DecidableEq

variable (path : String)

def Place.scanOf? : Option Place :=
  match Text.fields '/' path with
  | ["", "api", "scans", id] => if id.isEmpty then none else some (.scan id)
  | _ => none

/-- The place of a path. A line end after the last of its words does not count. -/
def Place.ofPath? : Option Place :=
  let line := if Text.endsWith path "\n" then Text.take (path.length - 1) path else path
  match Text.fields '/' line with
  | ["", "api", "health"] => some .health
  | ["", "api", "scans"] => some .scans
  | ["", "api", "stats"] => some .statistics
  | ["", "api", "scans", id, "findings"] => if id.isEmpty then none else some (.findings id)
  | ["", "docs"] | ["", "redoc"] | ["", "openapi.json"] | ["", "docs", "oauth2-redirect"] => some .manual
  | _ => scanOf? path

/-- Whether a path leads somewhere once its last slashes are taken away or one is added. -/
def Place.isBeside : Bool :=
  path != "/" && (ofPath? (if Text.endsWith path "/" then Text.stripEndOf "/" path else path ++ "/")).isSome

inductive Operation where
  | health
  | create
  | list
  | get (id : String)
  | findings (id : String)
  | delete (id : String)
  | statistics

def Operation.of? (method : String) : Place → Option Operation
  | .health => if method == "GET" then some .health else none
  | .scans => if method == "GET" then some .list else if method == "POST" then some .create else none
  | .scan id =>
    if method == "GET" then some (.get id) else if method == "DELETE" then some (.delete id) else none
  | .findings id => if method == "GET" then some (.findings id) else none
  | .statistics => if method == "GET" then some .statistics else none
  | .manual => none

def Operation.needsKey : Operation → Bool
  | .health => false
  | _ => true

/-! ## Checks -/

inductive Problem where
  | wrong (places : List (List String))
  | failed (fault : Fault)

abbrev Checked (α : Type) := Except Problem α

variable {α : Type}

def Checked.wrong (place : List String) : Checked α := .error (.wrong [place])

def both {α β : Type} (a : Checked α) (b : Checked β) : Checked (α × β) :=
  match a, b with
  | .ok x, .ok y => .ok (x, y)
  | .error (.failed fault), _ => .error (.failed fault)
  | _, .error (.failed fault) => .error (.failed fault)
  | .error (.wrong ps), .error (.wrong qs) => .error (.wrong (ps ++ qs))
  | .error ps, .ok _ => .error ps
  | .ok _, .error qs => .error qs

def all {α β : Type} (check : α → Checked β) : List α → Checked (List β)
  | [] => .ok []
  | x :: xs => (both (check x) (all check xs)).map fun (y, ys) => y :: ys

def wholeParameter (name : String) (default least : Int) (most : Option Int) : Checked Int :=
  match parameter? ps name with
  | none => .ok default
  | some text =>
    match Decimal.readInt? text with
    | none => .wrong ["query", name]
    | some n => if least ≤ n && most.all (n ≤ ·) then .ok n else .wrong ["query", name]

def pageParameters (size most : Int) : Checked (Int × Int) :=
  both (wholeParameter ps "page" 1 1 none) (wholeParameter ps "per_page" size 1 (some most))

variable (place : List String) (v : Value)

def textField : Value → Checked Value
  | .str s => .ok (.str s)
  | .int n => .ok (.str (toString n))
  | .float x | .estimate x => .ok (.str (Decimal.plain x))
  | .bool b => .ok (.str (Value.boolWord b))
  | _ => .wrong place

/-- What was read at a place. A number beyond all bounds cannot even be checked. -/
def readAt : Except Fault Value → Checked Value
  | .ok v => .ok v
  | .error .overflow => .error (.failed .overflow)
  | .error _ => .wrong place

def wholeField : Checked Value := readAt place (v.readWhole.map .int)

def realField : Checked Value := readAt place (v.readDouble.map .float)

/-- A record, or the pairs of one; names are taken as texts. -/
def recordField : Checked Value :=
  match v.toEntries with
  | .ok entries => do
    let fields ← all (fun (name, value) => do
      return ((← textField (place ++ ["__key__"]) name).text, value)) entries
    return .obj (Record.ofFields fields)
  | .error _ => .wrong place

def fieldsOf? : Option Record :=
  match v.toEntries.map Value.ofEntries with
  | .ok (.obj fields) => some fields
  | _ => none

variable (check : List String → Value → Checked Value) (place : List String)

def optional (r : Record) (name : String) : Checked Value :=
  match Record.get? r name with
  | none | some .null => .ok .null
  | some v => check (place ++ [name]) v

def needed (r : Record) (name : String) : Checked Value :=
  match Record.get? r name with
  | none => .wrong (place ++ [name])
  | some v => check (place ++ [name]) v

/-- A finding in a body: its known fields, in a fixed order. -/
def findingField (v : Value) : Checked Value :=
  match fieldsOf? v with
  | some r => do
    let texts := [("type", .str "unknown"), ("severity", .str "low")]
    let given := all (fun (name, default) => do
      return (name, ← textField (place ++ [name]) (Record.getD r name default))) texts
    let may := fun (check : List String → Value → Checked Value) (name : String) => do
      return (name, ← optional check place r name)
    let others := all (fun (check, name) => may check name)
      [(textField, "file"), (wholeField, "line"), (textField, "message"), (textField, "rule_id"), (textField, "cwe")]
    let (a, b) ← both given others
    return .obj (a ++ b)
  | none => .wrong place

def findingsField : Value → Checked Value
  | .list items => do
    return .list (← all (fun (v, i) => findingField (place ++ [toString i]) v) items.zipIdx)
  | _ => .wrong place

def scanOfBody (body : Value) : Checked ScanReport :=
  match fieldsOf? body with
  | some r => do
    let place := ["body"]
    let required := both (needed textField place r "scan_path") (needed findingsField place r "findings")
    let numbers := both (optional wholeField place r "files_scanned") (optional realField place r "scan_duration")
    let ((path, findings), (files, duration), metadata) ←
      both required (both numbers (optional recordField place r "metadata"))
    return { path, findings, files, duration, metadata }
  | none => .wrong ["body"]

/-! ## Answers -/

def placeBefore (a b : List String) : Bool := compare a b != .gt

/-- Why a request goes no further: it has been answered already, or the server failed. -/
inductive Halt where
  | answered (response : Response)
  | failed (fault : Fault)

def stop (response : Response) : Except Halt α := .error (.answered response)

def refuse (places : List (List String)) : Except Halt α :=
  stop (.invalid (places.mergeSort placeBefore))

def checked : Checked α → Except Halt α
  | .ok x => .ok x
  | .error (.wrong places) => refuse places
  | .error (.failed fault) => .error (.failed fault)

/-- A result of the store; what it refuses is a failure of the server. -/
def fromStore (result : Except Fault α) : Except Halt α := result.mapError .failed

/-! ## Bodies -/

def header? (headers : List (String × String)) (name : String) : Option String :=
  (headers.find? fun h => Text.lower h.1 == name).map (·.2)

/-- The kind of content that a header names: what stands before its first semicolon, in lower case. -/
def contentKind (value : String) : String :=
  Text.lower (Text.strip (String.ofList (value.toList.takeWhile (· != ';'))))

def announcesJson (value : String) : Bool :=
  match Text.fields '/' (contentKind value) with
  | ["application", kind] => kind == "json" || Text.endsWith kind "+json"
  | _ => false

def readDocument (body : String) : Except Halt Value :=
  let unreadable : Except Halt Value := stop (.refusal 400 "There was an error parsing the body")
  if !Text.isEncodable body then .error (.failed .unencodable)
  else match Json.textOf? body.toUTF8.toList with
    | none => unreadable
    | some text =>
      match Json.read text with
      | .ok v => .ok v
      | .error (.badJson offset) =>
        -- the answer would show the document
        if Text.isEncodable text then refuse [["body", toString offset]] else .error (.failed .unencodable)
      | .error _ => unreadable

/-- The body of a request, read before anything else is looked at. A body that is not announced as JSON
is no document. -/
def readBody (operation : Operation) (r : Request) : Except Halt Value :=
  match operation with
  | .create =>
    let kind := (header? r.headers "content-type").getD ""
    if r.body.isEmpty || !(kind.isEmpty || announcesJson kind) then .ok .null else readDocument r.body
  | _ => .ok .null

/-! ## Letting requests in -/

variable (key : String)

/-- Whether a request has the key. The empty key is no key: then everyone may ask. -/
def hasKey (headers : List (String × String)) : Bool :=
  key.isEmpty || header? headers "x-api-key" == some key

/-- What a request asks for. An unknown path and a method that its path does not have are answered here. -/
def Request.operation (r : Request) : Except Halt Operation :=
  let path := unescaped (splitTarget r.target).1
  match Place.ofPath? path with
  | none => stop (if Place.isBeside path then .answer 307 .null else .refusal 404 "Not Found")
  | some place =>
    match Operation.of? r.method place with
    | none => stop (.refusal 405 "Method Not Allowed")
    | some operation => .ok operation

structure Demand where
  operation : Operation
  query : List (String × String)
  body : Value

def noKey : Response := .refusal 401 "Invalid or missing API key"

/-- A request that has passed all that stands before its operation. The body is read before the key is
looked at. -/
def Request.demand (r : Request) : Except Halt Demand := do
  let operation ← r.operation
  let body ← readBody operation r
  if operation.needsKey && !hasKey key r.headers then stop noKey
  else return { operation, query := parameters (splitTarget r.target).2, body }

/-! ## Carrying requests out -/

def noScan : Response := .refusal 404 "Scan not found"

/-- A new scan as an answer. One that took forever is stored, but cannot be shown. -/
def shown (scan : StoredScan) : Except Halt Response :=
  match scan.duration with
  | .real x => if x.isInf then .error (.failed .meaningless) else .ok (.answer 201 (.obj scan.toRecord))
  | _ => .ok (.answer 201 (.obj scan.toRecord))

variable (store : Store) (id : String) (query : List (String × String))

def create (stamp : Store.Stamp) (body : Value) : Except Halt Response × Store :=
  match checked (scanOfBody body) with
  | .error halt => (.error halt, store)
  | .ok report =>
    let (result, after) := store.create stamp report
    ((fromStore result).bind shown, after)

def delete : Except Halt Response × Store :=
  let (result, after) := store.delete (.str id)
  ((fromStore result).bind fun found => if found then .ok .done else stop noScan, after)

def list : Except Halt Response := do
  let (number, size) ← checked (pageParameters query 20 100)
  let page ← fromStore (store.scanPage (.int number) (.int size))
  return .answer 200 (.obj (page.toRecord "scans" StoredScan.toRecord))

def get : Except Halt Response := do
  match ← fromStore (store.scan? (.str id)) with
  | some scan => return .answer 200 (.obj scan.toRecord)
  | none => stop noScan

def findings : Except Halt Response := do
  let (number, size) ← checked (pageParameters query 50 200)
  match ← fromStore (store.scan? (.str id)) with
  | none => stop noScan
  | some _ =>
    let filter : Store.Filter :=
      { severity := .optText (parameter? query "severity"), type := .optText (parameter? query "type") }
    let page ← fromStore (store.findingPage (.str id) filter (.int number) (.int size))
    return .answer 200 (.obj (page.toRecord "findings" StoredFinding.toRecord))

/-- Does what is to be done: the answer, or the reason why there is none, and the store after it. -/
def perform (stamp : Store.Stamp) (d : Demand) : Except Halt Response × Store :=
  match d.operation with
  | .health => (.ok (.answer 200 (.obj [("status", .str "ok")])), store)
  | .statistics => (.ok (.answer 200 (.obj store.statistics)), store)
  | .create => create store stamp d.body
  | .list => (list store d.query, store)
  | .get id => (get store id, store)
  | .findings id => (findings store id d.query, store)
  | .delete id => delete store id

/-- The answer that a request ends with; a fault where the server failed. -/
def concluded : Except Halt Response → Except Fault Response
  | .ok response => .ok response
  | .error (.answered response) => .ok response
  | .error (.failed fault) => .error fault

/-- The answer to a request and the store after it. Only a request that is let in gets to the store; the stamp is for
the scan that it may make. -/
def answer (stamp : Store.Stamp) (store : Store) (r : Request) : Except Fault Response × Store :=
  match r.demand key with
  | .error halt => (concluded (.error halt), store)
  | .ok demand =>
    let (result, after) := perform store stamp demand
    (concluded result, after)

end CodeAudit.Api

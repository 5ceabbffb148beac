import CodeAudit.Json.Reader

/-!
# Requests to remote servers

A request is answered, refused or lost. What is sent and how long the program waits is recorded, as part of the
behaviour.
-/

namespace CodeAudit

inductive Body where
  | document (value : Value)
  | text (content : String)

def Body.read : Body → Except Fault Value
  | .document v => .ok v
  | .text s => Json.read s

inductive Reply where
  | answer (status : Int) (body : Body)
  | timeout
  | unreachable
  | failed

structure Request where
  url : String
  payload : Value
  headers : Record
  timeout : Nat

/-- A network that answers requests in turn; it keeps what was sent and how long was waited. -/
structure Network where
  replies : List Reply
  requests : List Request := []
  sleeps : List Float := []

namespace Network

/-- Sends a request. Once no more answers are left the server cannot be reached. -/
def send (n : Network) (r : Request) : Reply × Network :=
  let log := n.requests ++ [r]
  match n.replies with
  | reply :: rest => (reply, { n with replies := rest, requests := log })
  | [] => (.unreachable, { n with requests := log })

def sleep (n : Network) (seconds : Float) : Network := { n with sleeps := n.sleeps ++ [seconds] }

end Network

end CodeAudit

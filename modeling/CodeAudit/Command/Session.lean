import CodeAudit.Command.Line
import CodeAudit.Host

/-!
# Sessions

A command shows lines, reads what is typed in, and works with the host. It may end early, with an exit code or a fault;
what it has shown and done until then stays.
-/

namespace CodeAudit.Command

structure Desk where
  host : Host
  output : String := ""
  typed : List String := []

inductive Ending where
  | exit (code : Nat)
  | fault (fault : Fault)
  | refused (refusal : Refusal)

abbrev Session := ExceptT Ending (StateM Desk)

/-! ## Text for the terminal -/

def codeStart : Char := '\x1b'

/-- Leaves out terminal codes: an escape, a bracket, parameters and a letter. `held` is the start of what
may be a code, last character first. -/
def dropCodes : List Char → List Char → List Char
  | held, [] => held.reverse
  | held, c :: cs =>
    let anew := if c == codeStart then held.reverse ++ dropCodes [c] cs else held.reverse ++ c :: dropCodes [] cs
    match held with
    | [] => anew
    | [_] => if c == '[' then dropCodes (c :: held) cs else anew
    | _ =>
      if c == ';' || c == '?' || Text.isAsciiDigit c then dropCodes (c :: held) cs
      else if c.isAlpha then dropCodes [] cs
      else anew

/-- Reads answers to a question until one is yes or no; an empty one and the end of what is typed mean no. The result
is what is shown, the answer, and what is still typed. -/
def readAnswer (question : String) : List String → String × Bool × List String
  | [] => (question ++ " [y/N]: \n", false, [])
  | line :: rest =>
    let shown := question ++ " [y/N]: " ++ line ++ "\n"
    let word := Text.strip (Text.lower line)
    if ["y", "yes"].contains word then (shown, true, rest)
    else if ["n", "no", ""].contains word then (shown, false, rest)
    else
      let (more, answer) := readAnswer question rest
      (shown ++ "Error: invalid input\n" ++ more, answer)

namespace Session

def failureCode : Nat := 2

variable {α : Type} (act : Action α)

def exit (code : Nat) : Session α := throw (.exit code)

/-- Refuses a command line. One with a value that cannot be a path ends with a fault. -/
def refuse : Refusal → Session α
  | .noPath fault => throw (.fault fault)
  | refusal => throw (.refused refusal)

def attempt : Session (Except Fault α) := do
  let desk ← get
  let (result, host) := act.run desk.host
  set { desk with host }
  return result

/-- Does something with the host; a fault ends the command. -/
def perform : Session α := do
  match ← attempt act with
  | .ok result => return result
  | .error fault => throw (.fault fault)

/-- Does something with the host in which faults of the file system are expected: they end the command with
the failure code. -/
def guardedFiles : Session α := do
  match ← attempt act with
  | .ok result => return result
  | .error fault => if fault.isOfFiles then exit failureCode else throw (.fault fault)

def files : Session FileTree := do return (← get).host.files

def display (text : String) : Session Unit := modify fun desk => { desk with output := desk.output ++ text }

/-- Shows a line, without terminal codes. One that cannot be encoded ends the command. -/
def say (line : String) : Session Unit := do
  if !Text.isEncodable line then throw (.fault .unencodable)
  display (String.ofList (dropCodes [] line.toList) ++ "\n")

/-- Does something in which every fault is expected: it ends the command with the failure code. -/
def guarded (session : Session α) : Session α :=
  tryCatch session fun
    | .fault _ => exit failureCode
    | ending => throw ending

def confirm (question : String) : Session Bool := do
  let (shown, answer, typed) := readAnswer question (← get).typed
  display shown
  modify fun desk => { desk with typed }
  return answer

end Session

/-- How a command ended: its exit code, what it has shown, and the fault that ended it. -/
structure Outcome where
  code : Nat
  output : String
  fault : Option Fault := none
  complaint : Option String := none

def Session.outcome (session : Session Unit) (desk : Desk) : Outcome × Host :=
  let (result, after) := session.run { desk with output := "" }
  (match result with
    | .ok () => { code := 0, output := after.output }
    | .error (.exit code) => { code, output := after.output }
    | .error (.fault fault) => { code := 1, output := after.output, fault := some fault }
    | .error (.refused refusal) =>
      { code := failureCode, output := after.output, complaint := some refusal.message }, after.host)

end CodeAudit.Command

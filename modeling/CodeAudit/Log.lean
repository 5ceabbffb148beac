import CodeAudit.Files.Tree
import CodeAudit.Value.Order

/-!
# The log

What the program says about its own work goes to the error stream and, if wanted, to a file; one number sets how much.
A log file that cannot be opened is done without.
-/

namespace CodeAudit.Log

inductive Level where
  | debug
  | info
  | warning
  deriving DecidableEq, Repr

namespace Level

def number : Level → Nat
  | debug => 10
  | info => 20
  | warning => 30

def ofVerbosity (verbosity : Value) : Except Fault Level := do
  if ← verbosity.atLeast (.int 2) then return debug
  return if verbosity.same (.int 1) then info else warning

/-- The form of a line at a level. At the lowest level a line also says where it comes from. -/
def lineForm : Level → String
  | debug => "%(asctime)s [%(levelname)-8s] %(name)s (%(filename)s:%(lineno)d): %(message)s"
  | _ => "%(asctime)s [%(levelname)-8s] %(name)s: %(message)s"

end Level

/-- A log: its level, and the file to which it goes besides the error stream. -/
structure Setup where
  level : Level
  file : Option String

def Setup.handler (s : Setup) (kind : String) : Value :=
  .list [.str kind, .nat s.level.number, .str s.level.lineForm]

/-- The files after a log file is opened at their end: it is made where it was not there. -/
def opened (files : FileTree) (path : String) : Except Fault FileTree :=
  let place := Path.absolute path files.home
  if files.isFile place then .ok files else files.writeText place ""

def filePath? : Value → Except Fault (Option String)
  | .str path => .ok (if path.isEmpty then none else some path)
  | other => if other.truthy then .error .wrongKind else .ok none

def configure (files : FileTree) (verbosity file : Value) : Except Fault (Setup × FileTree) := do
  let level ← Level.ofVerbosity verbosity
  match ← filePath? file with
  | none => return ({ level, file := none }, files)
  | some path => match opened files path with
    | .ok files => return ({ level, file := some path }, files)
    | .error fault => if fault.isOfFiles then return ({ level, file := none }, files) else throw fault

def rootName : String := "vulnpredict"

def loggerName (name : String) : String :=
  if Text.startsWith name rootName then name else rootName ++ "." ++ name

end CodeAudit.Log

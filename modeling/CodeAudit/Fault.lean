/-!
# Faults

What can go wrong, by cause. A fault says which rule was broken; the words shown to a user belong
to the outer layer, except where the message itself is part of an answer.
-/

namespace CodeAudit

inductive ArchiveKind where
  | tar
  | gzip
  | bzip2
  | zip
  | xz
  | zstandard
  deriving DecidableEq, Repr

/-- Why an operation gives no result. -/
inductive Fault where
  /-- An operation met a value of a kind it is not defined on. -/
  | wrongKind
  /-- A value was asked for a part that values of its kind do not have. -/
  | noSuchPart
  | missingField
  | meaningless
  /-- A name is not one of the known ones; the message lists them. -/
  | unknownName (message : String)
  | outOfRange
  | undecodable
  /-- A text holds half of a character, which no encoding can hold. -/
  | unencodable
  /-- A document or program is nested deeper than it can be followed. -/
  | tooDeep
  /-- A program needs more room than there is to be read. -/
  | exhausted
  | noFile
  | nameTooLong
  | alreadyThere
  | noDirectory
  | noModel (path : String)
  | isDirectory
  | notDirectory
  /-- A document is not JSON; `offset` counts the characters before the fault. -/
  | badJson (offset : Nat)
  | badYaml
  | badSource
  /-- A detection rule is not well formed. A fault of the rule itself carries its message; one
  that comes from reading the file does not. -/
  | badRule (message : Option String)
  | overflow
  /-- Something stored ends before it has begun. -/
  | cutShort
  | notArchive (kind : ArchiveKind)
  | zeroDivision
  | constraint
  | unbindable
  | noColumn
  | emptyTable
  | raggedTable
  | timeout
  | unreachable
  | errorStatus
  | requestFailed
  | notInstalled
  | toolFailed
  deriving DecidableEq, Repr

def Fault.isOfFiles : Fault → Bool
  | .noFile | .nameTooLong | .alreadyThere | .noDirectory | .isDirectory | .notDirectory => true
  | _ => false

/-- The places on the stack that are usually left for a recursion. How many are really left depends on the calls that
lead to it, so whatever can be nested too deep is told its room. -/
def usualRoom : Nat := 992

/-- A result that takes some places to come to. -/
def inRoom {α : Type} (room places : Nat) (result : α) : Except Fault α :=
  if room < places then .error .tooDeep else .ok result

end CodeAudit

import CodeAudit.Calendar.Moment
import CodeAudit.Value.Access

/-!
# Reports

What all reports share: the facts about a scan that they show, and the numbers as they write them.
-/

namespace CodeAudit.Report

def toolVersion : String := "0.2.0-dev"

def toolPage : String := "https://github.com/thehhugg/vulnpredict"

/-- What a report says of a scan besides its findings. -/
structure Facts where
  path : Value := .str "."
  duration : Value := .null
  fileCount : Value := .null
  suppressed : Value := .int 0
  now : Moment

/-- A number with two places; a text has no places, and other kinds are no numbers. -/
def twoPlaces (v : Value) : Except Fault String :=
  match v with
  | .str _ => .error .meaningless
  | _ => do return Decimal.fixed 2 (← v.toFloat?)

def threePlaces (v : Value) : Except Fault Value :=
  match v.number? with
  | some (.whole n) => .ok (.int n)
  | some (.real x) => .ok (.float (Decimal.roundTo 3 x))
  | none => .error .wrongKind

/-- The scores from which a finding counts as grave and as less grave. -/
def scoreBand (score : Value) : Except Fault Nat := do
  if ← score.atLeast (.float 0.8) then return 2
  return if ← score.atLeast (.float 0.5) then 1 else 0

def firstOf (r : Record) (names : List String) (default : Value) : Value :=
  match names with
  | [] => default
  | name :: rest => match r.get? name with
    | some v => v
    | none => firstOf r rest default

end CodeAudit.Report

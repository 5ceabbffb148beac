import CodeAudit.Value.Access

/-!
# Scan profiles

A profile says which analyses a scan runs. There are three, from a quick look to everything.
-/

namespace CodeAudit

structure ScanProfile where
  name : String
  patternMatching : Bool := true
  taint : Bool := true
  flows : Bool := true
  dependencies : Bool := true
  scoring : Bool := true
  javascript : Bool := true

namespace ScanProfile

def quick : ScanProfile :=
  { name := "quick", taint := false, flows := false, dependencies := false, scoring := false }

def standard : ScanProfile := { name := "standard", scoring := false }

def deep : ScanProfile := { name := "deep" }

def known : List ScanProfile := [quick, standard, deep]

def descriptionOf (name : Value) : String :=
  match name with
  | .str "quick" => "Pattern matching only — fastest, ideal for pre-commit hooks"
  | .str "standard" => "Pattern matching + taint analysis + dependency checks — balanced for PR checks"
  | .str "deep" => "Full analysis including ML scoring and interprocedural analysis — thorough for releases"
  | _ => "Custom profile: " ++ name.text

def description (p : ScanProfile) : String := descriptionOf (.str p.name)

/-- The profile of a name, in any case; without a name the standard one. -/
def ofName (name : Value) : Except Fault ScanProfile := do
  let word ← match name with
    | .null => pure "standard"
    | given => given.asText
  let lowered := Text.lower word
  match known.find? (·.name == lowered) with
  | some profile => return profile
  | none => throw (.unknownName (s!"Unknown scan profile '{lowered}'. Valid profiles: "
      ++ Text.join ", " (Text.sorted (known.map (·.name)))))

def toRecord (p : ScanProfile) : Record :=
  [("name", .str p.name), ("pattern_matching", .bool p.patternMatching), ("taint_analysis", .bool p.taint),
   ("interprocedural_analysis", .bool p.flows), ("dependency_check", .bool p.dependencies),
   ("ml_scoring", .bool p.scoring), ("js_analysis", .bool p.javascript), ("description", .str p.description)]

/-- A profile of one's own: a name, and any of the fields of a profile; what is not given is on. -/
def custom (fields : Record) : Except Fault Record := do
  let usual := toRecord deep
  let some name := fields.get? "name" | throw .wrongKind
  if !name.hashable then throw .wrongKind
  if !(fields.erase "name").all fun field => usual.has field.1 && field.1 != "description" then throw .wrongKind
  let laid := fields.foldl (fun (r : Record) field => r.put field.1 field.2) usual
  return laid.put "description" (.str (descriptionOf name))

end ScanProfile

end CodeAudit

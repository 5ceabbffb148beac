import CodeAudit.Dataset.Sample
import CodeAudit.Host

/-!
# Making a training set

Writes the table of weaknesses, a training set with a description beside it, and a summary of the run.
-/

namespace CodeAudit

/-- A weakness of the common enumeration with the rule that looks for it. -/
structure Weakness where
  id : String
  rule : String
  kind : String
  severity : String

namespace Weakness

def known : List Weakness :=
  [⟨"CWE-89", "VP-PY-001", "sql_injection", "critical"⟩,
   ⟨"CWE-78", "VP-PY-002", "command_injection", "critical"⟩,
   ⟨"CWE-79", "VP-PY-003", "xss", "high"⟩,
   ⟨"CWE-502", "VP-PY-004", "deserialization", "critical"⟩,
   ⟨"CWE-918", "VP-PY-005", "ssrf", "high"⟩,
   ⟨"CWE-327", "VP-PY-006", "weak_crypto", "medium"⟩,
   ⟨"CWE-798", "VP-PY-007", "hardcoded_credentials", "high"⟩,
   ⟨"CWE-22", "VP-PY-008", "path_traversal", "high"⟩,
   ⟨"CWE-611", "VP-PY-009", "xxe", "high"⟩,
   ⟨"CWE-295", "VP-PY-010", "insecure_tls", "high"⟩]

def toRecord (w : Weakness) : Record :=
  [("rule_id", .str w.rule), ("type", .str w.kind), ("severity", .str w.severity)]

/-- The weakness under an identifier. A value that cannot name anything is a fault. -/
def find? (id : Value) : Except Fault (Option Weakness) :=
  if id.hashable then .ok (known.find? fun w => id.isText && id.asText.toOption == some w.id)
  else .error .wrongKind

end Weakness

end CodeAudit

namespace CodeAudit.Dataset

def description (samples : List Sample) (count seed : Value) (path : String) (now : Moment) : Record :=
  [("total_samples", .nat samples.length), ("vuln_types", .texts (allTemplates.map (·.kind))),
   ("samples_per_type", count), ("output_path", .str path), ("generated_at", .str now.localText),
   ("seed", seed),
   ("label_distribution", .obj [("vulnerable", .nat (samples.countP (·.vulnerable))),
     ("safe", .nat (samples.countP (!·.vulnerable)))])]

def writeDocument (path : String) (document : Record) : Action Unit :=
  Action.writeText path (Json.write .pretty (.obj document))

def run (directory : String) (count seed : Value) : Action Record := do
  let now := (← get).now
  let place := Path.join directory
  Action.changing (·.makeDirectory directory)
  writeDocument (place "cwe_mapping.json") (Weakness.known.map fun w => (w.id, .obj w.toRecord))
  let samples ← Action.ofExcept (seededAll count seed)
  Action.writeText (place "training_dataset.csv") (trainingText samples)
  let described := description samples count seed (place "training_dataset.csv") now
  writeDocument (place "training_dataset.meta.json") described
  let summary : Record :=
    [("pipeline_version", .str "1.0.0"), ("cwe_mapping_path", .str (place "cwe_mapping.json")),
     ("dataset_metadata", .obj described), ("run_at", .str now.localText)]
  writeDocument (place "pipeline_summary.json") summary
  return summary

end CodeAudit.Dataset

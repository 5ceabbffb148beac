import CodeAudit.Files.Tree
import CodeAudit.Regex.Pattern
import CodeAudit.Scan.Issue

/-!
# Infrastructure files

The name of a file decides which scanner it belongs to: the extension `.tf`, a name that starts with `dockerfile` or is
`containerfile`, or an extension of YAML.
-/

/-! ## Terraform files

A file is cut into the blocks of its resources: from a header line to the first later line at which the opening braces
no longer outnumber the closing ones. Some rules look at blocks, others at single lines. -/

namespace CodeAudit.Terraform

/-- A resource with the numbers of its first and last line. -/
structure Block where
  first : Nat
  last : Nat
  lines : List (List Char)
  deriving DecidableEq, Repr

def Block.text (b : Block) : List Char := ['\n'].intercalate b.lines

def headerPattern : Regex := .pattern r#"\s*resource\s+""#

def isHeader (line : List Char) : Bool := (headerPattern.matchStart? line).isSome

def braceBalance (line : List Char) : Int :=
  (line.count '\x7b' : Int) - (line.count '\x7d' : Int)

/-- How many of the lines after a header belong to its block; `depth` is the balance so far. -/
def closingLine? (depth : Int) : List (List Char) → Option Nat
  | [] => none
  | line :: lines =>
    let depth' := depth + braceBalance line
    if depth' ≤ 0 then some 1 else (closingLine? depth' lines).map (· + 1)

/-- The blocks of the lines from number `n` on; `skip` lines still belong to the block before. -/
def blocksFrom : Nat → Nat → List (List Char) → List Block
  | _, _, [] => []
  | skip + 1, n, _ :: lines => blocksFrom skip (n + 1) lines
  | 0, n, line :: lines =>
    if isHeader line then
      match closingLine? (braceBalance line) lines with
      | some k => { first := n, last := n + k, lines := line :: lines.take k } :: blocksFrom k (n + 1) lines
      | none => blocksFrom 0 (n + 1) lines
    else blocksFrom 0 (n + 1) lines

/-- The closed blocks of a text in order. A header without an end starts none. -/
def blocks (text : List Char) : List Block := blocksFrom 0 1 (Chars.fieldsAt '\n' text)

inductive Scope where
  /-- At blocks that match and do not mention what they should. -/
  | block (pattern required : Regex)
  | line (pattern : Regex)

structure Rule where
  check : Check
  scope : Scope

def misconfiguration (id name severity cwe message : String) : Check :=
  { kind := "iac_misconfiguration", id, name, severity, cwe, message }

def rules : List Rule :=
  [ { check := misconfiguration "VP-TF-001" "S3 Bucket Without Encryption" "high" "CWE-311"
        "S3 bucket defined without server-side encryption configuration"
      scope := .block (.anyCase r#"resource\s+"aws_s3_bucket"\s+"[^"]*""#)
        (.anyCase r"server_side_encryption_configuration|aws_s3_bucket_server_side_encryption") },
    { check := misconfiguration "VP-TF-002" "Overly Permissive Security Group" "high" "CWE-284"
        "Security group allows traffic from 0.0.0.0/0 (all IPs)"
      scope := .line (.pattern r#"cidr_blocks\s*=\s*\[\s*"0\.0\.0\.0/0"\s*\]"#) },
    { check := misconfiguration "VP-TF-003" "IAM Wildcard Permissions" "critical" "CWE-250"
        "IAM policy grants wildcard (*) permissions"
      scope := .line (.pattern r#""Action"\s*:\s*"\*"|actions\s*=\s*\[\s*"\*"\s*\]"#) },
    { check := misconfiguration "VP-TF-004" "Unencrypted RDS Instance" "high" "CWE-311"
        "RDS instance defined without storage encryption enabled"
      scope := .block (.anyCase r#"resource\s+"aws_db_instance"\s+"[^"]*""#)
        (.anyCase r"storage_encrypted\s*=\s*true") },
    { check := misconfiguration "VP-TF-005" "Overly Permissive IPv6 Security Group" "high" "CWE-284"
        "Security group allows traffic from ::/0 (all IPv6 addresses)"
      scope := .line (.pattern r#"ipv6_cidr_blocks\s*=\s*\[\s*"::/0"\s*\]"#) } ]

def Rule.issues (r : Rule) (file : String) (text : List Char) : List Issue :=
  match r.scope with
  | .block pattern required =>
    ((blocks text).filter fun b => pattern.occursIn b.text && !required.occursIn b.text).map
      fun b => { check := r.check, file, line := b.first }
  | .line pattern => r.check.issuesWhere file (Chars.fieldsAt '\n' text) pattern.occursIn

def scanText (file : String) (text : List Char) : List Issue :=
  rules.flatMap fun r => r.issues file text

def scanFile (t : FileTree) (path : String) : List Issue :=
  t.foundIn (scanText path) path

end CodeAudit.Terraform

/-! ## Dockerfiles

Patterns on single instructions, and one condition on the whole file: a file with a base image and
no user other than root runs as root. -/

namespace CodeAudit.Dockerfile

structure LineRule where
  check : Check
  pattern : Regex

def rootCheck : Check :=
  Terraform.misconfiguration "VP-DF-001" "Running as Root" "high" "CWE-250"
    "Dockerfile does not set a non-root USER; container will run as root"

def lineRules : List LineRule :=
  [ { check := Terraform.misconfiguration "VP-DF-002" "Latest Tag Used" "medium" "CWE-829"
        "Dockerfile uses :latest tag; pin to a specific version for reproducibility"
      pattern := .anyCase r"^FROM\s+\S+:latest\b" },
    { check := Terraform.misconfiguration "VP-DF-003" "FROM Without Tag" "medium" "CWE-829"
        "Dockerfile FROM without a tag defaults to :latest; pin to a specific version"
      pattern := .pattern r"^FROM\s+([a-zA-Z0-9._/-]+)\s*$" },
    { check := Terraform.misconfiguration "VP-DF-004" "Secrets in COPY/ADD" "critical" "CWE-540"
        "Potentially copying secrets or credentials into the Docker image"
      pattern := .anyCase r"^(?:COPY|ADD)\s+.*(?:\.env|\.pem|id_rsa|\.key|password|secret|credentials)" },
    { check := Terraform.misconfiguration "VP-DF-005" "ADD with Remote URL" "medium" "CWE-829"
        "Using ADD with a remote URL; prefer COPY with explicit download for verification"
      pattern := .anyCase r"^ADD\s+https?://" },
    { check := Terraform.misconfiguration "VP-DF-006" "Explicit Root USER" "high" "CWE-250"
        "Dockerfile explicitly sets USER to root"
      pattern := .anyCase r"^USER\s+root\s*$" } ]

def isInstruction (stripped : List Char) : Bool :=
  !stripped.isEmpty && !"#".toList.isPrefixOf stripped

def startsWithKeyword (keyword : String) (stripped : List Char) : Bool :=
  keyword.toList.isPrefixOf (stripped.flatMap Text.upperImage)

def rootUserPattern : Regex := .anyCase r"USER\s+root\s*$"

def setsOtherUser (stripped : List Char) : Bool :=
  startsWithKeyword "USER" stripped && (rootUserPattern.matchStart? stripped).isNone

/-- The instructions of a file with their line numbers, blanks removed at both ends. -/
def instructions (lines : List (List Char)) : List (List Char × Nat) :=
  ((lines.map (Chars.trim Text.isBlank)).zipIdx 1).filter (isInstruction ·.1)

def runsAsRoot (lines : List (List Char)) : Bool :=
  let found := (instructions lines).map (·.1)
  found.any (startsWithKeyword "FROM") && !found.any setsOtherUser

def scanLines (file : String) (lines : List (List Char)) : List Issue :=
  ((instructions lines).flatMap fun (stripped, n) =>
    (lineRules.filter (·.pattern.occursIn stripped)).map fun r => { check := r.check, file, line := n }) ++
  if runsAsRoot lines then [{ check := rootCheck, file, line := 1 }] else []

def scanFile (t : FileTree) (path : String) : List Issue :=
  t.foundIn (fun cs => scanLines path (Chars.keptLines cs)) path

end CodeAudit.Dockerfile

/-! ## Kubernetes manifests

Patterns on the lines of a manifest, and one condition on the whole text: containers need resource limits. A file
without an API version and a kind is no manifest. -/

namespace CodeAudit.Kubernetes

structure LineRule where
  check : Check
  pattern : Regex

def limitsCheck : Check :=
  Terraform.misconfiguration "VP-K8-005" "Missing Resource Limits" "medium" "CWE-770"
    "Container spec missing resource limits; may cause resource exhaustion"

def lineRules : List LineRule :=
  [ { check := Terraform.misconfiguration "VP-K8-001" "Privileged Container" "critical" "CWE-250"
        "Container runs in privileged mode, granting full host access"
      pattern := .pattern r"privileged:\s*true" },
    { check := Terraform.misconfiguration "VP-K8-002" "Running as Root" "high" "CWE-250"
        "Container configured to run as root (UID 0)"
      pattern := .pattern r"runAsUser:\s*0\b" },
    { check := Terraform.misconfiguration "VP-K8-003" "Host Network Enabled" "high" "CWE-284"
        "Pod uses host network namespace, bypassing network isolation"
      pattern := .pattern r"hostNetwork:\s*true" },
    { check := Terraform.misconfiguration "VP-K8-004" "Host PID Enabled" "high" "CWE-284"
        "Pod uses host PID namespace, allowing process visibility"
      pattern := .pattern r"hostPID:\s*true" },
    { check := Terraform.misconfiguration "VP-K8-006" "Allow Privilege Escalation" "high" "CWE-250"
        "Container allows privilege escalation"
      pattern := .pattern r"allowPrivilegeEscalation:\s*true" } ]

def mentions (word : String) (text : List Char) : Bool := Chars.occurs word.toList text

def isManifest (text : List Char) : Bool := mentions "apiVersion:" text && mentions "kind:" text

def lacksLimits (text : List Char) : Bool :=
  mentions "containers:" text && !(mentions "resources:" text && mentions "limits:" text)

def scanText (file : String) (text : List Char) : List Issue :=
  if isManifest text then
    (lineRules.flatMap fun r =>
      r.check.issuesWhere file (Chars.fieldsAt '\n' text) r.pattern.occursIn) ++
    if lacksLimits text then [{ check := limitsCheck, file, line := 1 }] else []
  else []

def scanFile (t : FileTree) (path : String) : List Issue :=
  t.foundIn (scanText path) path

end CodeAudit.Kubernetes

/-! ## Scanners by name -/

namespace CodeAudit.Infrastructure

inductive Kind where
  | terraform
  | dockerfile
  | kubernetes
  deriving DecidableEq, Repr

/-- A name that starts with `dockerfile` or is `containerfile`, in either case. -/
def isContainerName (lowered : String) : Bool :=
  Text.startsWith lowered "dockerfile" || lowered == "containerfile"

def kind? (path : String) : Option Kind :=
  if Text.endsWith path ".tf" then some .terraform
  else if isContainerName (Text.lower (Path.basename path)) then some .dockerfile
  else if Text.endsWith path ".yaml" || Text.endsWith path ".yml" then some .kubernetes
  else none

def scanAs (t : FileTree) (path : String) : Kind → List Issue
  | .terraform => Terraform.scanFile t path
  | .dockerfile => Dockerfile.scanFile t path
  | .kubernetes => Kubernetes.scanFile t path

def scanFile (t : FileTree) (path : String) : List Issue :=
  match kind? path with
  | some k => scanAs t path k
  | none => []

def skippedDirectories : List String :=
  [".git", "__pycache__", "node_modules", ".terraform", "dist", "build", ".next", "vendor"]

/-- Whether a file is looked at in a walk: by its name in either case. -/
def isCandidate (path : String) : Bool :=
  let name := Text.lower (Path.basename path)
  Text.endsWith name ".tf" || isContainerName name || Text.endsWith name ".yaml" || Text.endsWith name ".yml"

def scanDirectory (t : FileTree) (directory : String) : List Issue :=
  ((t.walk directory skippedDirectories).filter isCandidate).flatMap (scanFile t)

end CodeAudit.Infrastructure

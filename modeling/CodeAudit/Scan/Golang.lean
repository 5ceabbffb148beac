import CodeAudit.Files.Tree
import CodeAudit.Regex.Pattern
import CodeAudit.Value.Basic

/-!
# Go sources

Fifteen patterns for risky code, searched over a whole file. A finding points at the line on which its match starts and
shows at most 120 characters of it.
-/

namespace CodeAudit.Golang

structure Rule where
  id : String
  name : String
  pattern : Regex
  severity : String
  cwe : String
  message : String

def loose (s : String) : Regex := .pattern s { anyCase := true, byLine := true }

def byLine (s : String) : Regex := .pattern s { byLine := true }

def rules : List Rule :=
  [⟨"VP-GO-001", "SQL Injection via String Concatenation",
    loose r#"(?:(?:db|tx|conn|rows?)\.\ s*(?:Query|Exec|QueryRow|Prepare)\s*\([^)]*(?:\+|fmt\.Sprintf)|(?:query|sql|stmt|q)\s*(?::=|=|\+=)\s*(?:"[^"]*"\s*\+|fmt\.Sprintf\s*\(\s*"[^"]*%[svdq]))"#,
    "critical", "CWE-89", "Potential SQL injection: query built with string concatenation or fmt.Sprintf"⟩,
   ⟨"VP-GO-002", "Command Injection via os/exec",
    byLine r#"exec\.Command\s*\(\s*(?:[^")\s]|fmt\.Sprintf|"[^"]*"\s*\+)"#,
    "critical", "CWE-78", "Potential command injection: exec.Command with dynamic argument"⟩,
   ⟨"VP-GO-003", "Command Injection via os.system equivalent",
    .pattern r#"exec\.Command\s*\(\s*"(?:sh|bash|cmd)"\s*,\s*"-c""#,
    "critical", "CWE-78", "Shell command execution via exec.Command with sh/bash -c"⟩,
   ⟨"VP-GO-004", "Path Traversal Risk",
    byLine r"filepath\.Join\s*\([^)]*(?:r\.(?:URL|Form|Query)|c\.(?:Param|Query)|params|userInput|req\.|input)",
    "high", "CWE-22", "Potential path traversal: filepath.Join with user-controlled input"⟩,
   ⟨"VP-GO-005", "Weak Cryptography - DES",
    .pattern r#""crypto/des""#,
    "high", "CWE-327", "Use of weak DES encryption algorithm; prefer AES-256"⟩,
   ⟨"VP-GO-006", "Weak Cryptography - RC4",
    .pattern r#""crypto/rc4""#,
    "high", "CWE-327", "Use of weak RC4 cipher; prefer AES-GCM or ChaCha20"⟩,
   ⟨"VP-GO-007", "Weak Hash - MD5 for Security",
    .pattern r"md5\.(?:New|Sum)\b",
    "medium", "CWE-328", "MD5 used for hashing; not suitable for security purposes, use SHA-256+"⟩,
   ⟨"VP-GO-008", "Weak Hash - SHA1 for Security",
    .pattern r"sha1\.(?:New|Sum)\b",
    "medium", "CWE-328", "SHA1 used for hashing; considered weak, use SHA-256+"⟩,
   ⟨"VP-GO-009", "Hardcoded Password",
    .anyCase r#"(?:password|passwd|secret|apiKey|api_key|token)\s*(?::=|=)\s*"[^"]{8,}""#,
    "high", "CWE-798", "Hardcoded credential or secret detected in source code"⟩,
   ⟨"VP-GO-010", "Insecure TLS - Skip Verification",
    .pattern r"InsecureSkipVerify\s*:\s*true",
    "high", "CWE-295", "TLS certificate verification disabled (InsecureSkipVerify: true)"⟩,
   ⟨"VP-GO-011", "Insecure TLS - Minimum Version",
    .pattern r"MinVersion\s*:\s*tls\.Version(?:SSL30|TLS10|TLS11)\b",
    "medium", "CWE-326", "Insecure minimum TLS version; use tls.VersionTLS12 or higher"⟩,
   ⟨"VP-GO-012", "Potential Race Condition",
    .pattern r"go\s+func\s*\([^)]*\)\s*\x7b[^\x7d]*(?:map\[|(?:=\s*append|[a-z]+\s*(?:\+\+|--|\+=|-=)))" { dotAll := true },
    "medium", "CWE-362", "Potential race condition: goroutine modifying shared state without synchronization"⟩,
   ⟨"VP-GO-013", "Unsafe Pointer Usage",
    .pattern r#""unsafe""#,
    "medium", "CWE-787", "Import of 'unsafe' package; may lead to memory safety issues"⟩,
   ⟨"VP-GO-014", "Ignored Error Return",
    byLine r"^\s*[a-zA-Z_][a-zA-Z0-9_]*\s*,\s*_\s*(?::=|=)\s*(?:os|io|ioutil|http|sql|net|bufio|json|xml|csv)\.",
    "low", "CWE-391", "Error return value explicitly ignored; may mask failures"⟩,
   ⟨"VP-GO-015", "HTTP Client Without Timeout",
    .pattern r"http\.(?:Get|Post|Head|PostForm)\s*\(",
    "medium", "CWE-400", "Default HTTP client used without timeout; may cause resource exhaustion"⟩]

structure Finding where
  rule : Rule
  file : String
  line : Nat
  excerpt : String

def Finding.toRecord (f : Finding) : Record :=
  [("type", .str "go_vulnerability"), ("rule_id", .str f.rule.id), ("name", .str f.rule.name),
   ("file", .str f.file), ("line", .nat f.line), ("severity", .str f.rule.severity),
   ("cwe", .str f.rule.cwe), ("message", .str f.rule.message), ("match", .str f.excerpt)]

def lineAt (text : List Char) (place : Nat) : Nat := (text.take place).count '\n' + 1

def Rule.finding (r : Rule) (file : String) (text : List Char) (m : Match) : Finding :=
  { rule := r, file, line := lineAt text m.start, excerpt := String.ofList (m.text.take 120) }

/-- What the rules find in a text, rule by rule. -/
def scanText (file : String) (text : List Char) : List Finding :=
  rules.flatMap fun r => (r.pattern.allMatches text).map (r.finding file text)

def scanFile (t : FileTree) (path : String) : List Finding :=
  t.foundIn (scanText path) path

def skippedDirectories : List String :=
  [".git", "__pycache__", "node_modules", "vendor", "dist", "build", ".terraform", "testdata"]

def isScanned (path : String) : Bool :=
  Text.endsWith path ".go" && !Text.endsWith path "_test.go"

def scanDirectory (t : FileTree) (directory : String) : List Finding :=
  ((t.walk directory skippedDirectories).filter isScanned).flatMap (scanFile t)

end CodeAudit.Golang

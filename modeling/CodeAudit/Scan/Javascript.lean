import CodeAudit.Files.Tree
import CodeAudit.Regex.Pattern
import CodeAudit.Scan.Issue

/-!
# JavaScript sources, line by line

Six checks on the lines of a script. A line is reported at most once per check, and comment lines are passed over. A
listener for messages is reported unless one of the next twenty lines looks at the origin.
-/

namespace CodeAudit.Javascript

def isComment (line : List Char) : Bool :=
  let stripped := Chars.trim Text.isBlank line
  "//".toList.isPrefixOf stripped || "/*".toList.isPrefixOf stripped

def codeMatches (patterns : List Regex) (line : List Char) : Bool :=
  !isComment line && patterns.any (·.occursIn line)

structure LineRule where
  check : Check
  patterns : List Regex

def prototypePollution : LineRule where
  check := ⟨"prototype_pollution", "VP-JS-001", "Prototype Pollution", "high", "CWE-1321",
    "Potential prototype pollution: direct modification of object prototype"⟩
  patterns :=
    [ .pattern r#"(\w+)\s*\[\s*['"]__proto__['"]\s*\]"#, .pattern r"(\w+)\.__proto__\s*=",
      .pattern r"(\w+)\.constructor\.prototype\s*=",
      .pattern r"Object\.assign\s*\(\s*\w+\.prototype" ]

def backtracking : LineRule where
  check := ⟨"redos", "VP-JS-002", "ReDoS Vulnerability", "medium", "CWE-1333",
    "Potential ReDoS: regex with catastrophic backtracking pattern"⟩
  patterns :=
    [ .pattern r#"new\s+RegExp\s*\(\s*['"].*?([+*])\s*\).*?\1"#, .pattern r"/.*?(\([^)]*[+*][^)]*\))[+*].*?/",
      .pattern r"/.*?([+*])\s*\)\s*[+*].*?/" ]

def openRedirect : LineRule where
  check := ⟨"open_redirect", "VP-JS-003", "Open Redirect", "medium", "CWE-601",
    "Potential open redirect: user-controlled input used in redirect"⟩
  patterns :=
    [ .pattern r"window\.location\s*=\s*(?:req\.|request\.|params\.|query\.|body\.)",
      .pattern r"window\.location\.href\s*=\s*(?:req\.|request\.|params\.|query\.|body\.)",
      .pattern r"res\.redirect\s*\(\s*(?:req\.|request\.)",
      .pattern r"location\.replace\s*\(\s*(?:req\.|request\.|params\.|query\.|body\.)",
      .pattern r"window\.location\s*=\s*(?:document\.URL|document\.referrer|location\.hash)",
      .pattern r"res\.redirect\s*\(\s*(?:url|redirect_url|next|return_to|callback)" ]

def insecureRandomness : LineRule where
  check := ⟨"insecure_randomness", "VP-JS-004", "Insecure Randomness", "medium", "CWE-330",
    "Math.random() used in security-sensitive context; use crypto.randomBytes() instead"⟩
  patterns :=
    [ .anyCase r"(?:token|secret|key|password|nonce|csrf|session|salt)\s*=.*?Math\.random\s*\(\s*\)",
      .pattern r"Math\.random\s*\(\s*\).*?(?:toString\s*\(\s*36\s*\))" ]

def queryInjection : LineRule where
  check := ⟨"nosql_injection", "VP-JS-005", "NoSQL Injection", "high", "CWE-943",
    "Potential NoSQL injection: unsanitized user input in database query"⟩
  patterns :=
    [ .pattern r"\.find\s*\(\s*\x7b[^\x7d]*(?:req\.|request\.|params\.|query\.|body\.)",
      .pattern r"\.findOne\s*\(\s*\x7b[^\x7d]*(?:req\.|request\.|params\.|query\.|body\.)",
      .pattern r"\.update\s*\(\s*\x7b[^\x7d]*(?:req\.|request\.|params\.|query\.|body\.)",
      .pattern r"\.deleteOne\s*\(\s*\x7b[^\x7d]*(?:req\.|request\.|params\.|query\.|body\.)",
      .pattern r"\$where\s*:" ]

def messageCheck : Check :=
  ⟨"insecure_postmessage", "VP-JS-006", "Insecure postMessage Handler", "medium", "CWE-346",
   "postMessage handler without origin validation; verify event.origin before processing"⟩

def messageListener : Regex := .pattern r#"addEventListener\s*\(\s*['"]message['"]"#

def originPatterns : List Regex :=
  [ .pattern r"event\.origin", .pattern r"e\.origin", .pattern r"msg\.origin",
    .pattern r"message\.origin" ]

def looksAtOrigin (lines : List (List Char)) : Bool :=
  lines.any fun line => originPatterns.any (·.occursIn line)

/-- How many lines after a listener may look at the origin. -/
def messageWindow : Nat := 20

/-- The numbers of the lines that register a listener with no look at the origin in the lines after
them; `n` is the number of the first line. -/
def unguardedListeners (n : Nat) : List (List Char) → List Nat
  | [] => []
  | line :: lines =>
    if codeMatches [messageListener] line && !looksAtOrigin (lines.take messageWindow) then
      n :: unguardedListeners (n + 1) lines
    else unguardedListeners (n + 1) lines

def lineRules : List LineRule :=
  [prototypePollution, backtracking, openRedirect, insecureRandomness, queryInjection]

def scanLines (file : String) (lines : List (List Char)) : List Issue :=
  (lineRules.flatMap fun r => r.check.issuesWhere file lines (codeMatches r.patterns)) ++
    (unguardedListeners 1 lines).map fun n => { check := messageCheck, file, line := n }

def scanFile (t : FileTree) (path : String) : List Issue :=
  t.foundIn (fun cs => scanLines path (Chars.keptLines cs)) path

def skippedDirectories : List String :=
  ["node_modules", ".git", "__pycache__", "dist", "build", ".next"]

def isScript (path : String) : Bool :=
  [".js", ".jsx", ".mjs", ".ts", ".tsx"].any (Text.endsWith path)

def scanDirectory (t : FileTree) (directory : String) : List Issue :=
  ((t.walk directory skippedDirectories).filter isScript).flatMap (scanFile t)

end CodeAudit.Javascript

import CodeAudit.Scan.Javascript

/-!
# TypeScript sources, line by line

TypeScript files get the checks of JavaScript and four of their own, on types that are given up and
errors that are silenced. Comments that silence the compiler are looked for in comment lines too.
-/

namespace CodeAudit.Typescript

open Javascript

def anyType : LineRule where
  check := ⟨"any_type_abuse", "VP-TS-001", "Excessive any Type", "low", "CWE-1007",
    "Use of 'any' type weakens type safety; consider using a specific type"⟩
  patterns := [.pattern r":\s*any\b", .pattern r"<any>", .pattern r"as\s+any\b"]

def assertionBypass : LineRule where
  check := ⟨"type_assertion_bypass", "VP-TS-002", "Type Assertion Bypass", "medium", "CWE-1007",
    "Type assertion bypass detected; this circumvents TypeScript's type checking"⟩
  patterns :=
    [.pattern r"as\s+any\b", .pattern r"as\s+unknown\b", .pattern r"<any>\s*\("]

def nonNullAssertion : LineRule where
  check := ⟨"non_null_assertion", "VP-TS-003", "Non-null Assertion", "low", "CWE-476",
    "Non-null assertion operator (!) used; may cause runtime null errors"⟩
  patterns := [.pattern r"\w+!\.\w+"]

def silencedCheck : Check :=
  ⟨"ts_suppression", "VP-TS-004", "TypeScript Error Suppression", "low", "CWE-1007",
   "TypeScript error suppression comment detected; may hide type errors"⟩

def silencingPatterns : List Regex :=
  [.pattern r"//\s*@ts-ignore\b", .pattern r"//\s*@ts-expect-error\b"]

def scanLines (file : String) (lines : List (List Char)) : List Issue :=
  ([anyType, assertionBypass, nonNullAssertion].flatMap fun r =>
    r.check.issuesWhere file lines (codeMatches r.patterns)) ++
  silencedCheck.issuesWhere file lines fun line => silencingPatterns.any (·.occursIn line)

/-- The issues of one file: those of any script, then those of TypeScript. -/
def scanFile (t : FileTree) (path : String) : List Issue :=
  t.foundIn (fun cs =>
    let lines := Chars.keptLines cs
    Javascript.scanLines path lines ++ scanLines path lines) path

def isTypescript (path : String) : Bool := [".ts", ".tsx"].any (Text.endsWith path)

def scanDirectory (t : FileTree) (directory : String) : List Issue :=
  ((t.walk directory skippedDirectories).filter isTypescript).flatMap (scanFile t)

end CodeAudit.Typescript

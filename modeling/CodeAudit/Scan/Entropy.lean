import CodeAudit.Decimal.Fixed
import CodeAudit.Scan.Secrets

/-!
# Texts that look random

Quoted texts of hexadecimal or base-64 characters are reported when their Shannon entropy is high: the sum of `-p · log₂
p` over the distinct characters in order of first appearance, `p` being the share of the character.
-/

namespace CodeAudit.Secrets

def distinct (cs : List Char) : List Char := cs.eraseDups

def entropy (cs : List Char) : Float :=
  let total := Float.ofNat cs.length
  (distinct cs).foldl (fun acc c =>
    let p := Float.ofNat (cs.count c) / total
    acc - p * Float.log2 p) 0.0

inductive Encoding where
  | hex
  | base64
  deriving DecidableEq, Repr

def Encoding.word : Encoding → String
  | .hex => "hex"
  | .base64 => "base64"

def isLikelyHex (cs : List Char) : Bool :=
  16 ≤ cs.length && cs.all fun c => Text.isAsciiDigit c || ('a' ≤ c && c ≤ 'f') || ('A' ≤ c && c ≤ 'F')

def isLikelyBase64 (cs : List Char) : Bool :=
  20 ≤ cs.length && cs.all fun c =>
    Text.isAsciiLetter c || Text.isAsciiDigit c || c == '+' || c == '/' || c == '='

def uuidPattern : Regex :=
  .pattern r"^[0-9a-fA-F]{8}-[0-9a-fA-F]{4}-[0-9a-fA-F]{4}-[0-9a-fA-F]{4}-[0-9a-fA-F]{12}$"

def harmlessTexts : List String :=
  ["abcdefghijklmnopqrstuvwxyz", "abcdefghijklmnopqrstuvwxyzabcdefghijklmnopqrstuvwxyz", "base64", "utf-8"]

/-- Addresses, identifiers, texts of few characters and a few known texts are no secrets. -/
def isHarmless (cs : List Char) : Bool :=
  (["http://", "https://", "ftp://"].any fun scheme => scheme.toList.isPrefixOf cs) ||
    (uuidPattern.matchStart? cs).isSome ||
    (distinct cs).length < 4 ||
    harmlessTexts.contains (Text.lower (String.ofList cs))

def randomAs? (cs : List Char) : Option Encoding :=
  let e := entropy cs
  if isLikelyHex cs && 3.0 ≤ e then some .hex
  else if isLikelyBase64 cs && 4.5 ≤ e then some .base64
  else none

structure EntropyFinding where
  encoding : Encoding
  entropy : Float
  shown : String
  file : Value
  line : Value

def EntropyFinding.toRecord (f : EntropyFinding) : Record :=
  let what := "High-entropy " ++ f.encoding.word ++ " string"
  [("type", .str "high_entropy_secret"), ("rule_id", .str "VP-SEC-100"), ("name", .str what),
   ("file", f.file), ("line", f.line), ("severity", .str "medium"),
   ("cwe", .str "CWE-798"),
   ("message", .str (what ++ " detected (entropy=" ++ Decimal.fixed 2 f.entropy ++ "): " ++ f.shown)),
   ("entropy", .float (Decimal.roundTo 2 f.entropy)), ("encoding", .str f.encoding.word)]

/-- Quoted texts of at least twenty characters that a secret may be made of. -/
def quotedPattern : Regex := .pattern r#"['"]([A-Za-z0-9+/=_\-]{20,})['"]"#

def randomTexts (line : List Char) (number file : Value) : List EntropyFinding :=
  (quotedPattern.allMatches line).filterMap fun m => do
    let candidate ← m.group? 1
    if isHarmless candidate then none
    else
      let encoding ← randomAs? candidate
      some { encoding, entropy := entropy candidate, shown := mask candidate, file, line := number }

structure Options where
  formats : List Format := Secrets.formats
  withEntropy : Bool := true

/-- The secrets of a line: first those of known formats, then random texts. Comments have none. -/
def scanLine (o : Options) (file : String) (number : Nat) (line : List Char) : List Record :=
  if isComment line then []
  else
    (o.formats.filterMap fun f => (f.secret? line).map fun secret =>
      ({ format := f, file, line := number, shown := mask secret } : Finding).toRecord) ++
    if o.withEntropy then (randomTexts line (.nat number) (.str file)).map (·.toRecord) else []

def scanText (o : Options) (file : String) (text : List Char) : List Record :=
  ((Chars.keptLines text).zipIdx 1).flatMap fun (line, n) => scanLine o file n line

def scanFile (o : Options) (t : FileTree) (path : String) : List Record :=
  t.foundIn (scanText o path) path

def scannedExtensions : List String :=
  [".py", ".js", ".jsx", ".ts", ".tsx", ".java", ".go", ".rb", ".php", ".yml", ".yaml", ".json",
   ".toml", ".ini", ".cfg", ".conf", ".env", ".sh", ".bash", ".zsh", ".properties", ".xml"]

def skippedEndings : List String :=
  ["package-lock.json", "yarn.lock", "pnpm-lock.yaml", "Pipfile.lock", "poetry.lock",
   "composer.lock", ".min.js", ".min.css", ".map"]

def skippedDirectories : List String :=
  ["node_modules", ".git", "__pycache__", ".venv", "venv", ".tox", ".mypy_cache", ".pytest_cache", "dist", "build"]

/-- Whether a file is scanned in a walk: by its extension, or a hidden file without one. -/
def isScanned (path : String) : Bool :=
  let name := Path.basename path
  let ext := Path.extension name
  !skippedEndings.any (Text.endsWith name) &&
    (scannedExtensions.contains (Text.lower ext) || (ext.isEmpty && Text.startsWith name "."))

def scanDirectory (o : Options) (t : FileTree) (directory : String) : List Record :=
  ((t.walk directory skippedDirectories).filter isScanned).flatMap (scanFile o t)

end CodeAudit.Secrets

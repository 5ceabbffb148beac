import CodeAudit.Text.Basic

/-!
# Rules that come with the library

The documents of the rules that are always loaded, by name.
-/

namespace CodeAudit.BuiltinRules

structure Entry where
  id : String
  name : String
  severity : String
  confidence : String
  category : String
  message : String
  calls : List String
  weakness : String
  tags : String
  isReferred : Bool

def Entry.lines (languages : String) (e : Entry) : List String :=
  ["  - id: " ++ e.id, "    name: " ++ e.name, "    severity: " ++ e.severity, "    confidence: " ++ e.confidence,
   "    languages: [" ++ languages ++ "]", "    category: " ++ e.category, "    message: \"" ++ e.message ++ "\"",
   "    pattern:", "      type: function_call",
   match e.calls with
   | [call] => "      name: " ++ call
   | calls => "      names:\n        - " ++ Text.join "\n        - " calls,
   "    cwe: CWE-" ++ e.weakness, "    tags: [" ++ e.tags ++ "]"] ++
  (if e.isReferred then
    ["    references:", "      - https://cwe.mitre.org/data/definitions/" ++ e.weakness ++ ".html"] else []) ++ [""]

def document (heading languages : String) (entries : List Entry) : String :=
  Text.join "\n" (["# VulnPredict built-in rules: " ++ heading, "", "rules:"] ++ entries.flatMap (·.lines languages))

def javascriptCalls : String := document "dangerous function calls (JavaScript)" "javascript, typescript" [
  ⟨"VP-JS-001", "eval-injection", "critical", "high", "injection", "Use of eval() with potentially untrusted input",
   ["eval"], "95", "injection, rce", false⟩,
  ⟨"VP-JS-002", "function-constructor", "critical", "high", "injection",
   "Use of Function constructor can execute arbitrary code", ["Function"], "95", "injection, rce", false⟩,
  ⟨"VP-JS-003", "settimeout-string", "high", "medium", "injection",
   "setTimeout with string argument acts like eval()", ["setTimeout"], "95", "injection", false⟩,
  ⟨"VP-JS-004", "setinterval-string", "high", "medium", "injection",
   "setInterval with string argument acts like eval()", ["setInterval"], "95", "injection", false⟩]

def pythonCryptography : String := document "weak cryptography, XXE, path traversal, etc. (Python)" "python" [
  ⟨"VP-PY-030", "weak-hash-md5", "medium", "high", "cryptography",
   "Use of MD5 hash — cryptographically broken, do not use for security", ["hashlib.md5", "md5"], "328",
   "crypto, weak-hash", true⟩,
  ⟨"VP-PY-031", "weak-hash-sha1", "medium", "high", "cryptography",
   "Use of SHA1 hash — cryptographically weak, prefer SHA-256+", ["hashlib.sha1", "sha1"], "328",
   "crypto, weak-hash", false⟩,
  ⟨"VP-PY-032", "weak-cipher-des", "high", "high", "cryptography", "Use of DES cipher — cryptographically broken",
   ["Crypto.Cipher.DES.new", "Cryptodome.Cipher.DES.new"], "327", "crypto, weak-cipher", false⟩,
  ⟨"VP-PY-040", "xxe-xml-parse", "high", "medium", "xxe",
   "XML parsing may be vulnerable to XXE (external entity injection)",
   ["xml.etree.ElementTree.parse", "xml.etree.ElementTree.fromstring", "xml.sax.parse", "xml.sax.parseString",
    "xml.dom.minidom.parse", "xml.dom.minidom.parseString", "lxml.etree.parse", "lxml.etree.fromstring",
    "ET.parse", "ET.fromstring"],
   "611", "xxe, xml", true⟩,
  ⟨"VP-PY-050", "path-traversal", "high", "medium", "path-traversal",
   "File operation with potentially user-controlled path",
   ["open", "shutil.copy", "shutil.copy2", "shutil.move", "shutil.rmtree", "os.remove", "os.unlink", "os.rename"],
   "22", "path-traversal, file-access", true⟩,
  ⟨"VP-PY-060", "template-injection", "critical", "medium", "injection", "Server-side template injection risk",
   ["jinja2.Environment.from_string", "jinja2.Template", "mako.template.Template", "flask.render_template_string",
    "render_template_string", "Template"],
   "1336", "injection, ssti", false⟩,
  ⟨"VP-PY-070", "open-redirect", "medium", "medium", "redirect",
   "Redirect with potentially user-controlled URL (open redirect)",
   ["flask.redirect", "redirect", "django.shortcuts.redirect", "HttpResponseRedirect"], "601", "redirect", true⟩,
  ⟨"VP-PY-080", "ldap-injection", "high", "medium", "injection", "LDAP query with potentially untrusted input",
   ["ldap.search_s", "ldap.search", "ldap.search_ext_s", "ldap3.Connection.search"], "90", "injection, ldap", true⟩]

def pythonCalls : String := document
    "dangerous function calls (Python)\n# These rules detect common vulnerability patterns in Python code."
    "python" [
  ⟨"VP-PY-001", "eval-injection", "critical", "high", "injection", "Use of eval() with potentially untrusted input",
   ["eval"], "95", "injection, rce", true⟩,
  ⟨"VP-PY-002", "exec-injection", "critical", "high", "injection", "Use of exec() with potentially untrusted input",
   ["exec"], "95", "injection, rce", true⟩,
  ⟨"VP-PY-003", "compile-injection", "high", "medium", "injection", "Use of compile() may allow code injection",
   ["compile"], "95", "injection", false⟩,
  ⟨"VP-PY-004", "os-system-injection", "critical", "high", "injection",
   "Use of os.system() allows shell command injection", ["os.system"], "78", "injection, rce, command-injection",
   true⟩,
  ⟨"VP-PY-005", "subprocess-injection", "high", "medium", "injection",
   "Use of subprocess with potentially untrusted input", ["subprocess.Popen", "subprocess.call"], "78",
   "injection, command-injection", false⟩]

def pythonDeserialization : String := document "insecure deserialization (Python)" "python" [
  ⟨"VP-PY-010", "pickle-deserialization", "critical", "high", "deserialization",
   "Insecure deserialization via pickle — loading untrusted data can lead to RCE",
   ["pickle.loads", "pickle.load", "pickle.Unpickler", "cPickle.loads", "cPickle.load"], "502",
   "deserialization, rce", true⟩,
  ⟨"VP-PY-011", "yaml-unsafe-load", "critical", "high", "deserialization",
   "Use of yaml.load() without SafeLoader allows arbitrary code execution", ["yaml.load", "yaml.unsafe_load"], "502",
   "deserialization, rce", false⟩,
  ⟨"VP-PY-012", "marshal-deserialization", "high", "high", "deserialization",
   "Insecure deserialization via marshal module", ["marshal.loads", "marshal.load"], "502", "deserialization", false⟩,
  ⟨"VP-PY-013", "jsonpickle-deserialization", "critical", "high", "deserialization",
   "Insecure deserialization via jsonpickle", ["jsonpickle.decode"], "502", "deserialization, rce", false⟩]

def pythonRequests : String := document "SSRF and network-related vulnerabilities (Python)" "python" [
  ⟨"VP-PY-020", "ssrf-requests", "high", "medium", "ssrf",
   "HTTP request with potentially user-controlled URL (SSRF risk)",
   ["requests.get", "requests.post", "requests.put", "requests.delete", "requests.patch", "requests.head",
    "requests.options", "requests.request"],
   "918", "ssrf, network", true⟩,
  ⟨"VP-PY-021", "ssrf-urllib", "high", "medium", "ssrf",
   "HTTP request via urllib with potentially user-controlled URL",
   ["urllib.request.urlopen", "urllib.request.Request", "urllib.request.urlretrieve", "urlopen"], "918",
   "ssrf, network", false⟩,
  ⟨"VP-PY-022", "ssrf-httpx", "high", "medium", "ssrf",
   "HTTP request via httpx with potentially user-controlled URL",
   ["httpx.get", "httpx.post", "httpx.put", "httpx.delete", "httpx.request"], "918", "ssrf, network", false⟩]

def documents : List (String × String) := [
  ("<builtin>/javascript-dangerous-calls.yml", javascriptCalls),
  ("<builtin>/python-crypto-xxe.yml", pythonCryptography),
  ("<builtin>/python-dangerous-calls.yml", pythonCalls),
  ("<builtin>/python-deserialization.yml", pythonDeserialization),
  ("<builtin>/python-ssrf.yml", pythonRequests)]

end CodeAudit.BuiltinRules

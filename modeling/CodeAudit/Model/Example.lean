import CodeAudit.Files.Tree

/-!
# The example project

A small project with a weakness of each kind, on which a classifier is trained where none is stored.
-/

namespace CodeAudit.ExampleProject

def calls : List String :=
  ["\"\"\"Weaknesses that a scan should find.\"\"\"",
   "import hashlib",
   "import pickle",
   "import xml.etree.ElementTree as ET",
   "",
   "import requests",
   "import yaml",
   "",
   "",
   "# --- Deserialization ---",
   "def load_user_session(cookie_data):",
   "    \"\"\"VULNERABLE: Deserializes user cookie with pickle.\"\"\"",
   "    return pickle.loads(cookie_data)",
   "",
   "",
   "def load_config_safe(config_text):",
   "    \"\"\"SAFE: Uses yaml.safe_load.\"\"\"",
   "    return yaml.safe_load(config_text)",
   "",
   "",
   "def load_config_unsafe(config_text):",
   "    \"\"\"VULNERABLE: Uses yaml.load without SafeLoader.\"\"\"",
   "    return yaml.load(config_text)",
   "",
   "",
   "# --- SSRF ---",
   "def fetch_webhook(url):",
   "    \"\"\"VULNERABLE: Fetches a user-controlled URL without validation.\"\"\"",
   "    return requests.get(url)",
   "",
   "",
   "# --- Path Traversal ---",
   "def serve_file(user_filename):",
   "    \"\"\"VULNERABLE: Opens a user-controlled filename.\"\"\"",
   "    return open(user_filename).read()",
   "",
   "",
   "# --- XXE ---",
   "def parse_upload(xml_data):",
   "    \"\"\"VULNERABLE: Parses XML without disabling external entities.\"\"\"",
   "    return ET.fromstring(xml_data)",
   "",
   "",
   "# --- Weak Crypto ---",
   "def hash_password(password):",
   "    \"\"\"VULNERABLE: Uses MD5 for password hashing.\"\"\"",
   "    return hashlib.md5(password.encode()).hexdigest()",
   "",
   "",
   "def hash_password_secure(password):",
   "    \"\"\"SAFE: Uses SHA-256 for password hashing.\"\"\"",
   "    return hashlib.sha256(password.encode()).hexdigest()"]

def page : List String :=
  ["// Example vulnerable JavaScript code",
   "",
   "// 1. Use of eval with user input (code injection)",
   "const userCode = prompt('Enter code:');",
   "eval(userCode);",
   "",
   "// 2. Unsanitized DOM assignment (XSS)",
   "function setUserHTML(userInput) \x7b",
   "    document.getElementById('output').innerHTML = userInput;",
   "\x7d",
   "",
   "// 3. Hardcoded API key (sensitive data)",
   "const API_KEY = 'sk_test_1234567890abcdef';",
   "",
   "// 4. Outdated dependency usage (simulated by requiring a known old package)",
   "const xmlrpc = require('xmlrpc'); // Known for past vulnerabilities"]

def queries : List String :=
  ["# Example vulnerable Python code",
   "",
   "# 1. Use of eval with user input (code injection)",
   "user_code = input(\"Enter code: \")",
   "eval(user_code)",
   "",
   "",
   "# 2. Unsanitized SQL query (SQL injection)",
   "def get_user(cursor, username):",
   "    query = f\"SELECT * FROM users WHERE username = '\x7busername\x7d'\"",
   "    cursor.execute(query)",
   "",
   "",
   "# 3. Hardcoded password (sensitive data)",
   "PASSWORD = \"supersecret123\"",
   "",
   "",
   "def login(user, pw):",
   "    if pw == PASSWORD:",
   "        print(\"Logged in!\")",
   "",
   "",
   "# 4. Outdated dependency usage (simulate by importing a known old package)",
   "import xmlrpc.client  # Known for past vulnerabilities"]

def directory : String := "example"

def file (name : String) (lines : List String) : List String × Entry :=
  ([directory, name], .file (.text (String.join (lines.map (· ++ "\n")))))

def files : FileTree := { entries := [file "calls.py" calls, file "page.js" page, file "queries.py" queries] }

end CodeAudit.ExampleProject

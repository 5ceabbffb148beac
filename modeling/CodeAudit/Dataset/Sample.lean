import CodeAudit.Random.Twister
import CodeAudit.Table.Csv
import CodeAudit.Value.Access

/-!
# Generated samples

The same number of samples of every kind, half of them vulnerable, in random order. What is random is drawn through a
parameter, so that balance and format do not hang on a generator.
-/

namespace CodeAudit.Dataset

/-! ## Sample code

Short functions to learn from: for each kind of vulnerability some that have it and some that do the
same job safely. -/

/-- The functions of one kind; there is at least one on either side. -/
structure Templates where
  kind : String
  vulnerable : String
  moreVulnerable : List String
  safe : String
  moreSafe : List String

def sqlInjection : Templates :=
  { kind := "sql_injection"
    vulnerable :=
      "def get_user(username):\n" ++
        "    query = \"SELECT * FROM users WHERE name = '\" + username + \"'\"\n" ++
        "    cursor.execute(query)\n" ++
        "    return cursor.fetchone()"
    moreVulnerable :=
      ["def search_products(term):\n" ++
         "    sql = f\"SELECT * FROM products WHERE name LIKE '%\x7b\x7bterm\x7d\x7d%'\"\n" ++
         "    db.execute(sql)\n" ++
         "    return db.fetchall()",
       "def delete_record(record_id):\n" ++
         "    query = \"DELETE FROM records WHERE id = %s\" % record_id\n" ++
         "    conn.execute(query)"]
    safe :=
      "def get_user(username):\n" ++
        "    cursor.execute(\"SELECT * FROM users WHERE name = %s\", (username,))\n" ++
        "    return cursor.fetchone()"
    moreSafe := [] }

def commandInjection : Templates :=
  { kind := "command_injection"
    vulnerable :=
      "def ping_host(host):\n" ++
        "    import os\n" ++
        "    os.system(\"ping -c 1 \" + host)"
    moreVulnerable :=
      ["def convert_file(filename):\n" ++
         "    import subprocess\n" ++
         "    subprocess.call(\"convert \" + filename + \" output.pdf\", shell=True)"]
    safe :=
      "def ping_host(host):\n" ++
        "    import subprocess\n" ++
        "    subprocess.run([\"ping\", \"-c\", \"1\", host], check=True)"
    moreSafe := [] }

def xss : Templates :=
  { kind := "xss"
    vulnerable :=
      "def render_greeting(name):\n" ++
        "    return \"<h1>Hello, \" + name + \"</h1>\""
    moreVulnerable :=
      ["def show_comment(comment):\n" ++
         "    return f\"<div class='comment'>\x7b\x7bcomment\x7d\x7d</div>\""]
    safe :=
      "def render_greeting(name):\n" ++
        "    from markupsafe import escape\n" ++
        "    return f\"<h1>Hello, \x7b\x7bescape(name)\x7d\x7d</h1>\""
    moreSafe := [] }

def deserialization : Templates :=
  { kind := "deserialization"
    vulnerable :=
      "def load_data(data):\n" ++
        "    import pickle\n" ++
        "    return pickle.loads(data)"
    moreVulnerable :=
      ["def process_config(config_str):\n" ++
         "    import yaml\n" ++
         "    return yaml.load(config_str)"]
    safe :=
      "def load_data(data):\n" ++
        "    import json\n" ++
        "    return json.loads(data)"
    moreSafe := [] }

def ssrf : Templates :=
  { kind := "ssrf"
    vulnerable :=
      "def fetch_url(url):\n" ++
        "    import requests\n" ++
        "    return requests.get(url).text"
    moreVulnerable :=
      ["def proxy_request(target):\n" ++
         "    import urllib.request\n" ++
         "    return urllib.request.urlopen(target).read()"]
    safe :=
      "def fetch_url(url):\n" ++
        "    import requests\n" ++
        "    ALLOWED = [\"https://api.example.com\"]\n" ++
        "    if url not in ALLOWED:\n" ++
        "        raise ValueError(\"URL not allowed\")\n" ++
        "    return requests.get(url).text"
    moreSafe := [] }

def weakCrypto : Templates :=
  { kind := "weak_crypto"
    vulnerable :=
      "def hash_password(password):\n" ++
        "    import hashlib\n" ++
        "    return hashlib.md5(password.encode()).hexdigest()"
    moreVulnerable :=
      ["def encrypt_data(data, key):\n" ++
         "    from Crypto.Cipher import DES\n" ++
         "    cipher = DES.new(key, DES.MODE_ECB)\n" ++
         "    return cipher.encrypt(data)"]
    safe :=
      "def hash_password(password):\n" ++
        "    import hashlib\n" ++
        "    salt = os.urandom(32)\n" ++
        "    return hashlib.pbkdf2_hmac('sha256', password.encode(), salt, 100000)"
    moreSafe := [] }

def pathTraversal : Templates :=
  { kind := "path_traversal"
    vulnerable :=
      "def read_file(filename):\n" ++
        "    path = \"/var/data/\" + filename\n" ++
        "    with open(path) as f:\n" ++
        "        return f.read()"
    moreVulnerable := []
    safe :=
      "def read_file(filename):\n" ++
        "    import os\n" ++
        "    base = \"/var/data\"\n" ++
        "    path = os.path.realpath(os.path.join(base, filename))\n" ++
        "    if not path.startswith(base):\n" ++
        "        raise ValueError(\"Path traversal detected\")\n" ++
        "    with open(path) as f:\n" ++
        "        return f.read()"
    moreSafe := [] }

def allTemplates : List Templates :=
  [sqlInjection, commandInjection, xss, deserialization, ssrf, weakCrypto, pathTraversal]

/-! ## Samples -/

structure Sample where
  code : String
  vulnerable : Bool
  kind : String
  variant : Nat
  deriving DecidableEq

namespace Sample

def label (s : Sample) : Nat := if s.vulnerable then 1 else 0

def source : String := "synthetic"

def toRecord (s : Sample) : Record :=
  [("code", .str s.code), ("label", .nat s.label), ("type", .str s.kind), ("source", .str source),
   ("variant", .nat s.variant)]

end Sample

/-- So many samples of a label, each with code chosen among the given texts. -/
def samplesOf {σ : Type} (draw : Random.Draw σ) (kind : String) (vulnerable : Bool) (text : String)
    (texts : List String) (count : Nat) : StateM σ (List Sample) :=
  (List.range count).mapM fun variant => do
    return { code := ← Random.choose draw text texts, vulnerable, kind, variant }

def vulnerableCount (count : Int) : Int := Int.fdiv count 2

def generate {σ : Type} (draw : Random.Draw σ) (t : Templates) (count : Int) : StateM σ (List Sample) := do
  let vulnerable := vulnerableCount count
  let first ← samplesOf draw t.kind true t.vulnerable t.moreVulnerable vulnerable.toNat
  let second ← samplesOf draw t.kind false t.safe t.moreSafe (count - vulnerable).toNat
  Random.shuffle draw (first ++ second)

def seeded (kind count seed : Value) : Except Fault (List Sample) := do
  let start ← Random.Seed.number seed
  if !kind.hashable then throw .wrongKind
  match allTemplates.find? fun t => kind.isWordOf [t.kind] with
  | some t => return ((generate Random.Twister.below t (← count.whole)).run (.ofSeed start)).1
  | none => return []

def generateAll {σ : Type} (draw : Random.Draw σ) (start : Templates → σ) (count : Int) : List Sample :=
  allTemplates.flatMap fun t => ((generate draw t count).run (start t)).1

def seededAll (count seed : Value) : Except Fault (List Sample) := do
  let start ← Random.Seed.number seed
  return generateAll Random.Twister.below (fun _ => .ofSeed start) (← count.whole)

/-! ## As text -/

def trainingText (samples : List Sample) : String :=
  Csv.write "\r\n" (["code", "label", "type", "source", "variant"] :: samples.map fun s =>
    [s.code, toString s.label, s.kind, Sample.source, toString s.variant])

def benchmarkText (samples : List Sample) : String :=
  Csv.write "\r\n" (["code", "label", "type", "cwe", "language", "source", "variant"] ::
    samples.map fun s =>
      [s.code, toString s.label, s.kind, "", "python", Sample.source, toString s.variant])

end CodeAudit.Dataset

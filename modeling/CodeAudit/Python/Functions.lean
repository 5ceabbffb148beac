import CodeAudit.Python.Statement
import CodeAudit.Files.Tree
import CodeAudit.Value.Basic

/-!
# Measures of functions

For each function definition: its risky calls, how often it branches, how deep its blocks nest, which calls check input
and which names look sensitive. Calls are listed level by level of the syntax tree; functions in the order in which
they are written.
-/

namespace CodeAudit.Python

/-! ## Names of risky calls

The dotted names by which the analyses know what a call does. They are compared as they are spelled, so an import under
another name is not followed. -/

inductive CallKind where
  | dangerous
  | deserialization
  | requestForgery
  | pathTraversal
  | externalEntity
  | weakCrypto
  | templateInjection
  | openRedirect
  | directoryInjection
  deriving DecidableEq, Repr

namespace CallKind

def all : List CallKind :=
  [dangerous, deserialization, requestForgery, pathTraversal, externalEntity, weakCrypto,
   templateInjection, openRedirect, directoryInjection]

def field : CallKind → String
  | dangerous => "dangerous_calls"
  | deserialization => "deserialization_calls"
  | requestForgery => "ssrf_calls"
  | pathTraversal => "path_traversal_calls"
  | externalEntity => "xxe_calls"
  | weakCrypto => "weak_crypto_calls"
  | templateInjection => "template_injection_calls"
  | openRedirect => "open_redirect_calls"
  | directoryInjection => "ldap_injection_calls"

def names : CallKind → List String
  | dangerous =>
    ["eval", "exec", "compile", "execfile", "input", "os.system", "subprocess.Popen", "subprocess.call"]
  | deserialization =>
    ["pickle.loads", "pickle.load", "pickle.Unpickler", "cPickle.loads", "cPickle.load",
     "marshal.loads", "marshal.load", "shelve.open", "yaml.load", "yaml.unsafe_load",
     "jsonpickle.decode", "dill.loads", "dill.load", "cloudpickle.loads", "cloudpickle.load",
     "loads", "load"]
  | requestForgery =>
    ["requests.get", "requests.post", "requests.put", "requests.delete", "requests.patch",
     "requests.head", "requests.options", "requests.request", "urllib.request.urlopen",
     "urllib.request.Request", "urllib.request.urlretrieve", "httpx.get", "httpx.post", "httpx.put",
     "httpx.delete", "httpx.request", "httpx.AsyncClient.get", "httpx.AsyncClient.post",
     "httpx.Client.get", "httpx.Client.post", "aiohttp.ClientSession.get",
     "aiohttp.ClientSession.post", "session.get", "session.post", "session.put", "session.delete",
     "session.request", "client.get", "client.post", "urlopen"]
  | pathTraversal =>
    ["open", "shutil.copy", "shutil.copy2", "shutil.move", "shutil.rmtree", "shutil.make_archive",
     "shutil.unpack_archive", "os.remove", "os.unlink", "os.rename", "os.makedirs", "os.listdir",
     "os.mkdir", "os.symlink", "os.link", "os.chdir", "os.walk"]
  | externalEntity =>
    ["xml.etree.ElementTree.parse", "xml.etree.ElementTree.fromstring", "xml.sax.parse",
     "xml.sax.parseString", "xml.dom.minidom.parse", "xml.dom.minidom.parseString",
     "xml.dom.pulldom.parse", "lxml.etree.parse", "lxml.etree.fromstring", "ET.parse",
     "ET.fromstring", "ET.iterparse", "etree.parse", "etree.fromstring", "minidom.parse",
     "minidom.parseString"]
  | weakCrypto =>
    ["hashlib.md5", "hashlib.sha1", "Crypto.Cipher.DES.new", "Crypto.Cipher.ARC4.new",
     "Cryptodome.Cipher.DES.new", "Cryptodome.Cipher.ARC4.new", "md5", "sha1"]
  | templateInjection =>
    ["jinja2.Environment.from_string", "jinja2.Template", "mako.template.Template",
     "mako.lookup.TemplateLookup", "django.template.Template", "flask.render_template_string",
     "Template", "render_template_string"]
  | openRedirect =>
    ["flask.redirect", "redirect", "django.shortcuts.redirect", "HttpResponseRedirect", "werkzeug.utils.redirect"]
  | directoryInjection =>
    ["ldap.search_s", "ldap.search", "ldap.search_ext_s", "ldap3.Connection.search",
     "conn.search_s", "conn.search", "conn.search_ext_s", "connection.search"]

end CallKind

def taintSources : List String :=
  ["input", "os.environ", "sys.argv", "request.args", "request.form", "request.get_json", "open", "read", "recv"]

def commandCalls : List String :=
  ["cursor.execute", "execute", "os.popen", "os.popen2", "os.popen3", "os.popen4"]

def taintSinks : List String :=
  CallKind.dangerous.names ++ commandCalls ++ CallKind.deserialization.names ++
    CallKind.requestForgery.names ++ CallKind.pathTraversal.names ++
    CallKind.externalEntity.names ++ CallKind.templateInjection.names ++
    CallKind.directoryInjection.names

def flowSinks : List String := CallKind.dangerous.names ++ commandCalls

/-! ## Measures -/

variable (t : Tree) (name : String)

namespace Tree

/-! ## Measures -/

def branches : Tree → Bool
  | node _ .ifStmt _ _ _ => true
  | node _ .forLoop _ _ _ => true
  | node _ .whileLoop _ _ _ => true
  | node _ .boolOp _ _ _ => true
  | node _ .exceptHandler _ _ _ => true
  | node _ .withBlock _ _ _ => true
  | node _ .tryBlock _ _ _ => true
  | _ => false

def complexity : Nat := t.levelOrder.countP branches + 1

mutual

/-- How deep blocks nest: a statement in the block of a statement is one level deeper. Only the
first block of a statement counts, not its alternatives or handlers. -/
def nesting : Tree → Nat
  | node _ _ _ _ ps => nestingAll ps

def nestingAll : List Tree → Nat
  | [] => 0
  | t :: ts => max (if t.role == .body then t.nesting + 1 else 0) (nestingAll ts)

end

def calls : List Tree := t.levelOrder.filter isCall

/-- Modules whose functions check input, by how their dotted names start. -/
def checkingModules : List String := ["re", "json", "html", "bleach"]

def checkingFunctions : List String :=
  ["escape", "loads", "dumps", "clean", "fullmatch", "match", "search", "sub", "subn"]

def checksInput : Bool :=
  checkingModules.any (Text.startsWith name) && checkingFunctions.any (Text.endsWith name)

def inputChecks : List String :=
  Text.sortedSet ((t.calls.map calleeName).filter checksInput)

/-! ## Sensitive names -/

def sensitiveWords : List String :=
  ["password", "passwd", "token", "secret", "key", "ssn", "credit_card", "api_key", "auth",
   "session", "cookie", "private", "credential"]

def isSensitive : Bool :=
  let lowered := Text.lower name
  sensitiveWords.any (Text.contains lowered)

/-- The names that a node brings in: the plain targets of an assignment, and the parameters of a
function that may be given by position or by name. -/
def namesBound : List String :=
  if t.isAssign then (t.partsIn .target).filterMap name?
  else if t.functionName?.isSome then t.parameterNames
  else []

def sensitiveNames : List String :=
  Text.sortedSet ((t.levelOrder.flatMap namesBound).filter isSensitive)

/-! ## Risky calls -/

def safeLoaders : List String := ["SafeLoader", "CSafeLoader", "BaseLoader"]

def lastName? : Tree → Option String
  | node _ (.attribute attr) _ _ _ => some attr.text
  | node _ (.name id) _ _ _ => some id.text
  | _ => none

def givesSafeLoader (argument : Tree) : Bool :=
  match argument.tag with
  | .keywordArgument (some name) =>
    name.text == "Loader" && (argument.parts.filterMap lastName?).any (safeLoaders.contains ·)
  | _ => false

/-- Whether a call is of a kind. Loading a document with a safe loader is no deserialization. -/
def isRisky (kind : CallKind) (call : Tree) : Bool :=
  let name := call.calleeName
  kind.names.contains name &&
    !(kind == .deserialization && name == "yaml.load" && (call.partsIn .keyword).any givesSafeLoader)

def riskyCalls (kind : CallKind) (t : Tree) : List String :=
  (t.calls.filter (isRisky kind)).map calleeName

end Tree

/-! ## Records -/

/-- What is measured of a function. -/
structure FunctionRecord where
  name : String
  line : Nat
  length : Nat
  calls : CallKind → List String
  complexity : Nat
  nesting : Nat
  inputChecks : List String
  sensitiveNames : List String

def FunctionRecord.ofTree (t : Tree) : FunctionRecord :=
  { name, line := t.line, length := (t.partsIn .body).length, calls := fun kind => t.riskyCalls kind
    complexity := t.complexity, nesting := t.nesting, inputChecks := t.inputChecks
    sensitiveNames := t.sensitiveNames }

/-- The records of all functions of a tree, in the order in which they are written. Asynchronous functions have none.
These are the records of a visit that comes to its end. -/
def functionRecords : List FunctionRecord :=
  t.preorder.filterMap fun f => f.functionName?.map (FunctionRecord.ofTree · f)

/-- The records of a visit; where the tree is too deep for it there are none at all. -/
def visitFunctions (room : Nat := usualRoom) : Except Fault (List FunctionRecord) := do
  t.visitable Tree.measuring room
  return functionRecords t

namespace FunctionRecord

variable (f : FunctionRecord)

def callFields : Record :=
  CallKind.all.map fun kind => (kind.field, .texts (f.calls kind))

def measureFields : Record :=
  [("cyclomatic_complexity", .nat f.complexity), ("max_nesting_depth", .nat f.nesting),
   ("input_validation", .texts f.inputChecks),
   ("sensitive_data_involved", .bool !f.sensitiveNames.isEmpty),
   ("num_sensitive_vars", .nat f.sensitiveNames.length)]

def toRecord : Record :=
  [("name", .str f.name), ("lineno", .nat f.line), ("length", .nat f.length)] ++ f.callFields ++ f.measureFields

/-- Whether a function is worth reporting: it has a risky call, is long or branches much. -/
def isReported : Bool :=
  (CallKind.all.any fun kind => !(f.calls kind).isEmpty) || 50 < f.length || 10 < f.complexity

def toFinding : Record :=
  [("type", .str "function_analysis"), ("function", .str f.name), ("line", .nat f.line),
   ("length", .nat f.length)] ++ f.callFields ++ f.measureFields ++ [("embedding", .list [])]

end FunctionRecord

def treeOfFile (files : FileTree) (path : String) : Except Fault Tree := do
  Tree.ofSource (← files.text .refuse path)

def reported (records : List FunctionRecord) : List Record := (records.filter (·.isReported)).map (·.toFinding)

def functionFindings : List Record := reported (functionRecords t)

/-- The findings on the functions of a file. -/
def analyzeFile (files : FileTree) (path : String) (room : Nat := usualRoom) : Except Fault (List Record) := do
  return reported (← visitFunctions (← treeOfFile files path) room)

end CodeAudit.Python

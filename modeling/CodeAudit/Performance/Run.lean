import CodeAudit.Python.Project
import CodeAudit.Scan.Golang
import CodeAudit.Random.Twister

/-!
# Measuring scans

A scenario names a size of project and a profile with the time a scan may take. The clock is part of
the state: each look at it moves it on by a step.
-/

namespace CodeAudit.Performance

/-! ## Made-up projects

Projects to measure scans on: files of three languages, each a random piece of code filled up with comment lines, in
directories of ten. -/

structure Family where
  comment : String
  first : String
  rest : List String
  place : Nat → List String

def pythonFamily : Family :=
  { comment := "#"
    place := fun i => ["pkg_" ++ toString (i / 10), "module_" ++ toString i ++ ".py"]
    first :=
      "import os\n" ++
        "import sys\n" ++
        "import json\n"
    rest :=
      ["def process_data(data):\n" ++
         "    result = []\n" ++
         "    for item in data:\n" ++
         "        result.append(item.strip())\n" ++
         "    return result\n",
       "class DataHandler:\n" ++
         "    def __init__(self, config):\n" ++
         "        self.config = config\n" ++
         "\n" ++
         "    def handle(self, request):\n" ++
         "        return self.config.get('default', None)\n",
       "def validate_input(value):\n" ++
         "    if not isinstance(value, str):\n" ++
         "        raise TypeError('Expected string')\n" ++
         "    return value.strip()\n",
       "# Some vulnerable patterns for detection\n" ++
         "def query_db(user_id):\n" ++
         "    sql = 'SELECT * FROM users WHERE id = ' + user_id\n" ++
         "    return execute(sql)\n",
       "def run_command(cmd):\n" ++
         "    import subprocess\n" ++
         "    subprocess.run(['echo', cmd], check=True)\n"] }

def javascriptFamily : Family :=
  { comment := "//"
    place := fun i => ["src_" ++ toString (i / 10), "handler_" ++ toString i ++ ".js"]
    first :=
      "const express = require('express');\n" ++
        "const app = express();\n"
    rest :=
      ["function processRequest(req, res) \x7b\n" ++
         "  const data = req.body;\n" ++
         "  res.json(\x7b status: 'ok', data \x7d);\n" ++
         "\x7d\n",
       "// Potentially vulnerable\n" ++
         "function renderPage(userInput) \x7b\n" ++
         "  document.innerHTML = userInput;\n" ++
         "\x7d\n"] }

def goFamily : Family :=
  { comment := "//"
    place := fun i => ["cmd_" ++ toString i ++ ".go"]
    first :=
      "package main\n" ++
        "\n" ++
        "import \"fmt\"\n" ++
        "\n" ++
        "func main() \x7b\n" ++
        "\tfmt.Println(\"hello\")\n" ++
        "\x7d\n"
    rest :=
      ["package main\n" ++
         "\n" ++
         "import \"net/http\"\n" ++
         "\n" ++
         "func handler(w http.ResponseWriter, r *http.Request) \x7b\n" ++
         "\tw.Write([]byte(\"ok\"))\n" ++
         "\x7d\n"] }

def filled (comment code : String) (lines : Int) : String :=
  let missing := (lines - code.toList.count '\n').toNat
  code ++ "\n" ++ Text.join "\n" ((List.range missing).map fun j => comment ++ " Line " ++ toString j)

def Family.files {σ : Type} (f : Family) (draw : Random.Draw σ) (count lines : Int) :
    StateM σ (List (List String × String)) :=
  (List.range count.toNat).mapM fun i => do
    return (f.place i, filled f.comment (← Random.choose draw f.first f.rest) lines)

structure Shape where
  python : Int := 30
  javascript : Int := 15
  golang : Int := 5
  lines : Int := 50
  seed : Int := 42

def Shape.files (s : Shape) : List (List String × String) :=
  let draw := Random.Twister.below
  let all : StateM Random.Twister (List (List String × String)) := do
    let python ← pythonFamily.files draw s.python s.lines
    let javascript ← javascriptFamily.files draw s.javascript s.lines
    let golang ← goFamily.files draw s.golang s.lines
    return python ++ javascript ++ golang
  (all.run (.ofSeed s.seed)).1

def Shape.build (s : Shape) (tree : FileTree) (directory : String) : Except Fault FileTree := do
  let start ← tree.makeDirectory directory
  s.files.foldlM (fun t (place, text) => do
    let path := Path.join directory (Text.join "/" place)
    (← t.makeDirectory (Path.parent path)).writeText path text) start

/-! ## Scenarios -/

structure Scenario where
  name : String
  files : Nat
  seconds : Float
  profile : String

def scenarios : List Scenario :=
  [⟨"small_quick", 50, 5.0, "quick"⟩, ⟨"small_standard", 50, 30.0, "standard"⟩,
   ⟨"medium_quick", 500, 30.0, "quick"⟩, ⟨"medium_standard", 500, 180.0, "standard"⟩]

/-- The project of a scenario: six tenths Python, three tenths Javascript, and the rest Go. -/
def Scenario.shape (s : Scenario) : Shape :=
  let python := s.files * 6 / 10
  let javascript := s.files * 3 / 10
  { python, javascript, golang := (s.files : Int) - python - javascript }

structure Measurement where
  scenario : Value
  fileCount : Value
  profile : Value
  elapsed : Number
  target : Value
  passed : Value
  filesPerSecond : Number := .real 0.0

def Measurement.toRecord (m : Measurement) : Record :=
  [("scenario", m.scenario), ("file_count", m.fileCount), ("profile", m.profile),
   ("elapsed_seconds", (m.elapsed.rounded 3).toValue), ("target_seconds", m.target),
   ("passed", m.passed), ("files_per_second", (m.filesPerSecond.rounded 1).toValue)]

structure Clock where
  time : Float := 0.0
  step : Float

def Clock.look (c : Clock) : Float × Clock :=
  let time := c.time + c.step
  (time, { c with time })

/-- The findings of a scan: what the analyzers of the three languages say. A document of the syntax
analyzer that is no list is passed over. -/
def scan (project : String) : Action (List Value) := do
  let python ← Python.analyzeProject project
  let host ← get
  let sources := (host.files.walk project).filter (Text.endsWith · ".js")
  let javascript := sources.flatMap fun file => orNothing (host.tools.nodeDocument file).elements
  let golang := (Golang.scanDirectory host.files project).map fun issue => Value.obj issue.toRecord
  return python.map .obj ++ javascript ++ golang

def Scenario.measured (s : Scenario) (start stop : Float) : Measurement :=
  let elapsed := stop - start
  { scenario := .str s.name, fileCount := .nat s.files, profile := .str s.profile, elapsed := .real elapsed
    target := .float s.seconds, passed := .bool (elapsed ≤ s.seconds)
    filesPerSecond := if 0.0 < elapsed then .real (Decimal.ofInt s.files / elapsed) else .whole 0 }

def Scenario.run (s : Scenario) (clock : Clock) : Action (Measurement × Clock) := do
  let host ← get
  let (start, clock) := clock.look
  let files ← Action.ofExcept (s.shape.build .empty "project")
  let (result, _) := (scan "project").run { host with files }
  let _ ← Action.ofExcept result
  let (stop, clock) := clock.look
  return (s.measured start stop, clock)

/-- Measures the named scenarios one after the other; other names are passed over. -/
def runAll (names : List Value) (clock : Clock) : Action (List Measurement) := do
  match names with
  | [] => return []
  | name :: rest =>
    if !name.hashable then throw .wrongKind
    match scenarios.find? fun s => name.isWordOf [s.name] with
    | none => runAll rest clock
    | some s =>
      let (m, clock) ← s.run clock
      return m :: (← runAll rest clock)

def report (ms : List Measurement) : String :=
  Json.write .pretty (.obj [("results", .list (ms.map fun m => .obj m.toRecord)),
    ("all_passed", .bool (ms.all (·.passed.truthy)))])

end CodeAudit.Performance

import CodeAudit.Command.Scan
import CodeAudit.Config.Settings
import CodeAudit.Cve.Feed
import CodeAudit.Cve.Record
import CodeAudit.Log

/-!
# The program

The commands, and two programs of one command each that prepare and train a classifier. A command line that is refused
gives the failure code, as does a command that cannot do its work; a fault that no command foresees gives exit code 1.
-/

namespace CodeAudit.Command

/-! ## Commands -/

structure Operation where
  name : String
  grammar : Grammar
  run : Request → Session Unit

def fetchCommand (key : Option String) : Operation where
  name := "fetch-nvd"
  grammar :=
    { about := "Fetch NVD CVE data for a given YEAR and save to OUT_FILE (JSON)."
      parameters := [{ name := "year", kind := .whole }, { name := "out_file" }] }
  run r := Session.guarded (Session.perform (CveFeed.fetch key (r.operand 0) (r.operand 1)))

def storePatterns (feed output : String) : Action Unit := do
  let document ← Action.reading fun files => do Json.read (← files.text .refuse feed)
  let records ← Action.ofExcept (CveRecord.ofFeed document)
  Label.storeTable (← Action.ofExcept (CveRecord.table records)) output

def extractCommand : Operation where
  name := "extract-nvd-patterns"
  grammar :=
    { about := "Extract patterns from NVD JSON and save to OUT_CSV."
      parameters := [{ name := "nvd_json" }, { name := "out_csv" }] }
  run r := do
    if !(← Session.files).isFile (r.operand 0) then Session.exit Session.failureCode
    Session.guarded do
      Session.perform (storePatterns (r.operand 0) (r.operand 1))
      Session.say ("[VulnPredict] Extracted patterns saved to " ++ r.operand 1)

def scanCommand : Operation where
  name := "scan"
  grammar := scanGrammar
  run r := scan (.ofRequest r)

def startSettings (path : String) : Session Unit := do
  if (← Session.files).isThere path then
    Session.say ("Configuration file already exists: " ++ path)
    if !(← Session.confirm "Overwrite?") then
      Session.say "Aborted."
      return
  Session.guardedFiles (Action.writeText path Config.template)
  Session.say ("[VulnPredict] Created " ++ path)
  Session.say "Edit the file to customise scan settings for your project."

def initCommand : Operation where
  name := "init"
  grammar :=
    { about := "Generate a default .vulnpredict.yml configuration file."
      parameters := [{ name := "project_dir", kind := .path true, default := some "." }] }
  run r := startSettings (Path.join (r.operand 0) Config.fileName)

def trainCommand : Operation where
  name := "train"
  grammar :=
    { about := "Train the ML model from a labeled CSV file."
      parameters := [{ name := "csv_file" }] }
  run r := do
    if !(← Session.files).isFile (r.operand 0) then Session.exit Session.failureCode
    Session.guarded (Session.perform (Label.trainOn (r.operand 0) true))

def commands (key : Option String) : List Operation :=
  [fetchCommand key, extractCommand, scanCommand, initCommand, trainCommand]

/-! ## Programs of one command -/

def labelProgram : Operation where
  name := "label"
  grammar :=
    { about := "Analyze CODE_DIR, label findings, and save to OUTPUT_CSV for ML training."
      parameters := [{ name := "code_dir" }, { name := "output_csv" }] }
  run r := Session.perform (Label.writeProject (r.operand 0) (r.operand 1))

def trainProgram : Operation where
  name := "train"
  grammar :=
    { about := "Train the VulnPredict model from a labeled CSV file."
      parameters := [{ name := "csv_file" }] }
  run r := Session.perform (Label.trainOn (r.operand 0))

/-! ## Running -/

def Operation.session (c : Operation) (call : String) (line : List String) : Session Unit := do
  match c.grammar.read (← Session.files) line with
  | .error refusal => Session.refuse refusal
  | .ok .help => Session.say (c.grammar.help call)
  | .ok (.run request) => c.run request

def about : String := "VulnPredict — Predictive Vulnerability Intelligence Tool."

def settings : List Setting :=
  [{ names := ["-v", "--verbose"], about := "Enable verbose output." },
   { names := ["--debug"], about := "Enable debug output (very verbose)." },
   { names := ["--log-file"], kind := some (.path false), about := "Write log output to a file in addition to stderr." }]

def openLog (words : Words) : Action Unit := do
  let given := fun name => (words.given.filter fun entry => entry.1.key == name).map (·.2)
  let verbosity : Int := if !(given "--debug").isEmpty then 2 else if !(given "--verbose").isEmpty then 1 else 0
  let host ← get
  let (_, files) ← Action.ofExcept
    (Log.configure host.files (.int verbosity) (.optText (given "--log-file").getLast?))
  set { host with files }

def startsWithSign (word : String) : Bool := (word.toList.head?).any (!Text.isLetterOrNumber ·)

/-- Runs the program with its commands. It shows its help without a word, or where a word that starts with a sign
stands for a command. The log is opened before the words of the command are read. -/
def mainSession (key : Option String) (call : String) (line : List String) : Session Unit := do
  let help := programHelp call about settings ((commands key).map fun c => (c.name, c.grammar))
  if line.isEmpty then Session.say help
  else match readWords (settings ++ [.help]) true line with
    | .error refusal => Session.refuse refusal
    | .ok words =>
      if words.given.any fun entry => entry.1.key == Setting.help.key then Session.say help
      else match givenValues (← Session.files) words settings, words.operands with
        | .error refusal, _ => Session.refuse refusal
        | .ok _, [] => Session.refuse .missingCommand
        | .ok _, name :: rest => match (commands key).find? (·.name == name) with
          | some command =>
            Session.perform (openLog words)
            command.session (call ++ " " ++ name) rest
          | none => if startsWithSign name then Session.say help else Session.refuse (.unknownCommand name)

inductive Program where
  | main
  | train
  | label
  deriving DecidableEq, Repr

def Program.run (p : Program) (key : Option String) (call : String) (line : List String) (desk : Desk) :
    Outcome × Host :=
  Session.outcome (match p with
    | main => mainSession key call line
    | train => trainProgram.session call line
    | label => labelProgram.session call line) desk

end CodeAudit.Command

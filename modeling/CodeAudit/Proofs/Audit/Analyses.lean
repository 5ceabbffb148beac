import CodeAudit.Proofs.Dependencies.Asked
import CodeAudit.Proofs.Suppression.Unlocated

/-!
# What the analyses of a project give

Each analysis works through the files of its language and then looks at the declared dependencies. That of Python files
uses up answers of the version control program and changes nothing else until the requirements; that of scripts changes
nothing until the package description. What both end with and leave behind is said here, whatever the other programs
print.
-/

namespace CodeAudit.Audit

open Proofs Proofs.Steps Action List Python Except

variable {host : Host} {changed : Tools.Churn} {file path : String}

/-! ## Python files -/

def withGit (host : Host) (git : List (Option String)) : Host := { host with tools := { host.tools with git } }

@[simp] lemma withGit_files (host : Host) (git : List (Option String)) : (withGit host git).files = host.files := rfl

@[simp] lemma withGit_room (host : Host) (git : List (Option String)) : (withGit host git).room = host.room := rfl

lemma withGit_withGit (host : Host) (first second : List (Option String)) :
    withGit (withGit host first) second = withGit host second := rfl

lemma exists_churn_snd (t : Tools) (now : Moment) : ∃ git, (t.churn now).2 = { t with git } := by
  obtain ⟨bandit, eslint, node, git⟩ := t
  -- each of the three calls may be the last one that is answered
  rcases git with _ | ⟨_ | commits, _ | ⟨_ | authors, _ | ⟨_ | date, git⟩⟩⟩
  case cons.some.cons.some.cons.some =>
    dsimp only [Tools.churn, Tools.gitCall]
    split <;> exact ⟨git, rfl⟩
  all_goals exact ⟨_, rfl⟩

lemma exists_on_churn (host : Host) : ∃ changed git, on churn host = (.ok changed, withGit host git) := by
  obtain ⟨git, hgit⟩ := exists_churn_snd host.tools host.now
  refine ⟨(host.tools.churn host.now).1, git, ?_⟩
  unfold withGit
  rw [← hgit]
  rfl

/-- The findings on a file, for what is known about how it has changed. -/
def fileReport (host : Host) (changed : Tools.Churn) (file : String) : Except Fault (List Record) := do
  let functions ← analyzeFile host.files file host.room
  let tainted ← taintFile host.files file host.room
  return (functions ++ host.tools.banditFindings file ++ tainted).map (withFields · changed.toRecord)

/-- Findings on a file are a report on it, for some history. -/
def IsReportOn (host : Host) (file : String) (found : List Record) : Prop :=
  ∃ changed, fileReport host changed file = .ok found

lemma exists_on_fileFindings (file : String) (host : Host) :
    ∃ changed git, on (fileFindings file) host = (fileReport host changed file, withGit host git) := by
  obtain ⟨changed, git, hchurn⟩ := exists_on_churn host
  refine ⟨changed, git, ?_⟩
  unfold fileFindings fileReport
  rw [on_bind, hchurn]
  dsimp only
  rw [on_bind, on_visiting, withGit_files, withGit_room]
  cases analyzeFile host.files file host.room with
  | error fault => rfl
  | ok functions =>
    dsimp only
    rw [on_bind, on_get]
    dsimp only
    rw [on_bind, on_visiting, withGit_files, withGit_room]
    cases taintFile host.files file host.room <;> rfl

lemma fileReport_eq_ok_iff :
    fileReport host changed file = .ok found ↔ ∃ t, treeOfFile host.files file = .ok t ∧
      t.visitDepth Python.Tree.measuring ≤ host.room ∧ t.visitDepth Python.Tree.tainting ≤ host.room ∧
      (functionFindings t ++ host.tools.banditFindings file ++ (taintFindings t).map (·.toRecord)).map
        (withFields · changed.toRecord) = found :=
  both_eq_ok_iff

lemma exists_fileReport_iff :
    (∃ found, fileReport host changed file = .ok found) ↔ IsAnalysable host.room host.files file :=
  exists_both_iff

/-- The files are worked through one after the other, with a report on each, exactly when each can be analysed. -/
lemma exists_on_mapM_fileFindings (sources : List String) (host : Host) :
    ∃ result git, on (sources.mapM fileFindings) host = (result, withGit host git) ∧
      ((∃ perFile, result = .ok perFile) ↔ ∀ file ∈ sources, IsAnalysable host.room host.files file) ∧
      ∀ perFile, result = .ok perFile → Forall₂ (IsReportOn host) sources perFile := by
  induction sources generalizing host with
  | nil =>
    refine ⟨.ok [], host.tools.git, rfl, iff_of_true ⟨[], rfl⟩ (by simp), ?_⟩
    rintro perFile ⟨⟩
    exact .nil
  | cons file rest ih =>
    obtain ⟨changed, git, hfile⟩ := exists_on_fileFindings file host
    rw [mapM_cons, on_bind, hfile]
    cases hreport : fileReport host changed file with
    | error fault =>
      -- the run breaks off here, and this file is why
      refine ⟨.error fault, git, rfl, iff_of_false (by simp) fun hall => ?_, by simp⟩
      obtain ⟨found, hfound⟩ := (@exists_fileReport_iff host changed file).mpr (hall file mem_cons_self)
      rw [hreport] at hfound
      cases hfound
    | ok found =>
      have hanalysable : IsAnalysable host.room host.files file := exists_fileReport_iff.mp ⟨found, hreport⟩
      obtain ⟨result, git', hrest, hends, hreports⟩ := ih (withGit host git)
      rw [withGit_files, withGit_room] at hends
      dsimp only
      rw [on_bind, hrest, withGit_withGit]
      cases result with
      | error fault =>
        refine ⟨.error fault, git', rfl, ?_, by simp⟩
        rw [forall_mem_cons, ← hends]
        simp
      | ok perFile =>
        refine ⟨.ok (found :: perFile), git', rfl, iff_of_true ⟨_, rfl⟩ ?_, ?_⟩
        · exact forall_mem_cons.mpr ⟨hanalysable, hends.mp ⟨perFile, rfl⟩⟩
        · rintro all ⟨⟩
          exact .cons ⟨changed, hreport⟩ (hreports perFile rfl)

lemma get?_type_withChurn (r : Record) (changed : Tools.Churn) :
    (withFields r changed.toRecord).get? "type" = r.get? "type" :=
  Record.get?_foldl_put (show "type" ∉ ["commit_count", "unique_authors", "last_modified_days"] by decide) r

/-- Every Python file of a project can be analysed, so that the analysis gets to the requirements. -/
def AllAnalysable (host : Host) (path : String) : Prop :=
  ∀ file ∈ pythonFiles host.files path, IsAnalysable host.room host.files file

/-- The analysis of a project whose Python files can all be analysed: a report on each, and the dependencies. -/
lemma exists_on_analyzeProject (h : AllAnalysable host path) :
    ∃ git perFile, Forall₂ (IsReportOn host) (pythonFiles host.files path) perFile ∧ on (analyzeProject path) host =
        ((pythonDependencies host.files host.index path host.lookup).1.map fun report =>
            perFile.flatten ++ report.finding?,
          { withGit host git with lookup := (pythonDependencies host.files host.index path host.lookup).2 }) := by
  obtain ⟨result, git, hrun, hends, hreports⟩ := exists_on_mapM_fileFindings (pythonFiles host.files path) host
  obtain ⟨perFile, rfl⟩ := hends.mpr h
  refine ⟨git, perFile, hreports perFile rfl, ?_⟩
  unfold pythonFiles at hrun
  unfold analyzeProject projectDependencies
  rw [on_bind, on_get]
  dsimp only
  rw [on_bind, hrun]
  dsimp only
  rw [on_bind, on_bind, on_get]
  dsimp only
  rw [on_lookingUp]
  have hsame : pythonDependencies (withGit host git).files (withGit host git).index path (withGit host git).lookup =
      pythonDependencies host.files host.index path host.lookup := rfl
  rw [hsame]
  cases (pythonDependencies host.files host.index path host.lookup).1 <;> rfl

/-- A file that cannot be analysed ends the analysis before anything is looked up. -/
lemma exists_on_analyzeProject_error (h : ¬ AllAnalysable host path) :
    ∃ git fault, on (analyzeProject path) host = (.error fault, withGit host git) := by
  obtain ⟨result, git, hrun, hends, -⟩ := exists_on_mapM_fileFindings (pythonFiles host.files path) host
  cases result with
  | ok perFile => exact absurd (hends.mp ⟨perFile, rfl⟩) h
  | error fault =>
    refine ⟨git, fault, ?_⟩
    unfold pythonFiles at hrun
    unfold analyzeProject
    rw [on_bind, on_get]
    dsimp only
    rw [on_bind, hrun]

/-! ## Scripts -/

def scriptFiles (files : FileTree) (path : String) : List String :=
  (files.walk path).filter (Text.endsWith · ".js")

/-- What the analyzer of syntax prints on each script can be read as findings. -/
def PrintReadable (host : Host) (path : String) : Prop :=
  ∀ file ∈ scriptFiles host.files path, ∃ printed, (host.tools.nodeDocument file).elements = .ok printed

def scriptReport (host : Host) (file : String) : Except Fault (List Value) := do
  let printed ← (host.tools.nodeDocument file).elements
  return printed ++ (host.tools.eslintFindings file).map .obj

/-- The analysis of scripts: a report on each, and the dependencies. -/
lemma on_scripts (host : Host) (path : String) :
    on (Javascript.analyzeProject path) host =
      match (scriptFiles host.files path).mapM (scriptReport host) with
      | .error fault => (.error fault, host)
      | .ok perFile => ((javascriptDependencies host.files path host.lookup).1.map fun report =>
            perFile.flatten ++ report.finding?.map .obj,
          { host with lookup := (javascriptDependencies host.files path host.lookup).2 }) := by
  have hstep : ∀ file : String, on (do
      let parsed ← Action.ofExcept (host.tools.nodeDocument file).elements
      return parsed ++ (host.tools.eslintFindings file).map Value.obj) host = (scriptReport host file, host) := by
    intro file
    unfold scriptReport
    rw [on_bind, on_ofExcept]
    cases (host.tools.nodeDocument file).elements <;> rfl
  unfold Javascript.analyzeProject Javascript.projectDependencies
  rw [on_bind, on_get]
  dsimp only
  rw [on_bind, on_mapM hstep]
  unfold scriptFiles
  cases ((host.files.walk path).filter (Text.endsWith · ".js")).mapM (scriptReport host) with
  | error fault => rfl
  | ok perFile =>
    dsimp only
    rw [on_bind, on_bind, on_get]
    dsimp only
    rw [on_lookingUp]
    cases (javascriptDependencies host.files path host.lookup).1 <;> rfl

/-- A finding of the linter for Javascript has five fields, the first of which is its type. -/
lemma exists_of_mem_eslintFindings {t : Tools} (h : r ∈ t.eslintFindings path) :
    ∃ rule message line severity, r = [("type", .str "eslint"), ("ruleId", rule), ("message", message),
      ("line", line), ("severity", severity)] := by
  unfold Tools.eslintFindings at h
  obtain ⟨found, hfound, hr⟩ := Suppression.mem_orNothing_iff.mp h
  simp only [bind_eq_ok_iff] at hfound
  obtain ⟨output, -, document, -, files, -, perFile, hperFile, ⟨⟩⟩ := hfound
  obtain ⟨messages, hmessages, hr⟩ := mem_flatten.mp hr
  obtain ⟨file, -, hfile⟩ := exists_mem_of_mapM hperFile hmessages
  obtain ⟨part, -, hfile⟩ := of_bind hfile
  obtain ⟨items, -, hfile⟩ := of_bind hfile
  obtain ⟨m, -, hmessage⟩ := exists_mem_of_mapM hfile hr
  simp only [bind_eq_ok_iff] at hmessage
  obtain ⟨rule, -, message, -, line, -, severity, -, ⟨⟩⟩ := hmessage
  exact ⟨rule, message, line, severity, rfl⟩

end CodeAudit.Audit

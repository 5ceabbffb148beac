import CodeAudit.Audit.Scan
import CodeAudit.Proofs.Actions
import CodeAudit.Proofs.Files.Writing

/-!
# A file added to a project

The scan for Python ends with the first file that it cannot analyse, and what it has found until then is dropped. So an
added file keeps the findings on the others exactly when it can be analysed itself.
-/

namespace CodeAudit.Audit

open Proofs Proofs.Steps Action List Python Path Text Except Python.Tree

variable {files : FileTree} {found : List Record} {file : String} {host : Host} {path : String} {room : Nat}

/-! ## The scan without external programs -/

/-- The findings on a file where no external program is at hand: no linter speaks, and nothing is known of changes. -/
def aloneFindings (room : Nat) (files : FileTree) (path : String) : Except Fault (List Record) := do
  let functions ← analyzeFile files path room
  let tainted ← taintFile files path room
  return (functions ++ tainted).map (withFields · ({} : Tools.Churn).toRecord)

lemma on_fileFindings (htools : host.tools = {}) (path : String) :
    on (fileFindings path) host = (aloneFindings host.room host.files path, host) := by
  have hgit : host.tools.git = [] := by rw [htools]
  unfold fileFindings aloneFindings
  rw [on_bind, on_churn hgit]
  dsimp only
  rw [on_bind, on_visiting]
  cases analyzeFile host.files path host.room with
  | error fault => rfl
  | ok functions =>
    dsimp only
    rw [on_bind, on_get]
    dsimp only
    rw [on_bind, on_visiting, htools]
    cases taintFile host.files path host.room with
    | error fault => rfl
    | ok tainted =>
      dsimp only
      rw [on_pure]
      simp [Tools.banditFindings, ToolRun.result, CodeAudit.orNothing]

def pythonFiles (files : FileTree) (path : String) : List String :=
  (files.walk path).filter (endsWith · ".py")

def aloneProject (host : Host) (path : String) : Except Fault (List Record) := do
  let found ← (pythonFiles host.files path).mapM (aloneFindings host.room host.files)
  let dependencies ← (pythonDependencies host.files host.index path host.lookup).1
  return found.flatten ++ dependencies.finding?

/-- What the scan for Python reports on a host: it never fails, and reports nothing where its analysis
does. -/
def pythonReport (host : Host) (path : String) : List Value :=
  match on (pythonFindings path) host with
  | (.ok found, _) => found
  | (.error _, _) => []

lemma pythonReport_eq (htools : host.tools = {}) (path : String) :
    pythonReport host path = match aloneProject host path with
      | .ok found => found.map .obj
      | .error _ => [] := by
  have hproject : (on (analyzeProject path) host).1 = aloneProject host path := by
    unfold analyzeProject aloneProject
    rw [on_bind, on_get]
    dsimp only
    rw [on_bind, on_mapM (on_fileFindings htools)]
    unfold pythonFiles
    cases ((host.files.walk path).filter (endsWith · ".py")).mapM (aloneFindings host.room host.files) with
    | error fault => rfl
    | ok found =>
      dsimp only
      unfold projectDependencies
      rw [on_bind, on_bind, on_get]
      dsimp only
      rw [on_lookingUp]
      cases (pythonDependencies host.files host.index path host.lookup).1 <;> rfl
  unfold pythonReport pythonFindings orNothing
  rw [on_tryCatch, on_bind]
  rw [← hproject]
  rcases on (analyzeProject path) host with ⟨result, after⟩
  cases result <;> rfl

/-! ## Files that can be analysed -/

/-- A file can be analysed: it can be read, is a program, and both visits reach the leaves of its tree. -/
def IsAnalysable (room : Nat) (files : FileTree) (path : String) : Prop :=
  ∃ t, treeOfFile files path = .ok t ∧ t.visitDepth measuring ≤ room ∧ t.visitDepth tainting ≤ room

lemma visitable_eq_ok_iff {t : Tree} : t.visitable v room = .ok u ↔ t.visitDepth v ≤ room := by
  unfold visitable
  split
  · next hdeep =>
    simp only [reduceCtorEq, false_iff]
    omega
  · next hdeep =>
    simp only [true_iff]
    omega

lemma visitFunctions_eq_ok_iff {t : Tree} :
    visitFunctions t room = .ok records ↔ t.visitDepth measuring ≤ room ∧ functionRecords t = records := by
  unfold visitFunctions
  simp only [bind_eq_ok_iff, visitable_eq_ok_iff, pure_eq_ok, ok.injEq, exists_const]

lemma analyzeFile_eq_ok_iff : analyzeFile files path room = .ok found ↔ ∃ t, treeOfFile files path = .ok t ∧
      t.visitDepth measuring ≤ room ∧ functionFindings t = found := by
  unfold analyzeFile functionFindings
  simp only [bind_eq_ok_iff, visitFunctions_eq_ok_iff, pure_eq_ok, ok.injEq, and_assoc, exists_and_left,
    exists_eq_left']

lemma taintFile_eq_ok_iff : taintFile files path room = .ok found ↔ ∃ t, treeOfFile files path = .ok t ∧
      t.visitDepth tainting ≤ room ∧ (taintFindings t).map (·.toRecord) = found := by
  unfold taintFile taintTree
  simp only [bind_eq_ok_iff, visitable_eq_ok_iff, pure_eq_ok, ok.injEq, exists_const]

variable {f : List Record → List Record → List Record}

/-- What is made of the findings on functions and of those on tainted variables is made of one tree. -/
lemma both_eq_ok_iff : (do return f (← analyzeFile files path room) (← taintFile files path room)) = ok found ↔
      ∃ t, treeOfFile files path = .ok t ∧ t.visitDepth measuring ≤ room ∧ t.visitDepth tainting ≤ room ∧
        f (functionFindings t) ((taintFindings t).map (·.toRecord)) = found := by
  constructor
  · intro h
    obtain ⟨functions, hfunctions, h⟩ := of_bind h
    obtain ⟨tainted, htainted, h⟩ := of_bind h
    obtain ⟨t, ht, hmeasure, rfl⟩ := analyzeFile_eq_ok_iff.mp hfunctions
    obtain ⟨t', ht', htaint, rfl⟩ := taintFile_eq_ok_iff.mp htainted
    cases ok.inj (ht.symm.trans ht')
    exact ⟨t, ht, hmeasure, htaint, ok.inj h⟩
  · rintro ⟨t, ht, hmeasure, htaint, rfl⟩
    have hfunctions := analyzeFile_eq_ok_iff.mpr ⟨t, ht, hmeasure, rfl⟩
    have htainted := taintFile_eq_ok_iff.mpr ⟨t, ht, htaint, rfl⟩
    exact bind_eq_ok_iff.mpr ⟨_, hfunctions, bind_eq_ok_iff.mpr ⟨_, htainted, rfl⟩⟩

lemma exists_both_iff :
    (∃ found, (do return f (← analyzeFile files path room) (← taintFile files path room)) = ok found) ↔
      IsAnalysable room files path := by
  simp only [both_eq_ok_iff]
  exact ⟨fun ⟨_, t, ht, hm, htaint, _⟩ => ⟨t, ht, hm, htaint⟩, fun ⟨t, ht, hm, htaint⟩ => ⟨_, t, ht, hm, htaint, rfl⟩⟩

lemma exists_aloneFindings_iff : (∃ found, aloneFindings room files path = .ok found) ↔ IsAnalysable room files path :=
  exists_both_iff

def RequirementsReadable (files : FileTree) (path : String) : Prop :=
  files.isThere (join path "requirements.txt") → ∃ s, files.text .refuse (join path "requirements.txt") = .ok s

lemma exists_pythonDependencies_iff (index : PackageIndex) (s : LookupState) :
    (∃ report, (pythonDependencies files index path s).1 = .ok report) ↔ RequirementsReadable files path := by
  unfold pythonDependencies RequirementsReadable
  dsimp only
  cases hthere : files.isThere (join path "requirements.txt") with
  | false => simp
  | true =>
    cases htext : files.text .refuse (join path "requirements.txt") <;> simp

/-! ## The project with the new file -/

variable {host : Host} {path : String} {base rest : List String} {content : Content}

def withFile (host : Host) (place : List String) (content : Content) : Host :=
  { host with files := host.files.put place (.file content) }

lemma aloneFindings_put (hnew : files.entry? place = none) (h : aloneFindings room files file = .ok found) :
    aloneFindings room (files.put place new) file = .ok found := by
  obtain ⟨t, ht, hrest⟩ := both_eq_ok_iff.mp h
  obtain ⟨s, hs, ht⟩ := of_bind ht
  exact both_eq_ok_iff.mpr ⟨t, bind_eq_ok_iff.mpr ⟨s, FileTree.text_put hnew hs, ht⟩, hrest⟩

/-- The Python files of a project with a new one: those it had, and the new one. -/
lemma mem_pythonFiles_put (hdirectory : host.files.find path = .ok .directory)
    (hbase : local? path host.files.home = some base) (hrest : rest ≠ []) (hnew : host.files.entry? (base ++ rest) = none)
    (hpython : endsWith (join path (join "/" rest)) ".py") :
    file ∈ pythonFiles (withFile host (base ++ rest) content).files path ↔
      file ∈ pythonFiles host.files path ∨ file = join path (join "/" rest) := by
  unfold pythonFiles withFile
  rw [mem_filter, mem_filter, FileTree.mem_walk_put hdirectory hbase hrest hnew]
  constructor
  · rintro ⟨hold | hfile, hends⟩
    · exact .inl ⟨hold, hends⟩
    · exact .inr hfile
  · rintro (⟨hold, hends⟩ | rfl)
    · exact ⟨.inl hold, hends⟩
    · exact ⟨.inr rfl, hpython⟩

lemma find_of_mem_pythonFiles (h : file ∈ pythonFiles files path) : files.find path = .ok .directory := by
  have hwalk := (mem_filter.mp h).1
  unfold FileTree.walk at hwalk
  split at hwalk
  · next hfind _ => exact hfind
  · cases hwalk

/-- Whether a finding is one on a function or on a tainted variable. -/
def isOnSource : Value → Bool
  | .obj finding => (Record.getD finding "type" .null).isWordOf ["function_analysis", "taint_analysis"]
  | _ => false

/-- What a project reports: a finding is on one of its files, or on its dependencies, which is none on a function or
variable. -/
lemma mem_aloneProject (h : aloneProject host path = .ok found) (hsource : isOnSource (.obj finding)) :
    finding ∈ found ↔ ∃ file ∈ pythonFiles host.files path, ∃ onFile,
      aloneFindings host.room host.files file = .ok onFile ∧ finding ∈ onFile := by
  obtain ⟨perFile, hperFile, h⟩ := of_bind h
  obtain ⟨dependencies, -, h⟩ := of_bind h
  cases ok.inj h
  have hdependencies : finding ∉ dependencies.finding? := by
    intro hmem
    unfold DependencyReport.finding? at hmem
    split at hmem
    · cases hmem
    · rw [mem_singleton] at hmem
      subst hmem
      simp [isOnSource, Record.getD, Record.get?, Value.isWordOf] at hsource
  rw [mem_append, or_iff_left hdependencies, mem_flatten]
  constructor
  · rintro ⟨onFile, honFile, hmem⟩
    obtain ⟨file, hfile, hstep⟩ := exists_mem_of_mapM hperFile honFile
    exact ⟨file, hfile, onFile, hstep, hmem⟩
  · rintro ⟨file, hfile, onFile, hstep, hmem⟩
    obtain ⟨onFile', honFile', hstep'⟩ := exists_result_of_mapM hperFile hfile
    cases ok.inj (hstep.symm.trans hstep')
    exact ⟨onFile, honFile', hmem⟩

/-- A project is analysed exactly when each of its Python files is and its requirements can be read. -/
lemma exists_aloneProject_iff : (∃ found, aloneProject host path = .ok found) ↔
    (∀ file ∈ pythonFiles host.files path, ∃ onFile, aloneFindings host.room host.files file = .ok onFile) ∧
      RequirementsReadable host.files path := by
  rw [← exists_pythonDependencies_iff host.index host.lookup]
  constructor
  · rintro ⟨found, h⟩
    obtain ⟨perFile, hperFile, h⟩ := of_bind h
    obtain ⟨dependencies, hdependencies, -⟩ := of_bind h
    refine ⟨fun file hfile => ?_, dependencies, hdependencies⟩
    obtain ⟨onFile, -, hstep⟩ := exists_result_of_mapM hperFile hfile
    exact ⟨onFile, hstep⟩
  · rintro ⟨hfiles, dependencies, hdependencies⟩
    obtain ⟨perFile, hperFile⟩ := exists_mapM_eq_ok hfiles
    exact ⟨_, bind_eq_ok_iff.mpr ⟨_, hperFile, bind_eq_ok_iff.mpr ⟨_, hdependencies, rfl⟩⟩⟩

lemma mem_pythonReport_iff (htools : host.tools = {}) :
    v ∈ pythonReport host path ↔ ∃ found, aloneProject host path = .ok found ∧ ∃ finding ∈ found, .obj finding = v := by
  rw [pythonReport_eq htools]
  cases aloneProject host path <;> simp

section Added

variable (hdirectory : host.files.find path = .ok .directory) (hbase : local? path host.files.home = some base)
  (hrest : rest ≠ []) (hnew : host.files.entry? (base ++ rest) = none)
  (hpython : endsWith (join path (join "/" rest)) ".py")

include hdirectory hbase hrest hnew hpython

/-- A project that was analysed still is, if the new file can be analysed and is not in the way of the requirements. -/
lemma exists_aloneProject_put_iff (hbefore : ∃ found, aloneProject host path = .ok found) :
    (∃ found, aloneProject (withFile host (base ++ rest) content) path = .ok found) ↔
      IsAnalysable host.room (withFile host (base ++ rest) content).files (join path (join "/" rest)) ∧
        RequirementsReadable (withFile host (base ++ rest) content).files path := by
  obtain ⟨hfiles, -⟩ := exists_aloneProject_iff.mp hbefore
  rw [exists_aloneProject_iff, ← exists_aloneFindings_iff]
  refine and_congr_left fun _ => ⟨fun h => ?_, fun h file hfile => ?_⟩
  · exact h _ ((mem_pythonFiles_put hdirectory hbase hrest hnew hpython).mpr (.inr rfl))
  · rcases (mem_pythonFiles_put hdirectory hbase hrest hnew hpython).mp hfile with hold | rfl
    · obtain ⟨onFile, honFile⟩ := hfiles file hold
      exact ⟨onFile, aloneFindings_put hnew honFile⟩
    · exact h

lemma mem_aloneProject_put {found after : List Record} (hfound : aloneProject host path = .ok found)
    (hafter : aloneProject (withFile host (base ++ rest) content) path = .ok after)
    (hsource : isOnSource (.obj finding)) (hmem : finding ∈ found) : finding ∈ after := by
  obtain ⟨file, hfile, onFile, honFile, hin⟩ := (mem_aloneProject hfound hsource).mp hmem
  refine (mem_aloneProject hafter hsource).mpr ⟨file, ?_, onFile, aloneFindings_put hnew honFile, hin⟩
  exact (mem_pythonFiles_put hdirectory hbase hrest hnew hpython).mpr (.inl hfile)

end Added

/-- A new Python file leaves the findings on functions and tainted variables in the report exactly when there were none,
or it can be analysed and is not in the way of the requirements. -/
theorem sourceFindings_kept_iff (htools : host.tools = {}) (hbase : local? path host.files.home = some base)
    (hrest : rest ≠ []) (hnew : host.files.entry? (base ++ rest) = none)
    (hpython : endsWith (join path (join "/" rest)) ".py" = true) :
    (∀ v ∈ pythonReport host path, isOnSource v = true → v ∈ pythonReport (withFile host (base ++ rest) content) path) ↔
      (∀ v ∈ pythonReport host path, isOnSource v = false) ∨
        IsAnalysable host.room (withFile host (base ++ rest) content).files (join path (join "/" rest)) ∧
          RequirementsReadable (withFile host (base ++ rest) content).files path := by
  have htools' : (withFile host (base ++ rest) content).tools = {} := htools
  by_cases hnone : ∀ v ∈ pythonReport host path, isOnSource v = false
  · refine iff_of_true (fun v hv hsource => ?_) (.inl hnone)
    rw [hnone v hv] at hsource
    cases hsource
  rw [or_iff_right hnone]
  push Not at hnone
  obtain ⟨v, hv, hsource⟩ := hnone
  replace hsource := eq_true_of_ne_false hsource
  -- A finding on a source stands in the report, so the analysis ended and the project is a directory.
  obtain ⟨found, hfound, finding, hfinding, rfl⟩ := (mem_pythonReport_iff htools).mp hv
  obtain ⟨file, hfile, -⟩ := (mem_aloneProject hfound hsource).mp hfinding
  have hdirectory := find_of_mem_pythonFiles hfile
  rw [← exists_aloneProject_put_iff hdirectory hbase hrest hnew hpython ⟨found, hfound⟩]
  constructor
  · intro hkept
    obtain ⟨after, hafter, -⟩ := (mem_pythonReport_iff htools').mp (hkept _ hv hsource)
    exact ⟨after, hafter⟩
  · rintro ⟨after, hafter⟩ w hw hsource'
    obtain ⟨found', hfound', finding', hfinding', rfl⟩ := (mem_pythonReport_iff htools).mp hw
    have hin := mem_aloneProject_put hdirectory hbase hrest hnew hpython hfound' hafter hsource' hfinding'
    exact (mem_pythonReport_iff htools').mpr ⟨after, hafter, finding', hin, rfl⟩

/-- A host with one program, whose only function passes its argument on to an evaluation. -/
def evaluatingHost : Host := hostOf (FileTree.empty.put ["p", "a.py"] (.file (.text "def f():\n    eval(s)\n")))

/-- A second file that breaks off in its first line takes the finding on the first with it. -/
theorem evaluatingHost_finding_lost : (∃ v ∈ pythonReport evaluatingHost "p", isOnSource v = true) ∧
      ¬ ∀ v ∈ pythonReport evaluatingHost "p", isOnSource v = true →
        v ∈ pythonReport (withFile evaluatingHost (["p"] ++ ["b.py"]) (.text "def (")) "p" := by
  have hsome : (pythonReport evaluatingHost "p").any isOnSource = true := by decide +kernel
  obtain ⟨v, hv, hsource⟩ := any_eq_true.mp hsome
  refine ⟨⟨v, hv, hsource⟩, fun hkept => ?_⟩
  have hcause := (sourceFindings_kept_iff rfl (by decide +kernel) (by decide) (by decide +kernel)
    (by decide +kernel)).mp hkept
  rcases hcause with hnone | ⟨⟨t, ht, -⟩, -⟩
  · rw [hnone v hv] at hsource
    cases hsource
  · have hbroken : (treeOfFile (withFile evaluatingHost (["p"] ++ ["b.py"]) (.text "def (")).files
        (join "p" (join "/" ["b.py"]))).isOk = false := by decide +kernel
    rw [ht] at hbroken
    cases hbroken

end CodeAudit.Audit

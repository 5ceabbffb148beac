import CodeAudit.Proofs.Audit.Analyses

/-!
# Which analyses a profile turns off

A profile has six flags, but the search for tainted variables and the check of dependencies are parts of the analysis of
Python files, the second also of that of scripts. So their flags turn nothing off. `Ran` says what a part of a scan
has found and whom it has asked; parts that follow one another add up (`Ran.append`), and so a scan follows three flags
only (`collect_follows_three_flags`).
-/

namespace CodeAudit.Audit

open Proofs Proofs.Steps Action List Python Tree Except

open Lookup (Asks Misses)

variable {type kind file path : String}
  {host : Host} {types : String → Prop} {packages : Package → Prop} {inquired : Prop}

/-! ## Types of findings -/

/-- Some of the findings is of a type. -/
def Has (type : String) (findings : List Value) : Prop := ∃ finding ∈ findings, Features.hasType finding type = .ok true

lemma has_append : Has type (first ++ second) ↔ Has type first ∨ Has type second := by
  unfold Has
  simp only [mem_append, or_and_right, exists_or]

lemma not_has_nil (type : String) : ¬ Has type [] := by
  simp [Has]

lemma has_flatten {lists : List (List Value)} : Has type lists.flatten ↔ ∃ findings ∈ lists, Has type findings := by
  unfold Has
  simp only [mem_flatten]
  tauto

lemma hasType_obj {r : Record} (h : r.get? "type" = some (.str kind)) (type : String) :
    Features.hasType (.obj r) type = .ok true ↔ type = kind := by
  have hpart : Value.part (.obj r) "type" .null = .ok (.str kind) := by
    change ok (Record.getD r "type" .null) = _
    unfold Record.getD
    rw [h]
    rfl
  unfold Features.hasType
  rw [hpart]
  simp [Value.isWordOf, eq_comm]

lemma has_map_obj {records : List Record} (h : ∀ r ∈ records, r.get? "type" = some (.str kind))
    (type : String) : Has type (records.map .obj) ↔ type = kind ∧ records ≠ [] := by
  constructor
  · rintro ⟨finding, hmem, htype⟩
    obtain ⟨r, hr, rfl⟩ := mem_map.mp hmem
    exact ⟨(hasType_obj (h r hr) type).mp htype, ne_nil_of_mem hr⟩
  · rintro ⟨rfl, hne⟩
    obtain ⟨r, hr⟩ := exists_mem_of_ne_nil _ hne
    exact ⟨.obj r, mem_map_of_mem hr, (hasType_obj (h r hr) _).mpr rfl⟩

/-! ## Types of what the analyses find -/

def ProgramHas (host : Host) (file : String) (t : Tree) (type : String) : Prop :=
  type = "function_analysis" ∧ functionFindings t ≠ [] ∨ type = "bandit" ∧ host.tools.banditFindings file ≠ [] ∨
    type = "taint_analysis" ∧ taintFindings t ≠ []

lemma has_fileReport (h : IsReportOn host file found) (type : String) :
    Has type (found.map .obj) ↔ ∃ t, treeOfFile host.files file = .ok t ∧ ProgramHas host file t type := by
  obtain ⟨changed, hreport⟩ := h
  obtain ⟨t, ht, -, -, rfl⟩ := fileReport_eq_ok_iff.mp hreport
  -- each of the three parts of the report is of one type, which the history of the file leaves alone
  have hpart : ∀ {records : List Record} {kind : String}, (∀ r ∈ records, r.get? "type" = some (.str kind)) →
      (Has type ((records.map (withFields · changed.toRecord)).map .obj) ↔ type = kind ∧ records ≠ []) := by
    intro records kind hkind
    have hkinds : ∀ r ∈ records.map (withFields · changed.toRecord), r.get? "type" = some (.str kind) :=
      forall_mem_map.mpr fun plain hplain => by rw [get?_type_withChurn, hkind plain hplain]
    rw [has_map_obj hkinds, Ne, map_eq_nil_iff]
  have hfunctions : ∀ r ∈ functionFindings t, r.get? "type" = some (.str "function_analysis") :=
    forall_mem_map.mpr fun f _ => rfl
  have hlinted : ∀ r ∈ host.tools.banditFindings file, r.get? "type" = some (.str "bandit") := by
    intro r hr
    obtain ⟨test, text, line, severity, confidence, rfl⟩ := Suppression.exists_of_mem_banditFindings hr
    rfl
  have htainted : ∀ r ∈ (taintFindings t).map (·.toRecord), r.get? "type" = some (.str "taint_analysis") :=
    forall_mem_map.mpr fun f _ => rfl
  rw [map_append, map_append, map_append, map_append, has_append, has_append, hpart hfunctions,
    hpart hlinted, hpart htainted, Ne, Ne, Ne, map_eq_nil_iff, or_assoc]
  constructor
  · intro htype
    exact ⟨t, ht, htype⟩
  · rintro ⟨t', ht', htype⟩
    cases ok.inj (ht.symm.trans ht')
    exact htype

lemma has_finding? (report : DependencyReport) (type : String) :
    Has type (report.finding?.map .obj) ↔ type = "dependencies" ∧ report.dependencies ≠ [] := by
  have hkind : ∀ r ∈ report.finding?, r.get? "type" = some (.str "dependencies") := by
    intro r hr
    unfold DependencyReport.finding? at hr
    split at hr
    · cases hr
    · cases mem_singleton.mp hr
      rfl
  rw [has_map_obj hkind]
  refine and_congr_right fun _ => not_congr ?_
  unfold DependencyReport.finding?
  cases report.dependencies <;> simp

/-! ## Parts of a scan -/

/-- What a part of a scan has done: the types of findings found, the packages looked up, and whether the index was
asked. -/
structure Ran (host after : Host) (found : List Value) (types : String → Prop) (packages : Package → Prop)
    (inquired : Prop) : Prop where
  files : after.files = host.files
  room : after.room = host.room
  tools : ∃ git, after.tools = { host.tools with git }
  has : ∀ type, Has type found ↔ types type
  asks : ∃ asked, Asks asked host.lookup after.lookup ∧ ∀ p, p ∈ asked ↔ packages p
  inquiries : ∃ names, after.lookup.inquiries = host.lookup.inquiries ++ names ∧ (names ≠ [] ↔ inquired)

section Ran

variable {host between after : Host} {found more : List Value} {types types' : String → Prop}
  {packages packages' : Package → Prop} {inquired inquired' : Prop}

lemma Ran.reading (h : ∀ type, Has type found ↔ types type) : Ran host host found types (fun _ => False) False where
  files := rfl
  room := rfl
  tools := ⟨host.tools.git, rfl⟩
  has := h
  asks := ⟨[], .nil _, by simp⟩
  inquiries := ⟨[], by simp⟩

lemma Ran.nothing (git : List (Option String)) (htypes : ∀ type, ¬ types type) (hpackages : ∀ p, ¬ packages p)
    (hinquired : ¬ inquired) : Ran host (withGit host git) [] types packages inquired where
  files := rfl
  room := rfl
  tools := ⟨git, rfl⟩
  has type := iff_of_false (not_has_nil type) (htypes type)
  asks := ⟨[], .nil _, fun p => iff_of_false not_mem_nil (hpackages p)⟩
  inquiries := ⟨[], (append_nil _).symm, iff_of_false (fun h => h rfl) hinquired⟩

lemma Ran.append (h : Ran host between found types packages inquired)
    (h' : Ran between after more types' packages' inquired') :
    Ran host after (found ++ more) (fun type => types type ∨ types' type) (fun p => packages p ∨ packages' p)
      (inquired ∨ inquired') where
  files := h'.files.trans h.files
  room := h'.room.trans h.room
  tools := by
    obtain ⟨git, htools⟩ := h.tools
    obtain ⟨git', htools'⟩ := h'.tools
    exact ⟨git', by rw [htools', htools]⟩
  has type := by rw [has_append, h.has, h'.has]
  asks := by
    obtain ⟨asked, hasks, hasked⟩ := h.asks
    obtain ⟨asked', hasks', hasked'⟩ := h'.asks
    refine ⟨asked ++ asked', hasks.append hasks', fun p => ?_⟩
    rw [mem_append, hasked, hasked']
  inquiries := by
    obtain ⟨names, hnames, hinquired⟩ := h.inquiries
    obtain ⟨names', hnames', hinquired'⟩ := h'.inquiries
    refine ⟨names ++ names', by rw [hnames', hnames, append_assoc], ?_⟩
    rw [← hinquired, ← hinquired', Ne, append_eq_nil_iff, not_and_or]

lemma Ran.congr (h : Ran host after found types packages inquired) (htypes : ∀ type, types type ↔ types' type)
    (hpackages : ∀ p, packages p ↔ packages' p) (hinquired : inquired ↔ inquired') :
    Ran host after found types' packages' inquired' := by
  obtain rfl : types = types' := funext fun type => propext (htypes type)
  obtain rfl : packages = packages' := funext fun p => propext (hpackages p)
  obtain rfl : inquired = inquired' := propext hinquired
  exact h

lemma Ran.inquiries_ne_iff (h : Ran host after found types packages inquired) :
    after.lookup.inquiries ≠ host.lookup.inquiries ↔ inquired := by
  obtain ⟨names, hnames, hinquired⟩ := h.inquiries
  rw [← hinquired, hnames]
  simp

lemma Ran.requests_ne_iff (h : Ran host after found types packages inquired) :
    after.lookup.network.requests ≠ host.lookup.network.requests ↔ ∃ p, packages p ∧ Misses host.lookup p := by
  obtain ⟨asked, hasks, hasked⟩ := h.asks
  rw [hasks.requests_ne_iff]
  simp only [hasked]

end Ran

lemma on_orNothing (analysis : Action (List Value)) (host : Host) :
    on (orNothing analysis) host = match on analysis host with
      | (.ok found, after) => (.ok found, after)
      | (.error _, after) => (.ok [], after) := by
  unfold orNothing
  rw [on_tryCatch]
  rcases on analysis host with ⟨result, after⟩
  cases result <;> rfl

lemma ran_onlyIf (wanted : Bool)
    (h : ∃ found after, on analysis host = (.ok found, after) ∧ Ran host after found types packages inquired) :
    ∃ found after, on (onlyIf wanted analysis) host = (.ok found, after) ∧
      Ran host after found (fun type => wanted ∧ types type) (fun p => wanted ∧ packages p)
        (wanted ∧ inquired) := by
  cases wanted with
  | false => exact ⟨[], host, rfl, .nothing host.tools.git (by simp) (by simp) (by simp)⟩
  | true =>
    obtain ⟨found, after, hrun, hran⟩ := h
    exact ⟨found, after, hrun, hran.congr (by simp) (by simp) (by simp)⟩

/-! ## The three analyses -/

def IsAnalysed (host : Host) (path : String) : Prop := AllAnalysable host path ∧ RequirementsReadable host.files path

def PythonHas (host : Host) (path type : String) : Prop :=
  IsAnalysed host path ∧
    ((∃ file ∈ pythonFiles host.files path, ∃ t, treeOfFile host.files file = .ok t ∧ ProgramHas host file t type) ∨
      type = "dependencies" ∧ namedRequirements host.files path ≠ [])

/-- The analysis of Python files looks for tainted variables and checks the requirements, whatever else is wanted. -/
lemma ran_pythonFindings (path : String) (host : Host) :
    ∃ found after, on (pythonFindings path) host = (.ok found, after) ∧ Ran host after found (PythonHas host path)
        (fun p => AllAnalysable host path ∧ ∃ r ∈ namedRequirements host.files path, p = requiredPackage r)
        (AllAnalysable host path ∧ namedRequirements host.files path ≠ []) := by
  unfold pythonFindings
  rw [on_orNothing, on_bind]
  by_cases hall : AllAnalysable host path
  · obtain ⟨git, perFile, hreports, hrun⟩ := exists_on_analyzeProject hall
    obtain ⟨hasks, hinquiries, hlength⟩ := pythonDependencies_asks host.files host.index path host.lookup
    have hreadable := @exists_pythonDependencies_iff host.files path host.index host.lookup
    have hlooked : ∀ found types, (∀ type, Has type found ↔ types type) →
        Ran host { withGit host git with lookup := (pythonDependencies host.files host.index path host.lookup).2 } found
          types
          (fun p => AllAnalysable host path ∧ ∃ r ∈ namedRequirements host.files path, p = requiredPackage r)
          (AllAnalysable host path ∧ namedRequirements host.files path ≠ []) := by
      intro found types htypes
      refine ⟨rfl, rfl, ⟨git, rfl⟩, htypes, ⟨_, hasks, fun p => ?_⟩, _, hinquiries, ?_⟩
      · rw [and_iff_right hall, mem_map]
        simp only [eq_comm]
      · rw [and_iff_right hall, Ne, map_eq_nil_iff]
    rw [hrun]
    cases hresult : (pythonDependencies host.files host.index path host.lookup).1 with
    | error fault =>
      refine ⟨[], _, rfl, hlooked _ _ fun type => iff_of_false (not_has_nil type) fun h => ?_⟩
      obtain ⟨report, hreport⟩ := hreadable.mpr h.1.2
      cases hresult.symm.trans hreport
    | ok report =>
      refine ⟨_, _, rfl, hlooked _ _ fun type => ?_⟩
      have hanalysed : IsAnalysed host path := ⟨hall, hreadable.mp ⟨report, hresult⟩⟩
      have hnone : report.dependencies ≠ [] ↔ namedRequirements host.files path ≠ [] := by
        rw [← length_pos_iff, ← length_pos_iff, hlength report hresult]
      unfold PythonHas
      rw [and_iff_right hanalysed, map_append, has_append, has_finding?, hnone, map_flatten, has_flatten]
      refine or_congr ?_ Iff.rfl
      constructor
      · rintro ⟨findings, hmem, htype⟩
        obtain ⟨records, hrecords, rfl⟩ := mem_map.mp hmem
        obtain ⟨file, hfile, hreport⟩ := exists_mem_of_forall₂ hreports hrecords
        exact ⟨file, hfile, (has_fileReport hreport type).mp htype⟩
      · rintro ⟨file, hfile, htype⟩
        obtain ⟨records, hrecords, hreport⟩ := exists_mem_of_forall₂ hreports.flip hfile
        exact ⟨_, mem_map_of_mem hrecords, (has_fileReport hreport type).mpr htype⟩
  · obtain ⟨git, fault, hrun⟩ := exists_on_analyzeProject_error hall
    rw [hrun]
    exact ⟨[], withGit host git, rfl, .nothing git (fun _ h => hall h.1.1) (fun _ h => hall h.1) fun h => hall h.1⟩

def ScriptsAnalysed (host : Host) (path : String) : Prop :=
  PrintReadable host path ∧ ∃ packages, describedPackages host.files path = .ok packages ∧ AllVersioned packages

/-- The analyzer of syntax prints a finding of a type on some script. -/
def Prints (host : Host) (path type : String) : Prop :=
  ∃ file ∈ scriptFiles host.files path, ∃ printed,
    (host.tools.nodeDocument file).elements = .ok printed ∧ Has type printed

/-- The linter says something on some script. -/
def IsLinted (host : Host) (path : String) : Prop :=
  ∃ file ∈ scriptFiles host.files path, host.tools.eslintFindings file ≠ []

def ScriptsHave (host : Host) (path type : String) : Prop :=
  ScriptsAnalysed host path ∧
    (Prints host path type ∨ type = "eslint" ∧ IsLinted host path ∨
      type = "dependencies" ∧ ∃ packages, describedPackages host.files path = .ok packages ∧ packages ≠ [])

/-- The reports on the scripts have the types of what is printed and of what the linter says. -/
lemma has_scriptReports
    (h : (scriptFiles host.files path).mapM (scriptReport host) = .ok perFile) (type : String) :
    Has type perFile.flatten ↔ Prints host path type ∨ type = "eslint" ∧ IsLinted host path := by
  have hreport : ∀ {file findings}, scriptReport host file = .ok findings → ∃ printed,
      (host.tools.nodeDocument file).elements = .ok printed ∧
        (Has type findings ↔ Has type printed ∨ type = "eslint" ∧ host.tools.eslintFindings file ≠ []) := by
    intro file findings hfindings
    obtain ⟨printed, hprinted, hfindings⟩ := of_bind hfindings
    cases ok.inj hfindings
    refine ⟨printed, hprinted, ?_⟩
    rw [has_append, has_map_obj fun r hr => ?_]
    obtain ⟨rule, message, line, severity, rfl⟩ := exists_of_mem_eslintFindings hr
    rfl
  rw [has_flatten]
  constructor
  · rintro ⟨findings, hmem, htype⟩
    obtain ⟨file, hfile, hfindings⟩ := exists_mem_of_mapM h hmem
    obtain ⟨printed, hprinted, hhas⟩ := hreport hfindings
    rcases hhas.mp htype with hprints | ⟨rfl, hlint⟩
    · exact .inl ⟨file, hfile, printed, hprinted, hprints⟩
    · exact .inr ⟨rfl, file, hfile, hlint⟩
  · rintro (⟨file, hfile, printed', hprinted', hprints⟩ | ⟨rfl, file, hfile, hlint⟩)
    all_goals
      obtain ⟨findings, hmem, hfindings⟩ := exists_result_of_mapM h hfile
      obtain ⟨printed, hprinted, hhas⟩ := hreport hfindings
      refine ⟨findings, hmem, hhas.mpr ?_⟩
    · cases ok.inj (hprinted.symm.trans hprinted')
      exact .inl hprints
    · exact .inr ⟨rfl, hlint⟩

lemma exists_scriptReports_iff :
    (∃ perFile, (scriptFiles host.files path).mapM (scriptReport host) = .ok perFile) ↔ PrintReadable host path := by
  constructor
  · rintro ⟨perFile, h⟩ file hfile
    obtain ⟨findings, -, hfindings⟩ := exists_result_of_mapM h hfile
    obtain ⟨printed, hprinted, -⟩ := of_bind hfindings
    exact ⟨printed, hprinted⟩
  · intro h
    refine exists_mapM_eq_ok fun file hfile => ?_
    obtain ⟨printed, hprinted⟩ := h file hfile
    exact ⟨_, bind_eq_ok_iff.mpr ⟨printed, hprinted, rfl⟩⟩

/-- The analysis of scripts looks up the packages that a project declares, whatever else is wanted. -/
lemma ran_scriptFindings (path : String) (host : Host) :
    ∃ found after, on (scriptFindings path) host = (.ok found, after) ∧ Ran host after found (ScriptsHave host path)
        (fun p => PrintReadable host path ∧ p ∈ lookedUpPackages host.files path) False := by
  unfold scriptFindings
  rw [on_orNothing, on_scripts]
  cases hreports : (scriptFiles host.files path).mapM (scriptReport host) with
  | error fault =>
    have hunreadable : ¬ PrintReadable host path := by
      intro hreadable
      obtain ⟨perFile, hperFile⟩ := exists_scriptReports_iff.mpr hreadable
      cases hreports.symm.trans hperFile
    exact ⟨[], host, rfl, .nothing host.tools.git (fun _ h => hunreadable h.1.1) (fun _ h => hunreadable h.1) id⟩
  | ok perFile =>
    have hreadable : PrintReadable host path := exists_scriptReports_iff.mp ⟨perFile, hreports⟩
    obtain ⟨hasks, hinquiries, hends, hlength⟩ := javascriptDependencies_asks host.files path host.lookup
    have hlooked : ∀ found types, (∀ type, Has type found ↔ types type) →
        Ran host { host with lookup := (javascriptDependencies host.files path host.lookup).2 } found types
          (fun p => PrintReadable host path ∧ p ∈ lookedUpPackages host.files path) False := by
      intro found types htypes
      refine ⟨rfl, rfl, ⟨host.tools.git, rfl⟩, htypes, ⟨_, hasks, fun p => ?_⟩, [], ?_⟩
      · rw [and_iff_right hreadable]
      · exact ⟨hinquiries.trans (append_nil _).symm, by simp⟩
    dsimp only
    cases hresult : (javascriptDependencies host.files path host.lookup).1 with
    | error fault =>
      refine ⟨[], _, rfl, hlooked _ _ fun type => iff_of_false (not_has_nil type) fun h => ?_⟩
      obtain ⟨report, hreport⟩ := hends.mpr h.1.2
      cases hresult.symm.trans hreport
    | ok report =>
      obtain ⟨packages, hpackages, hversioned⟩ := hends.mp ⟨report, hresult⟩
      refine ⟨_, _, rfl, hlooked _ _ fun type => ?_⟩
      have hanalysed : ScriptsAnalysed host path := ⟨hreadable, packages, hpackages, hversioned⟩
      have hnone : report.dependencies ≠ [] ↔
          ∃ packages, describedPackages host.files path = .ok packages ∧ packages ≠ [] := by
        rw [← length_pos_iff, hlength report packages hresult hpackages, length_pos_iff, hpackages]
        simp
      unfold ScriptsHave
      rw [and_iff_right hanalysed, has_append, has_finding?, hnone, has_scriptReports hreports, or_assoc]

def FlowsHave (host : Host) (path type : String) : Prop :=
  type = "interprocedural_taint" ∧ ∃ flows, analyzeFlows host.files path 10 host.room = .ok flows ∧ flows ≠ []

lemma ran_flowFindings (path : String) (host : Host) :
    ∃ found after, on (flowFindings path) host = (.ok found, after) ∧
      Ran host after found (FlowsHave host path) (fun _ => False) False := by
  unfold flowFindings
  rw [on_orNothing, on_bind, on_visiting]
  cases hflows : analyzeFlows host.files path 10 host.room with
  | error fault =>
    refine ⟨[], host, rfl, .reading fun type => iff_of_false (not_has_nil type) ?_⟩
    rintro ⟨-, flows, hok, -⟩
    cases hflows.symm.trans hok
  | ok flows =>
    have hkind : ∀ r ∈ flows, r.get? "type" = some (.str "interprocedural_taint") := by
      intro r hr
      obtain ⟨index, -, hfound⟩ := of_bind hflows
      cases ok.inj hfound
      obtain ⟨f, -, rfl⟩ := mem_map.mp hr
      rfl
    refine ⟨_, host, rfl, .reading fun type => ?_⟩
    unfold FlowsHave
    rw [has_map_obj hkind, hflows]
    simp

/-! ## The whole scan -/

/-- The scripts and what is said about them are those of the host before the scan. -/
lemma Ran.scripts_iff {after : Host} (h : Ran host after found types packages inquired) (path : String) :
    (PrintReadable after path ↔ PrintReadable host path) ∧
      ∀ type, ScriptsHave after path type ↔ ScriptsHave host path type := by
  obtain ⟨git, htools⟩ := h.tools
  obtain ⟨files, tools, index, lookup, now, room⟩ := after
  cases h.files
  cases htools
  exact ⟨Iff.rfl, fun type => Iff.rfl⟩

lemma ran_collect (profile : ScanProfile) (path : String) (host : Host) :
    ∃ found after, on (collect profile path) host = (.ok found, after) ∧ Ran host after found
        (fun type => (profile.patternMatching ∧ PythonHas host path type ∨
          profile.javascript ∧ ScriptsHave host path type) ∨
          profile.flows ∧ FlowsHave host path type)
        (fun p => (profile.patternMatching ∧ AllAnalysable host path ∧
            ∃ r ∈ namedRequirements host.files path, p = requiredPackage r) ∨
          profile.javascript ∧ PrintReadable host path ∧ p ∈ lookedUpPackages host.files path)
        (profile.patternMatching ∧ AllAnalysable host path ∧ namedRequirements host.files path ≠ []) := by
  obtain ⟨python, host1, hpython, hran⟩ := ran_onlyIf profile.patternMatching (ran_pythonFindings path host)
  obtain ⟨scripts, host2, hscripts, hran1⟩ := ran_onlyIf profile.javascript (ran_scriptFindings path host1)
  obtain ⟨flows, host3, hflows, hran2⟩ := ran_onlyIf profile.flows (ran_flowFindings path host2)
  obtain ⟨hprint, hhave⟩ := hran.scripts_iff path
  refine ⟨python ++ scripts ++ flows, host3, ?_, ((hran.append hran1).append hran2).congr ?_ ?_ ?_⟩
  · unfold collect
    rw [on_bind, hpython]
    dsimp only
    rw [on_bind, hscripts]
    dsimp only
    rw [on_bind, hflows]
    rfl
  · intro type
    unfold FlowsHave
    rw [hran1.files, hran1.room, hran.files, hran.room, hhave]
  · intro p
    rw [hprint, hran.files]
    simp
  · simp

lemma pythonHas_taint : PythonHas host path "taint_analysis" ↔
    IsAnalysed host path ∧ ∃ file ∈ pythonFiles host.files path, ∃ t,
      treeOfFile host.files file = .ok t ∧ taintFindings t ≠ [] := by
  simp [PythonHas, ProgramHas]

lemma pythonHas_dependencies : PythonHas host path "dependencies" ↔
    IsAnalysed host path ∧ namedRequirements host.files path ≠ [] := by
  simp [PythonHas, ProgramHas]

lemma not_pythonHas_flow : ¬ PythonHas host path "interprocedural_taint" := by
  simp [PythonHas, ProgramHas]

/-- **A scan follows three of the flags of a profile.** On every host it collects findings on tainted variables and on
dependencies, and asks both servers, exactly when the analyses that contain these checks are on and reach something; the
flags `taint` and `dependencies` play no part. Besides what the analyzer of syntax prints, flows are found exactly when
their flag is on. -/
theorem collect_follows_three_flags (profile : ScanProfile) (path : String) (host : Host) :
    ∃ found after, on (collect profile path) host = (.ok found, after) ∧ (Has "taint_analysis" found ↔
        profile.patternMatching = true ∧ IsAnalysed host path ∧ (∃ file ∈ pythonFiles host.files path, ∃ t,
          treeOfFile host.files file = .ok t ∧ taintFindings t ≠ []) ∨
        profile.javascript = true ∧ ScriptsAnalysed host path ∧ Prints host path "taint_analysis") ∧
      (Has "dependencies" found ↔
        profile.patternMatching = true ∧ IsAnalysed host path ∧ namedRequirements host.files path ≠ [] ∨
        profile.javascript = true ∧ ScriptsAnalysed host path ∧ (Prints host path "dependencies" ∨
          ∃ packages, describedPackages host.files path = .ok packages ∧ packages ≠ [])) ∧
      (after.lookup.inquiries ≠ host.lookup.inquiries ↔
        profile.patternMatching = true ∧ AllAnalysable host path ∧ namedRequirements host.files path ≠ []) ∧
      (after.lookup.network.requests ≠ host.lookup.network.requests ↔
        profile.patternMatching = true ∧ AllAnalysable host path ∧
          (∃ r ∈ namedRequirements host.files path, Misses host.lookup (requiredPackage r)) ∨
        profile.javascript = true ∧ PrintReadable host path ∧
          ∃ p ∈ lookedUpPackages host.files path, Misses host.lookup p) ∧
      (Has "interprocedural_taint" found ↔
        profile.flows = true ∧ (∃ flows, analyzeFlows host.files path 10 host.room = .ok flows ∧ flows ≠ []) ∨
        profile.javascript = true ∧ ScriptsAnalysed host path ∧ Prints host path "interprocedural_taint") := by
  obtain ⟨found, after, hrun, hran⟩ := ran_collect profile path host
  refine ⟨found, after, hrun, ?_, ?_, hran.inquiries_ne_iff, ?_, ?_⟩
  · rw [hran.has, pythonHas_taint]
    simp [ScriptsHave, FlowsHave]
  · rw [hran.has, pythonHas_dependencies]
    simp [ScriptsHave, FlowsHave]
  · rw [hran.requests_ne_iff]
    constructor
    · rintro ⟨p, ⟨hwanted, hall, r, hr, rfl⟩ | ⟨hwanted, hprint, hp⟩, hmiss⟩
      · exact .inl ⟨hwanted, hall, r, hr, hmiss⟩
      · exact .inr ⟨hwanted, hprint, p, hp, hmiss⟩
    · rintro (⟨hwanted, hall, r, hr, hmiss⟩ | ⟨hwanted, hprint, p, hp, hmiss⟩)
      · exact ⟨_, .inl ⟨hwanted, hall, r, hr, rfl⟩, hmiss⟩
      · exact ⟨p, .inr ⟨hwanted, hprint, hp⟩, hmiss⟩
  · rw [hran.has]
    simp [not_pythonHas_flow, ScriptsHave, FlowsHave, or_comm]

def taintedFiles : FileTree := FileTree.empty.put ["p", "a.py"] (.file (.text "x = input()\neval(x)\n"))

def requiringHost : Host := hostOf (taintedFiles.put ["p", "requirements.txt"] (.file (.text "six==1.0\n")))

lemma mem_pythonFiles_requiringHost : file ∈ pythonFiles requiringHost.files "p" ↔ file = "p/a.py" := by
  have hprogram : taintedFiles.walk "p" = ["p/a.py"] := by decide +kernel
  have hwalk := @FileTree.mem_walk_put taintedFiles ["p"] ["requirements.txt"] "p" (.text "six==1.0\n") file
    (by decide +kernel) (by decide +kernel) (by decide) (by decide +kernel)
  unfold pythonFiles
  change file ∈ ((taintedFiles.put (["p"] ++ ["requirements.txt"]) (.file (.text "six==1.0\n"))).walk "p").filter _ ↔ _
  rw [mem_filter, hwalk, hprogram, mem_singleton]
  constructor
  · rintro ⟨rfl | rfl, hends⟩
    · rfl
    · revert hends
      decide +kernel
  · rintro rfl
    exact ⟨.inl rfl, by decide +kernel⟩

/-- The quick profile wants neither check, and a scan by it runs both and asks both servers. -/
theorem quick_runs_both_checks : ScanProfile.quick.taint = false ∧ ScanProfile.quick.dependencies = false ∧
      ∃ found after, on (collect .quick "p") requiringHost = (.ok found, after) ∧ Has "taint_analysis" found ∧
        Has "dependencies" found ∧ after.lookup.inquiries ≠ requiringHost.lookup.inquiries ∧
        after.lookup.network.requests ≠ requiringHost.lookup.network.requests := by
  have hnamed : namedRequirements requiringHost.files "p" = [("six", some "1.0")] := by decide +kernel
  have htree : ∃ t, treeOfFile requiringHost.files "p/a.py" = .ok t ∧ t.visitDepth measuring ≤ usualRoom ∧
      t.visitDepth tainting ≤ usualRoom ∧ taintFindings t ≠ [] := by
    have htest : (treeOfFile requiringHost.files "p/a.py").toOption.any (fun t =>
        t.visitDepth measuring ≤ usualRoom && t.visitDepth tainting ≤ usualRoom && !(taintFindings t).isEmpty) = true := by
      decide +kernel
    obtain ⟨t, ht, hparts⟩ := (Option.any_eq_true _ _).mp htest
    simp only [Bool.and_eq_true, decide_eq_true_eq, Bool.not_eq_true', isEmpty_eq_false_iff] at hparts
    exact ⟨t, toOption_eq_some_iff.mp ht, hparts.1.1, hparts.1.2, hparts.2⟩
  obtain ⟨t, ht, hmeasure, htaint, hfound⟩ := htree
  have hall : AllAnalysable requiringHost "p" := by
    intro file hfile
    rw [mem_pythonFiles_requiringHost] at hfile
    exact ⟨t, hfile ▸ ht, hmeasure, htaint⟩
  have hreadable : RequirementsReadable requiringHost.files "p" := by
    intro _
    exact isOk_iff.mp (by decide +kernel)
  have hmiss : Misses requiringHost.lookup (requiredPackage ("six", some "1.0")) := rfl
  obtain ⟨found, after, hrun, htainted, hdependencies, hinquiries, hrequests, -⟩ :=
    collect_follows_three_flags .quick "p" requiringHost
  refine ⟨rfl, rfl, found, after, hrun, htainted.mpr (.inl ?_), hdependencies.mpr (.inl ?_), hinquiries.mpr ?_,
    hrequests.mpr (.inl ?_)⟩
  · exact ⟨rfl, ⟨hall, hreadable⟩, "p/a.py", mem_pythonFiles_requiringHost.mpr rfl, t, ht, hfound⟩
  · exact ⟨rfl, ⟨hall, hreadable⟩, by simp [hnamed]⟩
  · exact ⟨rfl, hall, by simp [hnamed]⟩
  · exact ⟨rfl, hall, ("six", some "1.0"), by simp [hnamed], hmiss⟩

end CodeAudit.Audit

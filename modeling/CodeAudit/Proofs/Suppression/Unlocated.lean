import CodeAudit.Proofs.Audit.AddedFile
import CodeAudit.Proofs.Record

/-!
# Findings that name no file

Patterns of ignored files and marks in a source go by the file that a finding names. The findings on Python programs
name none, whatever is added to them about history. So no pattern sets one aside, and a project all of whose programs
are ignored is reported in full.
-/

namespace CodeAudit.Suppression

open Proofs Proofs.Steps List Action Python Audit

variable {r : Record} {host after : Host} {found : List Record} {path : String}

/-- A finding that names no file, and whose rule is its type, a text. -/
structure Unlocated (r : Record) : Prop where
  file : r.get? "file" = none
  rule : r.get? "rule_id" = none
  kind : ∃ kind, r.get? "type" = some (.str kind)

/-! ## What is said about findings without a file -/

section Verdicts

variable {options : Options} {files : FileTree} {findings : List Record}

lemma reason?_of_unlocated (h : Unlocated r) : reason? options files r = .ok none := by
  obtain ⟨kind, hkind⟩ := h.kind
  have hpath : r.getD "file" (.str "") = .str "" := by
    unfold Record.getD
    rw [h.file]
    rfl
  have hrule : Baseline.ruleOf r = .str kind := by
    unfold Baseline.ruleOf Record.getD
    rw [h.rule, hkind]
    rfl
  unfold reason?
  rw [hpath, hrule]
  rfl

/-- Findings without a file are set aside by nothing but a baseline. -/
lemma ofProject_of_unlocated (h : ∀ r ∈ findings, Unlocated r) :
    ofProject options files (findings.map .obj) = .ok (findings.map fun finding => { finding, reason := none }) := by
  unfold ofProject
  rw [mapM_eq_ok_iff, forall₂_map_left_iff, forall₂_map_right_iff, forall₂_same]
  intro r hr
  change (reason? options files r >>= fun reason => _) = _
  rw [reason?_of_unlocated (h r hr)]
  rfl

/-- Without a baseline all of them are reported, as they are. -/
lemma apply_of_unlocated (h : ∀ r ∈ findings, Unlocated r) (hbaseline : options.baseline = none) :
    apply options files (findings.map .obj) = .ok (findings.map .obj, []) := by
  unfold apply judge
  rw [ofProject_of_unlocated h, hbaseline]
  have hactive : active (findings.map fun finding => { finding, reason := none }) = findings.map .obj := by
    unfold active
    rw [filter_eq_self.mpr (by simp), map_map]
    rfl
  have haside : aside (findings.map fun finding => { finding, reason := none }) = [] := by
    simp [aside]
  change Except.ok (active _, (aside _).map _) = _
  rw [hactive, haside]
  rfl

end Verdicts

/-! ## The findings on programs -/

lemma unlocated_function (f : FunctionRecord) : Unlocated f.toFinding where
  file := rfl
  rule := rfl
  kind := ⟨"function_analysis", rfl⟩

lemma unlocated_taint (f : TaintFinding) : Unlocated f.toRecord where
  file := rfl
  rule := rfl
  kind := ⟨"taint_analysis", rfl⟩

lemma unlocated_flow (f : FlowFinding) : Unlocated f.toRecord where
  file := rfl
  rule := rfl
  kind := ⟨"interprocedural_taint", rfl⟩

lemma mem_orNothing_iff : a ∈ orNothing x ↔ ∃ found, x = .ok found ∧ a ∈ found := by
  cases x <;> simp [orNothing]

/-- A finding of the linter for Python has six fields, the first of which is its type. -/
lemma exists_of_mem_banditFindings {t : Tools} (h : r ∈ t.banditFindings path) :
    ∃ test text line severity confidence, r = [("type", .str "bandit"), ("test_id", test), ("issue_text", text),
      ("line_number", line), ("severity", severity), ("confidence", confidence)] := by
  unfold Tools.banditFindings at h
  obtain ⟨found, hfound, hr⟩ := mem_orNothing_iff.mp h
  simp only [bind_eq_ok_iff] at hfound
  obtain ⟨output, -, document, -, results, -, issues, -, hfound⟩ := hfound
  obtain ⟨issue, -, hissue⟩ := exists_mem_of_mapM hfound hr
  -- Whatever stands in the linter's document becomes the value of one of six fixed fields.
  simp only [bind_eq_ok_iff] at hissue
  obtain ⟨test, -, text, -, line, -, severity, -, confidence, -, ⟨⟩⟩ := hissue
  exact ⟨test, text, line, severity, confidence, rfl⟩

lemma unlocated_of_mem_banditFindings {tools : Tools} (h : r ∈ tools.banditFindings path) : Unlocated r := by
  obtain ⟨test, text, line, severity, confidence, rfl⟩ := exists_of_mem_banditFindings h
  exact ⟨rfl, rfl, "bandit", rfl⟩

lemma unlocated_of_mem_dependencies {report : DependencyReport} (h : r ∈ report.finding?) : Unlocated r := by
  unfold DependencyReport.finding? at h
  split at h
  · cases h
  · cases mem_singleton.mp h
    exact ⟨rfl, rfl, "dependencies", rfl⟩

lemma Unlocated.withChurn (h : Unlocated r) (churn : Tools.Churn) : Unlocated (withFields r churn.toRecord) := by
  have hkept : ∀ name ∉ ["commit_count", "unique_authors", "last_modified_days"],
      (withFields r churn.toRecord).get? name = r.get? name :=
    fun name hname => Record.get?_foldl_put hname r
  obtain ⟨kind, hkind⟩ := h.kind
  refine ⟨?_, ?_, kind, ?_⟩
  · rw [hkept "file" (by decide), h.file]
  · rw [hkept "rule_id" (by decide), h.rule]
  · rw [hkept "type" (by decide), hkind]

lemma unlocated_of_mem_fileFindings
    (h : on (fileFindings file) host = (.ok found, after)) (hr : r ∈ found) : Unlocated r := by
  unfold fileFindings at h
  obtain ⟨churn, h1, -, h⟩ := of_on_bind h
  obtain ⟨functions, h2, hfunctions, h⟩ := of_on_bind h
  obtain ⟨current, h3, -, h⟩ := of_on_bind h
  obtain ⟨tainted, h4, htainted, h⟩ := of_on_bind h
  rw [on_visiting] at hfunctions htainted
  cases h
  obtain ⟨plain, hplain, rfl⟩ := mem_map.mp hr
  refine Unlocated.withChurn ?_ churn
  -- The findings stand in the order of functions, linter, tainted variables.
  rcases mem_append.mp hplain with hplain | hplain
  · rcases mem_append.mp hplain with hplain | hplain
    · obtain ⟨t, -, -, hfound⟩ := analyzeFile_eq_ok_iff.mp (congrArg Prod.fst hfunctions)
      rw [← hfound] at hplain
      obtain ⟨f, -, rfl⟩ := mem_map.mp hplain
      exact unlocated_function f
    · exact unlocated_of_mem_banditFindings hplain
  · obtain ⟨t, -, -, hfound⟩ := taintFile_eq_ok_iff.mp (congrArg Prod.fst htainted)
    rw [← hfound] at hplain
    obtain ⟨f, -, rfl⟩ := mem_map.mp hplain
    exact unlocated_taint f

lemma unlocated_of_mem_analyzeProject
    (h : on (analyzeProject path) host = (.ok found, after)) (hr : r ∈ found) : Unlocated r := by
  unfold analyzeProject at h
  obtain ⟨start, h1, -, h⟩ := of_on_bind h
  obtain ⟨perFile, h2, hperFile, h⟩ := of_on_bind h
  obtain ⟨report, h3, -, h⟩ := of_on_bind h
  cases h
  rcases mem_append.mp hr with hr | hr
  · -- Each file is analysed on the host that the files before have left, with fewer answers about their history.
    obtain ⟨findings, hfindings, hr⟩ := mem_flatten.mp hr
    obtain ⟨file, -, before, left, hfile⟩ := exists_on_of_mem_mapM hperFile hfindings
    exact unlocated_of_mem_fileFindings hfile hr
  · exact unlocated_of_mem_dependencies hr

lemma unlocated_of_mem_analyzeFlows
    (h : analyzeFlows files path maxDepth room = .ok flows) (hr : r ∈ flows) : Unlocated r := by
  unfold analyzeFlows at h
  obtain ⟨index, -, h⟩ := of_bind h
  cases h
  obtain ⟨f, -, rfl⟩ := mem_map.mp hr
  exact unlocated_flow f

/-- **No list of patterns sets a finding on a program aside.** All that is found on the Python files of a project and
on the flows between their functions is reported, as it was found. -/
theorem apply_programFindings {host after : Host} {path : String} {maxDepth : Int} {found flows : List Record}
    (hfound : on (analyzeProject path) host = (.ok found, after))
    (hflows : analyzeFlows host.files path maxDepth host.room = .ok flows) {options : Options}
    (hbaseline : options.baseline = none) (files : FileTree) :
    apply options files ((found ++ flows).map .obj) = .ok ((found ++ flows).map .obj, []) := by
  refine apply_of_unlocated (fun r hr => ?_) hbaseline
  rcases mem_append.mp hr with hr | hr
  · exact unlocated_of_mem_analyzeProject hfound hr
  · exact unlocated_of_mem_analyzeFlows hflows hr

def ignoringPrograms : Options := { root := .str "p", patterns := .texts ["*.py"] }

/-- Every program of a project is ignored, and what is found on a function of it is reported. -/
theorem evaluatingHost_reported_though_ignored : (∀ file ∈ pythonFiles evaluatingHost.files "p",
        IgnoreFile.matchedBy ignoringPrograms.patterns (.str file) ignoringPrograms.root = .ok true) ∧
      ∃ found flows after reported, on (analyzeProject "p") evaluatingHost = (.ok found, after) ∧
        analyzeFlows evaluatingHost.files "p" = .ok flows ∧
        apply ignoringPrograms evaluatingHost.files ((found ++ flows).map .obj) = .ok (reported, []) ∧
        ∃ v ∈ reported, isOnSource v = true := by
  have hignored : (pythonFiles evaluatingHost.files "p").all (fun file =>
      (IgnoreFile.matchedBy ignoringPrograms.patterns (.str file) ignoringPrograms.root).toOption == some true) = true := by
    decide +kernel
  have hsome : (on (analyzeProject "p") evaluatingHost).1.toOption.any (fun found =>
      found.any fun r => isOnSource (.obj r)) = true := by decide +kernel
  have hflows : (analyzeFlows evaluatingHost.files "p").isOk = true := by decide +kernel
  obtain ⟨found, hresult, hany⟩ := (Option.any_eq_true _ _).mp hsome
  obtain ⟨r, hr, hsource⟩ := any_eq_true.mp hany
  obtain ⟨flows, hflows⟩ := isOk_iff.mp hflows
  have hfound : on (analyzeProject "p") evaluatingHost = (.ok found, (on (analyzeProject "p") evaluatingHost).2) :=
    Prod.ext (toOption_eq_some_iff.mp hresult) rfl
  refine ⟨fun file hfile => ?_, found, flows, _, _, hfound, hflows, apply_programFindings hfound hflows rfl _, .obj r, ?_,
    hsource⟩
  · exact toOption_eq_some_iff.mp (beq_iff_eq.mp (all_eq_true.mp hignored file hfile))
  · exact mem_map_of_mem (mem_append_left flows hr)

end CodeAudit.Suppression

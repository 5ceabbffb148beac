import CodeAudit.Findings.Classification
import CodeAudit.Proofs.Outcome
import CodeAudit.Proofs.Record
import CodeAudit.Report.Html
import CodeAudit.Report.Json
import CodeAudit.Report.Markdown

/-!
# The severity of a finding in three reports

A classified finding states its severity, and a threshold is compared with it. The Markdown and HTML reports take that
word over; the JSON report shows what it would for the finding before it was classified. So the reports agree, and keep
to a threshold, exactly when this happens to be the stated severity, or one that the threshold admits.
-/

namespace CodeAudit.Report

open Proofs Text List Except Severity Classification

/-- The reports that show a severity of their own for each finding. -/
inductive Grading where
  | json
  | markdown
  | html

def Grading.severity (report : Grading) (finding : Record) : Except Fault String :=
  match report with
  | .json => do return (← JsonReport.levelOf finding).word
  | .markdown => do return (← MarkdownReport.levelOf finding).word
  | .html => do return (← HtmlReport.levelOf (.obj finding)).word

def States (r : Record) (s : Severity) : Prop := r.get? "severity" = some (.str s.word)

/-! ## Words of severities -/

lemma ofText_word (s : Severity) : ofText s.word = s := by
  cases s <;> decide +kernel

lemma ofText_lower_word (s : Severity) : ofText (lower s.word) = s := by
  cases s <;> decide +kernel

lemma strip_lower_word (s : Severity) : strip (lower s.word) = lower s.word := by
  cases s <;> decide +kernel

/-! ## What a classification writes -/

def gradeFields (grade : Grade) (combined : Float) : Record :=
  [("severity", .str grade.severity.word), ("confidence", .str grade.confidence.word), ("rule_id", .str grade.id),
   ("rule_description", .str grade.description), ("combined_score", .float combined)]

def graded (fields : Record) (grade : Grade) (combined : Float) : Record :=
  (gradeFields grade combined).foldl (fun r field => r.put field.1 field.2) fields

section Graded

variable (fields : Record) (grade : Grade) (combined : Float)

lemma states_graded : States (graded fields grade combined) grade.severity := by
  unfold States graded gradeFields
  simp

lemma get?_graded (h : name ∉ ["severity", "confidence", "rule_id", "rule_description", "combined_score"]) :
    (graded fields grade combined).get? name = fields.get? name :=
  Record.get?_foldl_put h fields

/-- The JSON report looks at four fields, none of which a classification writes. -/
lemma json_severity_graded : Grading.json.severity (graded fields grade combined) = Grading.json.severity fields := by
  have hscore := congrArg (·.getD .null) (get?_graded fields grade combined (show "vuln_score" ∉ _ by decide))
  have hkind := congrArg (·.getD (.str "")) (get?_graded fields grade combined (show "type" ∉ _ by decide))
  have hsink : firstOf (graded fields grade combined) ["sink", "function"] (.str "") =
      firstOf fields ["sink", "function"] (.str "") := by
    unfold firstOf firstOf firstOf
    rw [get?_graded fields grade combined (show "sink" ∉ _ by decide),
      get?_graded fields grade combined (show "function" ∉ _ by decide)]
  unfold Grading.severity JsonReport.levelOf Record.getD
  rw [hscore, hkind, hsink]

end Graded

variable {r fields : Record} {least : String} {s : Severity} {grade : Grade} {combined : Float}

lemma exists_graded_of_classify (h : classify finding = .ok r) :
    ∃ fields grade combined, finding.fields = .ok fields ∧ gradeOf fields = .ok grade ∧
      r = graded fields grade combined := by
  unfold classify at h
  obtain ⟨fields, hfields, h⟩ := of_bind h
  obtain ⟨grade, hgrade, h⟩ := of_bind h
  obtain ⟨score, -, h⟩ := of_bind h
  cases h
  exact ⟨fields, grade, _, hfields, hgrade, rfl⟩

/-! ## What is made of a stated severity -/

section Stated

variable {r : Record} {s : Severity}

lemma States.getD (h : States r s) (default : Value) : r.getD "severity" default = .str s.word := by
  unfold Record.getD
  rw [h]
  rfl

lemma States.ofFinding (h : States r s) : ofFinding (.obj r) = .ok s := by
  change (do return ofText (← (r.getD "severity" (.str "low")).asText)) = _
  rw [h.getD]
  exact congrArg ok (ofText_word s)

lemma States.markdown (h : States r s) : Grading.markdown.severity r = .ok (lower s.word) := by
  -- All four words are among those that the report knows, so that it never comes to the score.
  have hlisted : (MarkdownReport.Level.all.find? (·.word == lower s.word)).isSome := by
    cases s <;> decide +kernel
  obtain ⟨level, hlevel⟩ := Option.isSome_iff_exists.mp hlisted
  have hword : level.word = lower s.word := beq_iff_eq.mp (find?_eq_some_iff_append.mp hlevel).1
  have hshown : MarkdownReport.levelOf r = .ok level := by
    unfold MarkdownReport.levelOf
    rw [h.getD]
    dsimp only [Value.asText]
    rw [ok_bind, hlevel]
    rfl
  unfold Grading.severity
  rw [hshown, ← hword]
  rfl

lemma States.html (h : States r s) : Grading.html.severity r = .ok (lower s.word) := by
  -- Likewise, so that it never comes to the confidence.
  have hlisted : (HtmlReport.Level.all.find? (·.word == lower s.word)).isSome := by
    cases s <;> decide +kernel
  obtain ⟨level, hlevel⟩ := Option.isSome_iff_exists.mp hlisted
  have hword : level.word = lower s.word := beq_iff_eq.mp (find?_eq_some_iff_append.mp hlevel).1
  have hstated : (Value.obj r).part "severity" (.str "") = .ok (.str s.word) := congrArg ok (h.getD _)
  have hshown : HtmlReport.levelOf (.obj r) = .ok level := by
    unfold HtmlReport.levelOf
    rw [hstated, ok_bind]
    dsimp only [Value.text]
    rw [strip_lower_word, hlevel]
    rfl
  unfold Grading.severity
  rw [hshown, ← hword]
  rfl

end Stated

/-- A word for a severity is one that a threshold admits. -/
def Admits (least word : String) : Prop := (Severity.ofText least).rank ≤ (Severity.ofText word).rank

instance (least word : String) : Decidable (Admits least word) := inferInstanceAs (Decidable (_ ≤ _))

lemma admits_lower_word : Admits least (lower s.word) ↔ Admits least s.word := by
  unfold Admits
  rw [ofText_lower_word, ofText_word]

lemma States.isAtLeast (h : States r s) (least : String) :
    (do return decide ((Severity.ofText least).rank ≤ (← Severity.ofFinding (.obj r)).rank)) =
      (.ok (decide (Admits least s.word)) : Except Fault Bool) := by
  have hrank : Admits least s.word ↔ (ofText least).rank ≤ s.rank := by
    unfold Admits
    rw [ofText_word]
  rw [h.ofFinding]
  exact congrArg ok (decide_eq_decide.mpr hrank.symm)

lemma exists_atLeastSeverity {findings : List Record} (h : ∀ r ∈ findings, ∃ s, States r s) (least : String) :
    ∃ kept, atLeastSeverity least (findings.map .obj) = .ok kept ∧
      ∀ r ∈ findings, ∀ s, States r s → (.obj r ∈ kept ↔ Admits least s.word) := by
  refine ⟨_, filterM_eq_ok ?_, fun r hr s hs => ?_⟩
  · intro v hv
    obtain ⟨r, hr, rfl⟩ := mem_map.mp hv
    obtain ⟨s, hs⟩ := h r hr
    exact ⟨_, hs.isAtLeast least⟩
  · rw [mem_filter, hs.isAtLeast least]
    simp [Except.toOption, hr]

/-- The reports agree on a graded finding exactly when the JSON report shows its severity for it as it was. -/
lemma forall_severity_graded_iff :
    (∀ report : Grading, report.severity (graded fields grade combined) = .ok (lower grade.severity.word)) ↔
      Grading.json.severity fields = .ok (lower grade.severity.word) := by
  have hstates := states_graded fields grade combined
  constructor
  · intro hall
    rw [← json_severity_graded fields grade combined]
    exact hall .json
  · intro hjson report
    cases report with
    | json => rw [json_severity_graded, hjson]
    | markdown => exact hstates.markdown
    | html => exact hstates.html

/-- A graded finding that a threshold admits is shown below it by no report exactly when not by the JSON report as it
was. -/
lemma forall_admits_graded_iff (h : Admits least grade.severity.word) :
    (∀ (report : Grading) word, report.severity (graded fields grade combined) = .ok word → Admits least word) ↔
      ∀ word, Grading.json.severity fields = .ok word → Admits least word := by
  have hstates := states_graded fields grade combined
  constructor
  · intro hall word hword
    rw [← json_severity_graded fields grade combined] at hword
    exact hall .json word hword
  · intro hjson report word hword
    cases report with
    | json =>
      rw [json_severity_graded] at hword
      exact hjson word hword
    | markdown =>
      rw [hstates.markdown] at hword
      cases hword
      exact admits_lower_word.mpr h
    | html =>
      rw [hstates.html] at hword
      cases hword
      exact admits_lower_word.mpr h

/-- **The reports agree on a classified finding exactly when the JSON report would have graded it so before.** Findings
with a severity that the threshold admits are kept. All reports show the stated severity exactly when the JSON report
shows it for the finding as it was; and no report shows a kept finding below the threshold exactly when the JSON report
does not as it was. -/
theorem severity_agreement {findings : List Value} {classified : List Record}
    (h : findings.mapM classify = .ok classified) (least : String) :
    ∃ kept, atLeastSeverity least (classified.map .obj) = .ok kept ∧
      Forall₂ (fun finding r => ∃ fields grade, finding.fields = .ok fields ∧
        gradeOf fields = .ok grade ∧ States r grade.severity ∧
        ((∀ report : Grading, report.severity r = .ok (lower grade.severity.word)) ↔
          Grading.json.severity fields = .ok (lower grade.severity.word)) ∧
        (.obj r ∈ kept ↔ Admits least grade.severity.word) ∧
        (.obj r ∈ kept → ((∀ (report : Grading) word, report.severity r = .ok word → Admits least word) ↔
          ∀ word, Grading.json.severity fields = .ok word → Admits least word))) findings classified := by
  have hstates : ∀ r ∈ classified, ∃ s, States r s := by
    intro r hr
    obtain ⟨finding, -, hclassify⟩ := exists_mem_of_mapM h hr
    obtain ⟨fields, grade, combined, -, -, rfl⟩ := exists_graded_of_classify hclassify
    exact ⟨grade.severity, states_graded fields grade combined⟩
  obtain ⟨kept, hkept, hadmits⟩ := exists_atLeastSeverity hstates least
  -- What is kept is told only of findings of the list, so each pair remembers that it is from there.
  have hpairs : Forall₂ (fun finding r => r ∈ classified ∧ classify finding = .ok r)
      findings classified :=
    ((forall₂_and_left _ _).mpr ⟨fun r hr => hr, (mapM_eq_ok_iff.mp h).flip⟩).flip
  refine ⟨kept, hkept, hpairs.imp ?_⟩
  rintro finding r ⟨hr, hclassify⟩
  obtain ⟨fields, grade, combined, hfields, hgrade, rfl⟩ := exists_graded_of_classify hclassify
  have hstated := states_graded fields grade combined
  have hiff := hadmits _ hr _ hstated
  exact ⟨fields, grade, hfields, hgrade, hstated, forall_severity_graded_iff, hiff,
    fun hmem => forall_admits_graded_iff (hiff.mp hmem)⟩

def evaluatingFunction : Record :=
  [("type", .str "function_analysis"), ("function", .str "f"), ("dangerous_calls", .texts ["eval"])]

/-- The finding is critical and kept at the threshold `high`; a report shows it otherwise, below the threshold. -/
theorem evaluatingFunction_shown_low :
    ∃ r kept, classify (.obj evaluatingFunction) = .ok r ∧ States r .critical ∧
      atLeastSeverity "high" [.obj r] = .ok kept ∧ .obj r ∈ kept ∧
      (¬ ∀ report : Grading, report.severity r = .ok "critical") ∧
      ∃ (report : Grading) (word : String), report.severity r = .ok word ∧ ¬ Admits "high" word := by
  have hclassified : (classify (.obj evaluatingFunction)).isOk = true := by decide +kernel
  have hcritical : (gradeOf evaluatingFunction).toOption.any (fun grade =>
      grade.severity = .critical) = true := by decide +kernel
  have hjson : (Grading.json.severity evaluatingFunction).toOption = some "low" := by decide +kernel
  obtain ⟨r, hr⟩ := isOk_iff.mp hclassified
  obtain ⟨kept, hkept, hpairs⟩ := severity_agreement (mapM_eq_ok_iff.mpr (.cons hr .nil)) "high"
  obtain ⟨fields, grade, hfields, hgrade, hstates, hagree, hiff, hbelow⟩ := (forall₂_cons.mp hpairs).1
  obtain rfl : evaluatingFunction = fields := ok.inj hfields
  rw [hgrade] at hcritical
  have hseverity : grade.severity = .critical := of_decide_eq_true hcritical
  have hlow := toOption_eq_some_iff.mp hjson
  rw [hseverity] at hstates hiff hagree
  have hword : lower critical.word = "critical" := by decide +kernel
  rw [hword, hlow] at hagree
  have hmem := hiff.mpr (by decide +kernel)
  refine ⟨r, kept, hr, hstates, hkept, hmem, fun hall => ?_, ?_⟩
  · exact absurd (ok.inj (hagree.mp hall)) (by decide)
  · by_contra hnone
    push Not at hnone
    exact absurd ((hbelow hmem).mp hnone "low" hlow) (by decide +kernel)

end CodeAudit.Report

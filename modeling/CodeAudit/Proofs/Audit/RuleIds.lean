import CodeAudit.Audit.Scan
import CodeAudit.Proofs.Actions
import CodeAudit.Proofs.Findings.Grades

/-!
# The rules that a scan reports by

A scan reads and indexes the rules of further directories, and a fault in one ends it. Nothing else is made of them:
every reported finding carries the id of a grade, and grades come from a fixed registry. So a rule of one's own is
reported only where a finding would have carried its id anyway (`reports_iff`).
-/

namespace CodeAudit

open Proofs List Except Classification Classifier

/-! ## Grades come from the evidence -/

namespace Classification

/-- The fields of a finding that count as evidence. -/
def evidence : List String :=
  ["dangerous_calls", "deserialization_calls", "weak_crypto_calls", "cyclomatic_complexity", "max_nesting_depth",
   "ssrf_calls", "path_traversal_calls", "xxe_calls", "template_injection_calls", "open_redirect_calls",
   "ldap_injection_calls", "sensitive_data_involved"]

/-- A finding is graded by its evidence alone. -/
lemma gradeOf_congr (h : ∀ name ∈ evidence, r.get? name = r'.get? name) : gradeOf r = gradeOf r' := by
  have hfields : ∀ clause ∈ Clause.all, clause.field ∈ evidence := by decide
  have hrules : rulesOf r = rulesOf r' := by
    unfold rulesOf
    rw [mapM_congr fun clause hclause => Clause.rules_congr (h clause.field (hfields clause hclause))]
  unfold gradeOf
  rw [hrules]

end Classification

namespace Audit

open Action Report Proofs.Steps

variable {finding id : Value} {findings found : List Value} {host after : Host} {r : Record} {least : Option String}

/-- The evidence in a finding is of a grade. -/
def HasGrade (finding : Value) (grade : Grade) : Prop :=
  ∃ fields, finding.fields = .ok fields ∧ gradeOf fields = .ok grade

/-! ## Ids of reported findings -/

lemma part_ruleId_of_classify (h : classify finding = .ok r) :
    ∃ grade, HasGrade finding grade ∧ States r grade.severity ∧ (Value.obj r).part "rule_id" = .ok (.str grade.id) := by
  obtain ⟨fields, grade, hfields, hgrade, hcarries⟩ := exists_carries h
  refine ⟨grade, ⟨fields, hfields, hgrade⟩, hcarries.severity, ?_⟩
  change ok ((r.get? "rule_id").getD .null) = _
  rw [hcarries.rule]
  rfl

lemma sortBySeverity_perm (h : sortBySeverity descending findings = .ok sorted) : sorted.Perm findings := by
  unfold sortBySeverity at h
  obtain ⟨keyed, hkeyed, h⟩ := of_bind h
  have hkept : keyed.map (·.2) = findings := by
    rw [← map_id findings]
    refine map_eq_of_mapM hkeyed ?_
    intro finding entry hentry
    obtain ⟨key, -, hentry⟩ := of_bind hentry
    cases hentry
    rfl
  dsimp only at h
  split at h
  · cases h
  · cases h
    rw [← hkept]
    exact (mergeSort_perm keyed _).map _

lemma mem_atLeastSeverity_iff {least : String} (h : atLeastSeverity least findings = .ok kept)
    (hstates : ∀ v ∈ findings, ∃ r s, v = .obj r ∧ States r s) (hs : States r s) :
    .obj r ∈ kept ↔ .obj r ∈ findings ∧ Admits least s.word := by
  unfold atLeastSeverity at h
  rw [filterM_eq_ok] at h
  · cases h
    rw [mem_filter, hs.isAtLeast least]
    simp [Except.toOption]
  · intro v hv
    obtain ⟨r', s', rfl, hs'⟩ := hstates v hv
    exact ⟨_, hs'.isAtLeast least⟩

/-- **What is reported goes by grades.** An id is reported exactly when a finding has the grade of this id and the
threshold, if any, admits its severity. -/
lemma exists_ruleId_graded_iff (h : graded least findings = .ok found) :
    (∃ v ∈ found, v.part "rule_id" = .ok id) ↔ ∃ finding ∈ findings, ∃ grade, HasGrade finding grade ∧
      (∀ word ∈ least, Admits word grade.severity.word) ∧ id = .str grade.id := by
  unfold graded at h
  obtain ⟨classified, hclassified, h⟩ := of_bind h
  obtain ⟨sorted, hsorted, h⟩ := of_bind h
  have hsame : ∀ v, v ∈ sorted ↔ v ∈ classified.map .obj := fun v => (sortBySeverity_perm hsorted).mem_iff
  have hstates : ∀ v ∈ sorted, ∃ r s, v = .obj r ∧ States r s := by
    intro v hv
    obtain ⟨r, hr, rfl⟩ := mem_map.mp ((hsame v).mp hv)
    obtain ⟨finding, -, hclassify⟩ := exists_mem_of_mapM hclassified hr
    obtain ⟨grade, -, hs, -⟩ := part_ruleId_of_classify hclassify
    exact ⟨r, grade.severity, rfl, hs⟩
  -- Whether there is a threshold or not, it is asked only for the severity that a finding states.
  have hkept : ∀ r s, States r s → (.obj r ∈ found ↔ r ∈ classified ∧ ∀ word ∈ least, Admits word s.word) := by
    intro r s hs
    have hmem : .obj r ∈ classified.map Value.obj ↔ r ∈ classified := by simp
    cases least with
    | none =>
      cases h
      rw [hsame, hmem]
      simp
    | some word =>
      rw [mem_atLeastSeverity_iff h hstates hs, hsame, hmem]
      simp
  constructor
  · rintro ⟨v, hv, hid⟩
    have hin : v ∈ sorted := by
      cases least with
      | none => cases h; exact hv
      | some word => exact mem_of_filterM h v hv
    obtain ⟨r, hr, rfl⟩ := mem_map.mp ((hsame v).mp hin)
    obtain ⟨finding, hfinding, hclassify⟩ := exists_mem_of_mapM hclassified hr
    obtain ⟨grade, hgrade, hs, hpart⟩ := part_ruleId_of_classify hclassify
    have hadmits := ((hkept r grade.severity hs).mp hv).2
    exact ⟨finding, hfinding, grade, hgrade, hadmits, ok.inj (hid.symm.trans hpart)⟩
  · rintro ⟨finding, hfinding, grade, ⟨fields, hfields, hgrade⟩, hadmits, rfl⟩
    obtain ⟨r, hr, hclassify⟩ := exists_result_of_mapM hclassified hfinding
    obtain ⟨grade', ⟨fields', hfields', hgrade'⟩, hs, hpart⟩ := part_ruleId_of_classify hclassify
    -- A finding has one grade.
    cases ok.inj (hfields.symm.trans hfields')
    cases ok.inj (hgrade.symm.trans hgrade')
    exact ⟨.obj r, (hkept r grade.severity hs).mpr ⟨hr, hadmits⟩, hpart⟩

/-! ## Scores do not change grades -/

lemma hasGrade_scored_iff {grade} {scored : Value}
    (h : (do return Value.obj (Record.put (← finding.fields) "vuln_score" (.estimate score))) = ok (ε := Fault) scored) :
    HasGrade scored grade ↔ HasGrade finding grade := by
  obtain ⟨fields, hfields, h⟩ := of_bind h
  cases h
  have hsame : gradeOf (fields.put "vuln_score" (.estimate score)) = gradeOf fields := by
    refine gradeOf_congr ?_
    intro name hname
    rw [Record.get?_put, if_neg]
    rintro rfl
    exact absurd hname (by decide)
  constructor
  · rintro ⟨_, hput, hgrade⟩
    cases hput
    exact ⟨fields, hfields, hsame ▸ hgrade⟩
  · rintro ⟨fields', hfields', hgrade⟩
    cases ok.inj (hfields.symm.trans hfields')
    exact ⟨_, rfl, hsame.trans hgrade⟩

/-- Scoring never fails, leaves the host as it is, and no grade is changed by it. -/
lemma exists_on_scored (findings : List Value) (host : Host) :
    ∃ scored, on (Audit.scored findings) host = (.ok scored, host) ∧
      ∀ grade, (∃ v ∈ scored, HasGrade v grade) ↔ ∃ v ∈ findings, HasGrade v grade := by
  unfold Audit.scored
  rw [on_tryCatch, on_reading]
  cases hpredict : predict host.files findings standardPath with
  | error fault => exact ⟨findings, rfl, fun grade => Iff.rfl⟩
  | ok scored =>
    refine ⟨scored, rfl, ?_⟩
    intro grade
    unfold predict at hpredict
    obtain ⟨rows, -, hpredict⟩ := of_bind hpredict
    obtain ⟨features, -, hpredict⟩ := of_bind hpredict
    constructor
    · rintro ⟨v, hv, hgrade⟩
      obtain ⟨finding, hfinding, hstep⟩ := exists_mem_of_mapM hpredict hv
      exact ⟨finding, hfinding, (hasGrade_scored_iff hstep).mp hgrade⟩
    · rintro ⟨finding, hfinding, hgrade⟩
      obtain ⟨v, hv, hstep⟩ := exists_result_of_mapM hpredict hfinding
      exact ⟨v, hv, (hasGrade_scored_iff hstep).mpr hgrade⟩

/-! ## The whole scan -/

def Reports (plan : Plan) (least : Option String) (host : Host) (id : Value) : Prop :=
  ∃ found after, on (examine plan >>= (·.reported least)) host = (.ok found, after) ∧
    ∃ v ∈ found, v.part "rule_id" = .ok id

def RulesLoad (files : FileTree) (directories : List String) : Prop :=
  ∃ rules index, Rules.all false files directories = .ok rules ∧ RuleIndex.ofRules rules = .ok index

lemma on_checkRules_eq_ok_iff :
    on (checkRules directories) host = (.ok u, after) ↔ RulesLoad host.files directories ∧ after = host := by
  unfold checkRules
  rw [on_bind_eq_ok_iff]
  constructor
  · rintro ⟨rules, between, hrules, hrest⟩
    obtain ⟨index, last, hindex, hend⟩ := of_on_bind hrest
    obtain ⟨hloaded, rfl⟩ := on_reading_eq_ok_iff.mp hrules
    obtain ⟨hindexed, rfl⟩ := on_ofExcept_eq_ok_iff.mp hindex
    exact ⟨⟨rules, index, hloaded, hindexed⟩, (Prod.mk.inj hend).2.symm⟩
  · rintro ⟨⟨rules, index, hrules, hindex⟩, rfl⟩
    refine ⟨rules, after, on_reading_eq_ok_iff.mpr ⟨hrules, rfl⟩, on_bind_eq_ok_iff.mpr ⟨index, after, ?_, rfl⟩⟩
    exact on_ofExcept_eq_ok_iff.mpr ⟨hindex, rfl⟩

/-- The findings that are reported, by the grades of those that are not set aside. -/
lemma exists_ruleId_reported_iff {e : Examined} (h : on (e.reported least) host = (.ok found, after)) :
    (∃ v ∈ found, v.part "rule_id" = .ok id) ↔ ∃ finding ∈ Suppression.active e.judged, ∃ grade,
      HasGrade finding grade ∧ (∀ word ∈ least, Admits word grade.severity.word) ∧ id = .str grade.id := by
  unfold Examined.reported at h
  dsimp only at h
  -- Scored or not, the findings have the grades that they had.
  have hscored : ∃ scored, graded least scored = .ok found ∧
      ∀ grade, (∃ v ∈ scored, HasGrade v grade) ↔ ∃ v ∈ Suppression.active e.judged, HasGrade v grade := by
    split at h
    · obtain ⟨scored, between, hscore, h⟩ := of_on_bind h
      obtain ⟨scored', hon, hgrades⟩ := exists_on_scored (Suppression.active e.judged) host
      cases ok.inj (Prod.mk.inj (hon.symm.trans hscore)).1
      exact ⟨scored, (on_ofExcept_eq_ok_iff.mp h).1, hgrades⟩
    · obtain ⟨_, between, hscore, h⟩ := of_on_bind h
      cases hscore
      exact ⟨_, (on_ofExcept_eq_ok_iff.mp h).1, fun grade => Iff.rfl⟩
  obtain ⟨scored, hgraded, hgrades⟩ := hscored
  rw [exists_ruleId_graded_iff hgraded]
  constructor
  · rintro ⟨finding, hfinding, grade, hgrade, hrest⟩
    obtain ⟨finding', hfinding', hgrade'⟩ := (hgrades grade).mp ⟨finding, hfinding, hgrade⟩
    exact ⟨finding', hfinding', grade, hgrade', hrest⟩
  · rintro ⟨finding, hfinding, grade, hgrade, hrest⟩
    obtain ⟨finding', hfinding', hgrade'⟩ := (hgrades grade).mpr ⟨finding, hfinding, hgrade⟩
    exact ⟨finding', hfinding', grade, hgrade', hrest⟩

/-- **A rule of one's own has no effect but that it can be loaded.** A scan reports a finding under an id exactly when
the rules can be loaded and indexed, the scan gets through, and a finding that is not set aside has the grade of this
id, one of the registry, with a severity that the threshold admits. What the rules look for is asked nowhere. -/
theorem reports_iff (plan : Plan) (least : Option String) (host : Host) (id : Value) :
    Reports plan least host id ↔ RulesLoad host.files plan.rules ∧
      ∃ e between found after, on (examineProject plan.path plan.profile plan.baseline) host = (.ok e, between) ∧
        on (e.reported least) between = (.ok found, after) ∧
        ∃ grade ∈ Grade.unknown :: Grade.registry, id = .str grade.id ∧
          (∀ word ∈ least, Admits word grade.severity.word) ∧
          ∃ finding ∈ Suppression.active e.judged, HasGrade finding grade := by
  unfold Reports examine
  constructor
  · rintro ⟨found, after, h, hid⟩
    obtain ⟨e, between, hwhole, hreported⟩ := on_bind_eq_ok_iff.mp h
    obtain ⟨_, start, hrules, hexamine⟩ := on_bind_eq_ok_iff.mp hwhole
    obtain ⟨hload, rfl⟩ := on_checkRules_eq_ok_iff.mp hrules
    obtain ⟨finding, hfinding, grade, hgrade, hadmits, hsame⟩ := (exists_ruleId_reported_iff hreported).mp hid
    have ⟨fields, _, hgradeOf⟩ := hgrade
    exact ⟨hload, e, between, found, after, hexamine, hreported, grade,
      mem_registry_of_gradeOf hgradeOf, hsame, hadmits, finding, hfinding, hgrade⟩
  · rintro ⟨hload, e, between, found, after, hexamine, hreported, grade, -, hid, hadmits, finding, hfinding, hgrade⟩
    refine ⟨found, after, on_bind_eq_ok_iff.mpr ⟨e, between, on_bind_eq_ok_iff.mpr ⟨(), host, ?_, hexamine⟩,
      hreported⟩, ?_⟩
    · exact on_checkRules_eq_ok_iff.mpr ⟨hload, rfl⟩
    · exact (exists_ruleId_reported_iff hreported).mpr ⟨finding, hfinding, grade, hgrade, hadmits, hid⟩

end Audit

end CodeAudit

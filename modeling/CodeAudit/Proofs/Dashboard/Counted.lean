import CodeAudit.Proofs.Dashboard.Consistency
import CodeAudit.Proofs.Report.SeverityAgreement

/-!
# Which findings a scan counts

A finding goes into one of four counts if its severity is exactly the word of that count. The JSON report writes those
words; the classifier writes them with a capital, so none of its findings is counted.
-/

namespace CodeAudit

open Proofs List Value SeverityCounts

variable (c : SeverityCounts) (severities : List Value)

/-- The findings that were counted under some severity. -/
def SeverityCounts.sum (c : SeverityCounts) : Nat := c.critical + c.high + c.medium + c.low

/-- Whether a severity goes into one of the counts. -/
def Value.isCounted (severity : Value) : Bool := severity.isWordOf ["critical", "high", "medium", "low"]

lemma SeverityCounts.sum_add (v : Value) : (c.add v).sum = c.sum + v.isCounted.toNat := by
  unfold add
  split
  -- Each of the four words raises one count, and anything else none.
  any_goals
    change _ = c.sum + 1
    unfold sum
    dsimp only
    omega
  next hcritical hhigh hmedium hlow =>
    have hother : v.isCounted = false := by
      cases v with
      | str word => simp_all [isCounted, isWordOf]
      | _ => rfl
    rw [hother]
    rfl

lemma SeverityCounts.sum_foldl : (severities.foldl add c).sum = c.sum + severities.countP isCounted := by
  induction severities generalizing c with
  | nil => rfl
  | cons v severities ih =>
    rw [foldl_cons, ih, sum_add, countP_cons]
    cases v.isCounted with
    | true => exact add_right_comm _ _ _
    | false => rfl

namespace Store

/-- Whether a finding of a report goes into one of the counts. -/
def isCounted (finding : Value) : Bool := ((finding.part "severity" (.str "low")).toOption.map Value.isCounted).getD false

lemma sum_countsOf {findings : List Value} (h : countsOf findings = .ok counts) :
    counts.sum = findings.countP isCounted := by
  obtain ⟨severities, hseverities, hcounts⟩ := of_bind h
  cases hcounts
  have hmap : severities.map Value.isCounted = findings.map isCounted := map_eq_of_mapM hseverities fun finding v hv => by
    unfold isCounted
    rw [severityOf_eq_ok hv]
    rfl
  rw [SeverityCounts.sum_foldl, countP_eq_of_map_eq hmap]
  exact Nat.zero_add _

/-- The classifier's words are not those of the counts. -/
lemma not_isCounted_of_classify (h : Classification.classify finding = .ok r) : isCounted (.obj r) = false := by
  obtain ⟨fields, grade, combined, -, -, rfl⟩ := Report.exists_graded_of_classify h
  have hstates : (Report.graded fields grade combined).get? "severity" = some (.str grade.severity.word) :=
    Report.states_graded fields grade combined
  have hpart : (Value.obj (Report.graded fields grade combined)).part "severity" (.str "low") =
      .ok (.str grade.severity.word) := by
    change Except.ok (Record.getD _ _ _) = _
    unfold Record.getD
    rw [hstates]
    rfl
  unfold isCounted
  rw [hpart]
  cases grade.severity <;> decide

/-- The words of the JSON report are. -/
lemma isCounted_toRecord (e : JsonReport.Entry) : isCounted (.obj e.toRecord) := by
  have hpart : (Value.obj e.toRecord).part "severity" (.str "low") = .ok (.str e.level.word) := rfl
  unfold isCounted
  rw [hpart]
  cases e.level <;> decide

/-- **A scan counts what has one of its four words.** The counts of a stored scan cover its findings exactly if each
states one of those words, or no severity; so they cover what the JSON report writes, and nothing of what the classifier
does. -/
theorem counts_cover_iff {s : Store} {stamp : Stamp} {report : ScanReport} {scan : StoredScan}
    (h : (s.create stamp report).1 = .ok scan) :
    ∃ findings, report.findings.elements = .ok findings ∧ scan ∈ (s.create stamp report).2.scans ∧
      scan.total = findings.length ∧ scan.counts.sum = findings.countP isCounted ∧
      (scan.counts.sum = scan.total ↔ ∀ f ∈ findings, isCounted f = true) ∧
      ((∀ f ∈ findings, ∃ e : JsonReport.Entry, f = .obj e.toRecord) → scan.counts.sum = scan.total) ∧
      ((∀ f ∈ findings, ∃ g r, Classification.classify g = .ok r ∧ f = .obj r) → scan.counts.sum = 0) := by
  rcases create_cases s stamp report with ⟨fault, hfailed⟩ | ⟨made, rows, hrows, -, hmade⟩
  · rw [hfailed] at h
    cases h
  rw [hmade] at h ⊢
  cases h
  obtain ⟨findings, hfindings, hrows⟩ := bind_eq_ok_iff.mp hrows
  obtain ⟨counts, hcounts, hrows⟩ := bind_eq_ok_iff.mp hrows
  obtain ⟨scan', hscan, hrows⟩ := bind_eq_ok_iff.mp hrows
  obtain ⟨rows', -, hrows⟩ := bind_eq_ok_iff.mp hrows
  cases hrows
  obtain ⟨-, htotal, rfl⟩ := scanOf_eq_ok hscan
  have hsum := sum_countsOf hcounts
  have hall : scan.counts.sum = scan.total ↔ ∀ f ∈ findings, isCounted f = true := by
    rw [hsum, htotal, countP_eq_length]
  refine ⟨findings, hfindings, mem_append_right _ (mem_singleton_self _), htotal, hsum, hall, ?_, ?_⟩
  · intro hentries
    refine hall.mpr fun f hf => ?_
    obtain ⟨e, rfl⟩ := hentries f hf
    exact isCounted_toRecord e
  · intro hclassified
    rw [hsum, countP_eq_zero]
    intro f hf
    obtain ⟨g, r, hr, rfl⟩ := hclassified f hf
    rw [not_isCounted_of_classify hr]
    exact Bool.false_ne_true

def classifiedReport : ScanReport := { path := .str "p", findings := .list [.obj [("severity", .str "High")]] }

theorem classifiedReport_not_covered :
    ∃ scan, (({} : Store).create ⟨"a", "t"⟩ classifiedReport).1 = .ok scan ∧ scan.total = 1 ∧ scan.counts.sum = 0 := by
  have hmade : (({} : Store).create ⟨"a", "t"⟩ classifiedReport).1.isOk = true := by decide +kernel
  obtain ⟨scan, hscan⟩ := isOk_iff.mp hmade
  obtain ⟨findings, hfindings, -, htotal, hsum, -⟩ := counts_cover_iff hscan
  cases hfindings
  exact ⟨scan, hscan, htotal, hsum⟩

end Store

end CodeAudit

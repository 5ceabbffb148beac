import CodeAudit.Dashboard.Store
import CodeAudit.Proofs.Steps

/-!
# A report is stored whole or not at all

The rows of a report are written one after the other, and any can be refused. By then earlier rows are there for the
connection, but for no one else: every statement before the commit writes to the connection's own view
(`keeps_insertScan`, `keeps_insertFinding`), and the commit cannot fail. By `create_cases` making a scan has failed and
the store is what it was, or no scan had its identifier before and all rows have been added.
-/

namespace CodeAudit.Store

open Proofs Proofs.Steps List Connection Transaction

variable {α : Type} {c d : Connection} {stamp : Stamp} {report : ScanReport} {s : Store}

/-! ## Statements -/

variable (result : Except Fault α)

lemma on_ofExcept (c : Connection) : on (ofExcept result) c = (result, c) := by
  cases result <;> rfl

lemma on_ofExcept_eq_ok {result : Except Fault α} {a : α}
    (h : on (ofExcept result) c = (.ok a, d)) : result = .ok a ∧ c = d := by
  rw [on_ofExcept] at h
  exact Prod.mk.inj h

variable (change : Store → Store)

lemma on_write (c : Connection) : on (write change) c = (.ok (), { c with working := change c.working }) := rfl

lemma on_commit (c : Connection) : on commit c = (.ok (), { c with committed := c.working }) := rfl

lemma keeps_ofExcept : Keeps committed (ofExcept result) := by
  intro c
  rw [on_ofExcept]

lemma keeps_view : Keeps committed view := fun _ => rfl

lemma keeps_write : Keeps committed (write change) := fun _ => rfl

lemma keeps_insertScan (stamp : Stamp) (report : ScanReport) (total : Nat) (counts : SeverityCounts) :
    Keeps committed (insertScan stamp report total counts) := by
  refine (keeps_ofExcept _).bind fun scan => keeps_view.bind fun s => ?_
  dsimp only
  split
  · exact fun _ => rfl
  · exact (keeps_write _).bind fun _ => Keeps.pure scan

lemma keeps_insertFinding (scan : String) (finding : Value × Nat) : Keeps committed (insertFinding scan finding) :=
  keeps_view.bind fun _ => (keeps_ofExcept _).bind fun _ => keeps_write _

/-! ## The rows of a report -/

/-- The stored forms of a report, where so many findings have been numbered before. -/
def rowsOf (stamp : Stamp) (numbered : Nat) (report : ScanReport) : Except Fault (StoredScan × List StoredFinding) := do
  let findings ← report.findings.elements
  let counts ← countsOf findings
  let scan ← scanOf stamp report findings.length counts
  let rows ← findings.zipIdx.mapM fun (finding, i) => findingOf scan.id (numbered + i + 1) i finding
  return (scan, rows)

def Connection.withFindings (c : Connection) (rows : List StoredFinding) : Connection :=
  { c with working := { c.working with findings := c.working.findings ++ rows
                                       numbered := c.working.numbered + rows.length } }

lemma insertFinding_eq_ok {scan : String} {finding : Value × Nat} {u : Unit}
    (h : on (insertFinding scan finding) c = (.ok u, d)) :
    ∃ row, findingOf scan (c.working.numbered + 1) finding.2 finding.1 = .ok row ∧ d = c.withFindings [row] := by
  obtain ⟨s, between, hview, h⟩ := of_on_bind h
  cases hview
  obtain ⟨row, between', hwritten, h⟩ := of_on_bind h
  obtain ⟨hrow, rfl⟩ := on_ofExcept_eq_ok hwritten
  rw [on_write] at h
  cases h
  exact ⟨row, hrow, rfl⟩

lemma forM_insertFinding_eq_ok {scan : String} {numbered k : Nat} {findings : List Value} {u : Unit}
    (hnumbered : c.working.numbered = numbered + k)
    (h : on ((findings.zipIdx k).forM (insertFinding scan)) c = (.ok u, d)) :
    ∃ rows, (findings.zipIdx k).mapM (fun entry => findingOf scan (numbered + entry.2 + 1) entry.2 entry.1) = .ok rows ∧
      d = c.withFindings rows := by
  induction findings generalizing k c with
  | nil =>
    cases h
    refine ⟨[], rfl, ?_⟩
    simp [withFindings]
  | cons finding findings ih =>
    obtain ⟨_, between, hfirst, hrest⟩ := of_on_bind h
    obtain ⟨row, hrow, rfl⟩ := insertFinding_eq_ok hfirst
    rw [hnumbered] at hrow
    have hnext : (c.withFindings [row]).working.numbered = numbered + (k + 1) := by
      change c.working.numbered + 1 = _
      omega
    obtain ⟨rows, hrows, rfl⟩ := ih hnext hrest
    refine ⟨row :: rows, ?_, ?_⟩
    · rw [zipIdx_cons, mapM_cons, hrow, ok_bind, hrows, ok_bind, pure_eq_ok]
    · have hcount : c.working.numbered + [row].length + rows.length = c.working.numbered + (row :: rows).length := by
        simp only [length_cons, length_nil]
        omega
      simp only [withFindings, hcount, append_assoc, singleton_append]

lemma insertScan_eq_ok {total : Nat} {counts : SeverityCounts} {scan : StoredScan}
    (h : on (insertScan stamp report total counts) c = (.ok scan, d)) :
    scanOf stamp report total counts = .ok scan ∧ (∀ old ∈ c.working.scans, old.id ≠ scan.id) ∧
      d = { c with working := { c.working with scans := c.working.scans ++ [scan] } } := by
  obtain ⟨scan', between, hformed, h⟩ := of_on_bind h
  obtain ⟨hscan, rfl⟩ := on_ofExcept_eq_ok hformed
  obtain ⟨s, between', hview, h⟩ := of_on_bind h
  cases hview
  dsimp only at h
  split at h
  · cases h
  · next hnew =>
    obtain ⟨_, between'', hwrite, h⟩ := of_on_bind h
    rw [on_write] at hwrite
    cases hwrite
    cases h
    refine ⟨hscan, fun old hold hsame => hnew ?_, rfl⟩
    exact any_eq_true.mpr ⟨old, hold, beq_iff_eq.mpr hsame⟩

/-! ## Making a scan -/

/-- A report that is stored has a new identifier and all its rows, and they have been committed. -/
lemma insertReport_eq_ok {scan : StoredScan}
    (h : on (insertReport stamp report) { committed := s, working := s } = (.ok scan, d)) :
    ∃ rows, rowsOf stamp s.numbered report = .ok (scan, rows) ∧ (∀ old ∈ s.scans, old.id ≠ scan.id) ∧
      d.committed = { s with scans := s.scans ++ [scan], findings := s.findings ++ rows
                             numbered := s.numbered + rows.length } := by
  obtain ⟨findings, _, hlisted, h⟩ := of_on_bind h
  obtain ⟨hfindings, rfl⟩ := on_ofExcept_eq_ok hlisted
  obtain ⟨counts, _, hcounted, h⟩ := of_on_bind h
  obtain ⟨hcounts, rfl⟩ := on_ofExcept_eq_ok hcounted
  obtain ⟨scan', _, hinserted, h⟩ := of_on_bind h
  obtain ⟨hscan, hnew, rfl⟩ := insertScan_eq_ok hinserted
  obtain ⟨_, _, hloop, h⟩ := of_on_bind h
  have hnumbered : s.numbered = s.numbered + 0 := rfl
  obtain ⟨rows, hrows, rfl⟩ := forM_insertFinding_eq_ok hnumbered hloop
  obtain ⟨_, _, hcommit, h⟩ := of_on_bind h
  rw [on_commit] at hcommit
  cases hcommit
  cases h
  refine ⟨rows, ?_, hnew, rfl⟩
  unfold rowsOf
  rw [hfindings, ok_bind, hcounts, ok_bind, hscan, ok_bind, hrows, ok_bind, pure_eq_ok]

/-- A report that is refused has committed nothing, whichever of its rows it was refused for. -/
lemma insertReport_eq_error {fault : Fault}
    (h : on (insertReport stamp report) c = (.error fault, d)) : d.committed = c.committed := by
  -- All statements but the last two are known to leave the committed store alone; those two cannot fail.
  have hrows : ∀ findings counts, Keeps committed (do
      let scan ← insertScan stamp report (findings : List Value).length counts
      findings.zipIdx.forM (insertFinding scan.id)) := fun findings counts =>
    (keeps_insertScan stamp report findings.length counts).bind fun scan =>
      Keeps.forM fun finding _ => keeps_insertFinding scan.id finding
  rcases on_bind_eq_error_iff.mp h with h | ⟨findings, _, hlisted, h⟩
  · rw [on_ofExcept] at h
    rw [(Prod.mk.inj h).2]
  obtain ⟨-, rfl⟩ := on_ofExcept_eq_ok hlisted
  rcases on_bind_eq_error_iff.mp h with h | ⟨counts, _, hcounted, h⟩
  · rw [on_ofExcept] at h
    rw [(Prod.mk.inj h).2]
  obtain ⟨-, rfl⟩ := on_ofExcept_eq_ok hcounted
  rcases on_bind_eq_error_iff.mp h with h | ⟨scan, between, hscan, h⟩
  · have hkept := keeps_insertScan stamp report findings.length counts c
    rw [h] at hkept
    exact hkept
  rcases on_bind_eq_error_iff.mp h with h | ⟨_, _, _, h⟩
  · have hkept := hrows findings counts c
    rw [on_bind_of_ok hscan, h] at hkept
    exact hkept
  · rcases on_bind_eq_error_iff.mp h with h | ⟨_, _, _, h⟩
    · cases h
    · cases h

/-- What making a scan does: it fails and the store is what it was, or the scan is new and all rows of the report are
added. -/
lemma create_cases (s : Store) (stamp : Stamp) (report : ScanReport) :
    (∃ fault, s.create stamp report = (.error fault, s)) ∨
      ∃ scan rows, rowsOf stamp s.numbered report = .ok (scan, rows) ∧ (∀ old ∈ s.scans, old.id ≠ scan.id) ∧
        s.create stamp report = (.ok scan, { s with scans := s.scans ++ [scan], findings := s.findings ++ rows
                                                    numbered := s.numbered + rows.length }) := by
  have hrun : s.create stamp report = ((on (insertReport stamp report) { committed := s, working := s }).1,
       (on (insertReport stamp report) { committed := s, working := s }).2.committed) := rfl
  rcases hreport : on (insertReport stamp report) { committed := s, working := s } with ⟨result, d⟩
  rw [hreport] at hrun
  cases result with
  | error fault =>
    refine .inl ⟨fault, ?_⟩
    rw [hrun, insertReport_eq_error hreport]
  | ok scan =>
    obtain ⟨rows, hrows, hnew, hcommitted⟩ := insertReport_eq_ok hreport
    refine .inr ⟨scan, rows, hrows, hnew, ?_⟩
    rw [hrun, hcommitted]

lemma create_of_not_isOk (h : (s.create stamp report).1.isOk = false) : (s.create stamp report).2 = s := by
  rcases create_cases s stamp report with ⟨fault, hfailed⟩ | ⟨scan, rows, -, -, hmade⟩
  · rw [hfailed]
  · rw [hmade] at h
    cases h

/-! ## What can be seen of a failed attempt -/

/-- Two stores answer every question alike. -/
structure SameAnswers (s t : Store) : Prop where
  scan : ∀ id, s.scan? id = t.scan? id
  scans : ∀ number size, s.scanPage number size = t.scanPage number size
  findings : ∀ scan filter number size, s.findingPage scan filter number size = t.findingPage scan filter number size
  statistics : s.statistics = t.statistics

lemma sameAnswers_of_rows (hscans : s.scans = t.scans) (hfindings : s.findings = t.findings) : SameAnswers s t := by
  refine ⟨fun id => ?_, fun number size => ?_, fun scan filter number size => ?_, ?_⟩
  · unfold scan?
    rw [hscans]
  · unfold scanPage
    rw [hscans]
  · unfold findingPage matching
    rw [hfindings]
  · unfold statistics
    rw [hscans, hfindings]

/-- Something asked of the store that can change it; a scan comes with the stamp that it is given. -/
inductive Call where
  | create (stamp : Stamp) (report : ScanReport)
  | delete (id : Value)

def Call.on (s : Store) : Call → Store
  | .create stamp report => (s.create stamp report).2
  | .delete id => (s.delete id).2

def after (calls : List Call) : Store := calls.foldl Call.on {}

/-- **A report that is refused leaves no trace.** Whatever calls come before and after, every answer is the one had the
report never been sent. -/
theorem sameAnswers_of_refused (earlier : List Call) :
    (∀ later stamp report, ((after earlier).create stamp report).1.isOk = false →
        SameAnswers (after (earlier ++ .create stamp report :: later)) (after (earlier ++ later))) ∧
      ∀ stamp report, ((after earlier).create stamp report).1.isOk = false →
        SameAnswers ((after earlier).create stamp report).2 (after earlier) := by
  constructor
  · intro later stamp report hrefused
    have hcall : Call.on (after earlier) (.create stamp report) = after earlier := create_of_not_isOk hrefused
    have hsame : after (earlier ++ .create stamp report :: later) = after (earlier ++ later) := by
      unfold after at hcall ⊢
      rw [foldl_append, foldl_append, foldl_cons, hcall]
    rw [hsame]
    exact sameAnswers_of_rows rfl rfl
  · intro stamp report hrefused
    rw [create_of_not_isOk hrefused]
    exact sameAnswers_of_rows rfl rfl

def untypedReport : ScanReport :=
  { path := .str "r", findings := .list [.obj [("severity", .str "high")], .obj [("type", .null)], .obj []] }

/-- A scan is there, a report is refused at its second finding when two rows are written, and others follow. -/
theorem sameAnswers_of_untypedReport :
    let earlier := [Call.create ⟨"a", "t1"⟩ { path := .str "p", findings := .list [.obj []] }]
    let later := [Call.create ⟨"c", "t3"⟩ { path := .str "q", findings := .list [.obj [], .obj []] }, .delete (.str "a")]
    ((after earlier).create ⟨"b", "t2"⟩ untypedReport).1.isOk = false ∧
      (after (earlier ++ .create ⟨"b", "t2"⟩ untypedReport :: later)).findings.map (·.id) = [2, 3] ∧
      SameAnswers (after (earlier ++ .create ⟨"b", "t2"⟩ untypedReport :: later)) (after (earlier ++ later)) ∧
      SameAnswers ((after earlier).create ⟨"b", "t2"⟩ untypedReport).2 (after earlier) := by
  refine ⟨by decide +kernel, by decide +kernel, ?_, ?_⟩
  · exact (sameAnswers_of_refused _).1 _ ⟨"b", "t2"⟩ untypedReport (by decide +kernel)
  · exact (sameAnswers_of_refused _).2 ⟨"b", "t2"⟩ untypedReport (by decide +kernel)

end CodeAudit.Store

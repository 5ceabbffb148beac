import CodeAudit.Proofs.Baseline.Reloaded

/-!
# What the JSON report accounts for

A reader of the report finds an entry for each finding in order, under an id of its own. The summary counts the
entries, and counts them by the severity that they state: what a finding brings along never overwrites its id or
severity.
-/

namespace CodeAudit.JsonReport

open CodeAudit.Proofs Json Baseline List Record

variable {findings : List Value} {entries : List Entry} {e : Entry} {number : Nat} {f : Value}

lemma id_inj {e' : Entry} (h : e.id = e'.id) : e.number = e'.number := by
  have htext := congrArg String.toList h
  unfold Entry.id at htext
  rw [String.toList_append, String.toList_append, append_cancel_left_eq] at htext
  rw [← digitsValue_zeroPadded 4 e.number, ← digitsValue_zeroPadded 4 e'.number, htext]

/-- A reader finds an entry with its number in the id, the type of the finding, and the severity that it is given. -/
structure Enters (number : Nat) (finding shown : Value) : Prop where
  id : shown.need "id" = .ok (.str ("VP-" ++ Text.zeroPadded 4 (number : Int)))
  given : ∃ fields level, finding.fields = .ok fields ∧ levelOf fields = .ok level ∧
    shown.need "type" = .ok (carried (fields.getD "type" (.str "unknown"))) ∧
    shown.need "severity" = .ok (.str level.word)

lemma carried_word (level : Level) : carried (.str level.word) = .str level.word := by
  refine carried_of_isEncodable ?_
  cases level <;> decide

lemma enters_of_entry (h : entry number f = .ok e) : Enters number f (carried (.obj e.toRecord)) ∧
      (carried (.obj e.toRecord)).need "severity" = .ok (.str e.level.word) := by
  obtain ⟨rfl, g, hfields, hlevel, htold⟩ := get?_toRecord h
  have hneed : ∀ name ∈ identifying, ∀ v, get? e.toRecord.reverse name = some v →
      (carried (.obj e.toRecord)).need name = .ok (carried v) := by
    intro name hname v hv
    have hplain : ∀ name ∈ identifying, name.toList.all isPlain := by decide
    exact need_carried (arePlain_of_all (hplain name hname)) hv
  have hid := hneed "id" (by decide) (.str e.id) (by
    rw [htold _ (by decide)]
    simp [get?_given])
  have htype := hneed "type" (by decide) (reportType g) (by
    rw [htold _ (by decide)]
    simp [get?_given])
  have hseverity := hneed "severity" (by decide) (.str e.level.word) (by
    rw [htold _ (by decide)]
    simp [get?_given])
  rw [carried_word] at hseverity
  rw [carried_of_isEncodable (isEncodable_id e)] at hid
  exact ⟨⟨hid, g, e.level, hfields, hlevel, htype, hseverity⟩, hseverity⟩

def states (level : Level) (shown : Value) : Bool :=
  match shown.need "severity" with
  | .ok (.str word) => word == level.word
  | _ => false

lemma states_of_entry (h : entry number f = .ok e) (level : Level) :
    states level (carried (.obj e.toRecord)) = decide (e.level = level) := by
  unfold states
  rw [(enters_of_entry h).2]
  cases e.level <;> cases level <;> decide

lemma pairwise_number (h : entriesFrom 1 findings = .ok entries) : (entries.map (·.number)).Nodup := by
  rw [entriesFrom_eq_mapM] at h
  have hnumbers : entries.map (·.number) = (findings.zipIdx 1).map (·.2) :=
    map_eq_of_mapM h fun f e he => (get?_toRecord he).1
  rw [hnumbers, zipIdx_map_snd]
  exact nodup_range'

lemma countOf_eq (h : entriesFrom 1 findings = .ok entries) (level : Level) :
    countOf level entries = (entries.map fun e => carried (.obj e.toRecord)).countP (states level) := by
  rw [entriesFrom_eq_mapM] at h
  unfold countOf
  rw [countP_map, ← countP_eq_length_filter]
  refine countP_congr fun e he => ?_
  obtain ⟨f, -, hentry⟩ := exists_mem_of_mapM h he
  rw [Function.comp_apply, states_of_entry hentry]

lemma sum_countOf (entries : List Entry) :
    countOf .high entries + countOf .medium entries + countOf .low entries = entries.length := by
  induction entries with
  | nil => rfl
  | cons e entries ih =>
    unfold countOf at ih ⊢
    rw [length_cons, ← ih]
    cases hlevel : e.level <;> simp [hlevel] <;> omega

/-- **The JSON report accounts for every finding.** A reader of a report finds one entry for each finding, in order and
with different ids; the total is the number of entries, the count under each severity that of the entries that state it,
and the three counts add up to the total. -/
theorem accounts_of_write {facts : Report.Facts} {compact : Bool} {text : String}
    (h : write facts findings compact = .ok text) :
    ∃ report shown summary, read text = .ok report ∧ report.need "findings" = .ok (.list shown) ∧
      Forall₂ (fun f v => Enters f.2 f.1 v) (findings.zipIdx 1) shown ∧
      (∃ ids : List String, shown.mapM (·.need "id") = .ok (ids.map .str) ∧ ids.Nodup) ∧
      report.need "summary" = .ok summary ∧ summary.need "total_findings" = .ok (.nat shown.length) ∧
      summary.need "by_severity" = .ok (.obj ([Level.high, .medium, .low].map fun level =>
        (level.word, .nat (shown.countP (states level))))) ∧
      shown.countP (states .high) + shown.countP (states .medium) + shown.countP (states .low) = shown.length := by
  obtain ⟨d, hd, hwritten⟩ := bind_eq_ok_iff.mp h
  obtain ⟨entries, hentries, hd⟩ := bind_eq_ok_iff.mp hd
  obtain ⟨metadata, -, hd⟩ := bind_eq_ok_iff.mp hd
  have hsound : (if compact then Layout.compact else .pretty).IsSound := by
    cases compact with
    | true => exact Layout.isSound_compact
    | false => exact Layout.isSound_pretty
  have hread := read_of_writeWithin hsound hwritten
  cases hd
  have hpairs : Forall₂ (fun f e => entry f.2 f.1 = .ok e) (findings.zipIdx 1) entries := by
    rw [← mapM_eq_ok_iff, ← entriesFrom_eq_mapM, hentries]
  have hfrom : ∀ e ∈ entries, ∃ f ∈ findings.zipIdx 1, entry f.2 f.1 = .ok e := fun e he => exists_mem_of_forall₂ hpairs he
  refine ⟨_, entries.map fun e => carried (.obj e.toRecord), _, hread, ?_, ?_, ⟨entries.map (·.id), ?_, ?_⟩,
    need_carried (arePlain_of_all (by decide)) rfl, ?_, ?_, ?_⟩
  · rw [need_carried (arePlain_of_all (by decide)) rfl]
    simp only [carried, carriedAll_eq_map, map_map]
    rfl
  · rw [forall₂_map_right_iff]
    exact hpairs.imp fun f e he => (enters_of_entry he).1
  · rw [mapM_eq_ok_iff, map_map, forall₂_map_left_iff, forall₂_map_right_iff, forall₂_same]
    intro e he
    obtain ⟨f, -, hentry⟩ := hfrom e he
    rw [(enters_of_entry hentry).1.id, ← (get?_toRecord hentry).1]
    rfl
  · have hnumbers := pairwise_number hentries
    rw [Nodup, pairwise_map] at hnumbers ⊢
    exact hnumbers.imp fun hne heq => hne (id_inj heq)
  · rw [need_carried (arePlain_of_all (by decide)) rfl, length_map]
    rfl
  · rw [need_carried (arePlain_of_all (by decide)) rfl]
    simp only [← countOf_eq hentries]
    exact congrArg Except.ok (carried_of_isData _ rfl)
  · rw [← countOf_eq hentries, ← countOf_eq hentries, ← countOf_eq hentries, sum_countOf, length_map]

/-- A secret and a finding of no type are entered apart. -/
theorem accounts_of_twoFindings : ∃ text report first second,
    write bareFacts [.obj escapedFinding, .obj []] true = .ok text ∧ read text = .ok report ∧
      report.need "findings" = .ok (.list [first, second]) ∧ Enters 1 (.obj escapedFinding) first ∧
      Enters 2 (.obj []) second := by
  obtain ⟨text, htext⟩ : ∃ text, write bareFacts [.obj escapedFinding, .obj []] true = .ok text :=
    ⟨_, bind_eq_ok_iff.mpr ⟨_, rfl, writeWithin_eq_ok_iff.mpr ⟨⟨by decide, by decide +kernel⟩, rfl⟩⟩⟩
  obtain ⟨report, shown, summary, hread, hshown, hpairs, -⟩ := accounts_of_write htext
  cases hpairs with
  | cons hfirst hrest =>
    cases hrest with
    | cons hsecond hend =>
      cases hend
      exact ⟨text, report, _, _, htext, hread, hshown, hfirst, hsecond⟩

end CodeAudit.JsonReport

import Mathlib.Data.List.Perm.Basic
import CodeAudit.Proofs.Outcome
import CodeAudit.Proofs.Record
import CodeAudit.Suppression.Apply

/-!
# Suppression parts the findings

Setting findings aside loses none, doubles none and changes none but for the reason that it writes down, the first that
applies in the order ignored file, marked line, marked rule, baseline. `Applies` says when a reason applies, each by
itself; the order comes in only through `IsFirst`, so that the theorem compares the judgement with four conditions that
know nothing of each other.
-/

namespace CodeAudit.Suppression

open Proofs List Bool Value Except Baseline

variable {options : Options} {files : FileTree}

variable {finding : Record} {baseline : Value} {entries : List Value} {known : Known}
  {reason : Reason} {found : Bool} {findings : List Record} {judged : List Judged} {j : Judged}

/-! ## When a reason applies -/

def fileOf (finding : Record) : Value := finding.getD "file" (.str "")

def lineOf (finding : Record) : Value := finding.getD "line" .null

/-- The marks of the file in which a finding lies. -/
def HasMarks (options : Options) (files : FileTree) (finding : Record) (marks : InlineMarks) : Prop :=
  (fileOf finding).truthy ∧
    ∃ path, fullPath options.root (fileOf finding) = .ok path ∧ InlineMarks.ofFile files path = .ok marks

/-- When a reason applies to a finding. -/
def Applies (options : Options) (files : FileTree) (finding : Record) : Reason → Prop
  | .ignoredFile => (fileOf finding).truthy ∧
      IgnoreFile.matchedBy options.patterns (fileOf finding) options.root files.home = .ok true
  | .markedLine => ∃ marks, HasMarks options files finding marks ∧ ∃ n ∈ marks.lines, (lineOf finding).same (.nat n)
  | .markedRule => ∃ marks, HasMarks options files finding marks ∧
      ∃ entry ∈ marks.rules, (lineOf finding).same (.nat entry.1) ∧
        ∃ rule, ruleOf finding = .str rule ∧ Text.upper rule ∈ entry.2
  | .knownBefore => ∃ baseline, options.baseline = some baseline ∧
      split baseline [.obj finding] = .ok ([], [.obj finding])

/-- The place of a reason in the order in which reasons count. -/
def Reason.rank : Reason → Nat
  | .ignoredFile => 0
  | .markedLine => 1
  | .markedRule => 2
  | .knownBefore => 3

/-- A reason is the first that applies. -/
def IsFirst (options : Options) (files : FileTree) (finding : Record) (reason : Reason) : Prop :=
  Applies options files finding reason ∧
    ∀ other : Reason, other.rank < reason.rank → ¬ Applies options files finding other

def unmarked : Value → Value
  | .obj finding => .obj (Record.erase finding "suppression_reason")
  | v => v

/-! ## The reasons that a project gives -/

lemma HasMarks.unique (ha : HasMarks options files finding a) (hb : HasMarks options files finding b) : a = b := by
  obtain ⟨-, path, hpath, hmarks⟩ := ha
  obtain ⟨-, path', hpath', hmarks'⟩ := hb
  rw [hpath] at hpath'
  cases hpath'
  rw [hmarks] at hmarks'
  exact ok.inj hmarks'

lemma null_not_same (n : Nat) : ¬ (null.same (.nat n)) := by
  simp [same, nat, number?]

/-- What the marks of a file say about a line: they name the line, or the rule on the line, or neither. -/
lemma inlineReason?_cases {marks : InlineMarks} {line : Value} {rule : String} {reason : Option Reason}
    (h : inlineReason? marks line rule = .ok reason) :
    let onLine := ∃ n ∈ marks.lines, line.same (.nat n)
    let onRule := ∃ entry ∈ marks.rules, line.same (.nat entry.1) ∧ rule ∈ entry.2
    (onLine ∧ reason = some .markedLine) ∨ (¬ onLine ∧ onRule ∧ reason = some .markedRule) ∨
      (¬ onLine ∧ ¬ onRule ∧ reason = none) := by
  have hhash : line.hashable := by
    by_contra hash
    rw [not_eq_true] at hash
    simp [inlineReason?, hash] at h
  simp only [inlineReason?, hhash, Bool.not_true, Bool.false_eq_true, if_false] at h
  by_cases hline : ∃ n ∈ marks.lines, line.same (.nat n)
  · have hany : (marks.lines.any fun n => line.same (.nat n)) := any_eq_true.mpr hline
    rw [if_pos hany] at h
    exact .inl ⟨hline, (ok.inj h).symm⟩
  · have hany : ¬ (marks.lines.any fun n => line.same (.nat n)) := by
      rwa [any_eq_true]
    rw [if_neg hany] at h
    by_cases hrule : ∃ entry ∈ marks.rules, line.same (.nat entry.1) ∧ rule ∈ entry.2
    · have hoff : (marks.rules.any fun entry => line.same (.nat entry.1) && entry.2.contains rule) := by
        simpa only [any_eq_true, and_eq_true, contains_iff_mem] using hrule
      rw [if_pos hoff] at h
      exact .inr (.inl ⟨hline, hrule, (ok.inj h).symm⟩)
    · have hoff : ¬ (marks.rules.any fun entry => line.same (.nat entry.1) && entry.2.contains rule) := by
        simpa only [any_eq_true, and_eq_true, contains_iff_mem] using hrule
      rw [if_neg hoff] at h
      exact .inr (.inr ⟨hline, hrule, (ok.inj h).symm⟩)

/-- How a project judges a finding: an ignored file is a reason, and the marks of the file decide where it names a line.
-/
lemma reason?_cases {reason : Option Reason} (h : reason? options files finding = .ok reason) :
    ∃ rule, ruleOf finding = .str rule ∧ ((¬ (fileOf finding).truthy ∧ reason = none) ∨
        (Applies options files finding .ignoredFile ∧ reason = some .ignoredFile) ∨
        (¬ Applies options files finding .ignoredFile ∧ lineOf finding = .null ∧ reason = none) ∨
        (¬ Applies options files finding .ignoredFile ∧ ∃ marks, HasMarks options files finding marks ∧
          inlineReason? marks (lineOf finding) (Text.upper rule) = .ok reason)) := by
  obtain ⟨rule, hrule, h⟩ := of_bind h
  refine ⟨rule, ?_, ?_⟩
  · cases hv : ruleOf finding <;> rw [hv] at hrule <;> simp_all [asText]
  change (if !(fileOf finding).truthy then _ else _) = _ at h
  by_cases hfile : (fileOf finding).truthy
  · rw [if_neg (by simp [hfile])] at h
    obtain ⟨ignored, hignored, h⟩ := of_bind h
    cases ignored with
    | true => exact .inr (.inl ⟨⟨hfile, hignored⟩, (ok.inj h).symm⟩)
    | false =>
      have hnot : ¬ Applies options files finding .ignoredFile := by
        rintro ⟨-, htrue⟩
        exact absurd (hignored.symm.trans htrue) (by simp)
      rw [if_neg (by simp)] at h
      split at h
      · next hline => exact .inr (.inr (.inl ⟨hnot, hline, (ok.inj h).symm⟩))
      · obtain ⟨path, hpath, h⟩ := of_bind h
        obtain ⟨marks, hmarks, h⟩ := of_bind h
        exact .inr (.inr (.inr ⟨hnot, marks, ⟨hfile, path, hpath, hmarks⟩, h⟩))
  · rw [if_pos (by simp [hfile])] at h
    exact .inl ⟨hfile, (ok.inj h).symm⟩

/-- A reason that a project gives is the first that applies. -/
lemma isFirst_of_reason?
    (h : reason? options files finding = .ok (some reason)) : IsFirst options files finding reason := by
  obtain ⟨rule, hrule, hcases⟩ := reason?_cases h
  rcases hcases with ⟨-, hnone⟩ | ⟨happlies, hsome⟩ | ⟨-, -, hnone⟩ | ⟨hnot, marks, hmarks, hinline⟩
  · cases hnone
  · cases hsome
    exact ⟨happlies, fun other hother => by cases other <;> simp [Reason.rank] at hother⟩
  · cases hnone
  · rcases inlineReason?_cases hinline with ⟨hline, hsome⟩ | ⟨hline, ⟨entry, hentry, hsame, hmem⟩, hsome⟩ | ⟨-, -, hnone⟩
    · cases hsome
      refine ⟨⟨marks, hmarks, hline⟩, fun other hother => ?_⟩
      cases other <;> simp [Reason.rank] at hother
      exact hnot
    · cases hsome
      refine ⟨⟨marks, hmarks, entry, hentry, hsame, rule, hrule, hmem⟩, fun other hother => ?_⟩
      cases other <;> simp [Reason.rank] at hother
      · exact hnot
      · rintro ⟨marks', hmarks', hline'⟩
        rw [hmarks'.unique hmarks] at hline'
        exact hline hline'
    · cases hnone

/-- Where a project gives no reason, none applies but the baseline. -/
lemma not_applies_of_reason? (h : reason? options files finding = .ok none)
    (hreason : reason ≠ .knownBefore) : ¬ Applies options files finding reason := by
  obtain ⟨rule, hrule, hcases⟩ := reason?_cases h
  rcases hcases with ⟨hfile, -⟩ | ⟨-, hsome⟩ | ⟨hnot, hline, -⟩ | ⟨hnot, marks, hmarks, hinline⟩
  · -- all three reasons ask for a file
    cases reason with
    | ignoredFile => exact fun ⟨hfile', _⟩ => hfile hfile'
    | markedLine => exact fun ⟨_, ⟨hfile', _⟩, _⟩ => hfile hfile'
    | markedRule => exact fun ⟨_, ⟨hfile', _⟩, _⟩ => hfile hfile'
    | knownBefore => exact absurd rfl hreason
  · cases hsome
  · cases reason with
    | ignoredFile => exact hnot
    | markedLine =>
      rintro ⟨-, -, n, -, hsame⟩
      rw [hline] at hsame
      exact null_not_same n hsame
    | markedRule =>
      rintro ⟨-, -, entry, -, hsame, -⟩
      rw [hline] at hsame
      exact null_not_same entry.1 hsame
    | knownBefore => exact absurd rfl hreason
  · rcases inlineReason?_cases hinline with ⟨-, hsome⟩ | ⟨-, -, hsome⟩ | ⟨hline, hoff, -⟩
    · cases hsome
    · cases hsome
    · cases reason with
      | ignoredFile => exact hnot
      | markedLine =>
        rintro ⟨marks', hmarks', hline'⟩
        rw [hmarks'.unique hmarks] at hline'
        exact hline hline'
      | markedRule =>
        rintro ⟨marks', hmarks', entry, hentry, hsame, rule', hrule', hmem⟩
        rw [hmarks'.unique hmarks] at hentry
        cases str.inj (hrule.symm.trans hrule')
        exact hoff ⟨entry, hentry, hsame, hmem⟩
      | knownBefore => exact absurd rfl hreason

/-! ## The baseline -/

lemma split_singleton {finding : Value}
    (hentries : baseline.elements = .ok entries) (hknown : Known.ofFindings entries = .ok known)
    (hhas : known.has standardTolerance finding = .ok found) :
    split baseline [finding] = .ok (if found then ([], [finding]) else ([finding], [])) := by
  cases found <;> simp [split, hentries, hknown, hhas]

/-- A baseline knows a finding exactly when the look-up says so. -/
lemma applies_knownBefore_iff (hbaseline : options.baseline = some baseline)
    (hentries : baseline.elements = .ok entries) (hknown : Known.ofFindings entries = .ok known)
    (hhas : known.has standardTolerance (.obj finding) = .ok found) :
    Applies options files finding .knownBefore ↔ found := by
  have hsplit := split_singleton hentries hknown hhas
  constructor
  · rintro ⟨baseline', hbaseline', hsplit'⟩
    cases Option.some.inj (hbaseline.symm.trans hbaseline')
    rw [hsplit] at hsplit'
    cases found <;> simp_all
  · rintro rfl
    exact ⟨baseline, hbaseline, hsplit⟩

/-! ## The verdicts -/

/-- A verdict is right: a reason given is the first that applies, and where none is given none applies. -/
def Judged.IsRight (options : Options) (files : FileTree) (j : Judged) : Prop :=
  (∀ reason, j.reason = some reason → IsFirst options files j.finding reason) ∧
    (j.reason = none → ∀ reason, ¬ Applies options files j.finding reason)

/-- The verdicts of a project are on the findings in their order, each as the project judges it. -/
lemma ofProject_verdicts (h : ofProject options files (findings.map .obj) = .ok judged) :
    judged.map (·.finding) = findings ∧ ∀ j ∈ judged, reason? options files j.finding = .ok j.reason := by
  have hstep : ∀ (v : Value) (j : Judged),
      (do let finding ← v.fields; return { finding, reason := ← reason? options files finding }) = ok j →
        v.fields = .ok j.finding ∧ reason? options files j.finding = .ok j.reason := by
    intro v j hj
    obtain ⟨finding, hfinding, hj⟩ := of_bind hj
    obtain ⟨reason, hreason, hj⟩ := of_bind hj
    cases hj
    exact ⟨hfinding, hreason⟩
  refine ⟨?_, fun j hj => ?_⟩
  · have hfields : judged.map (fun j => (ok j.finding : Except Fault Record))
        = (findings.map obj).map fields :=
      map_eq_of_mapM h fun v j hj => (hstep v j hj).1.symm
    have hinput : (findings.map obj).map fields
        = findings.map (fun f => (ok f : Except Fault Record)) := by
      rw [map_map]
      rfl
    rw [hinput] at hfields
    have hlist : (judged.map (·.finding)).map (fun f => (ok f : Except Fault Record))
        = findings.map (fun f => (ok f : Except Fault Record)) := by
      rw [map_map]
      exact hfields
    exact map_injective_iff.mpr (fun _ _ => ok.inj) hlist
  · obtain ⟨v, -, hv⟩ := exists_mem_of_mapM h hj
    exact (hstep v j hv).2

lemma againstKnown_finding {judged : Judged} (h : againstKnown known j = .ok judged) : judged.finding = j.finding := by
  unfold againstKnown at h
  split at h
  · cases h
    rfl
  · obtain ⟨found, -, h⟩ := of_bind h
    cases found <;> cases h <;> rfl

/-- A look-up in the baseline makes right what the project has judged. -/
lemma againstKnown_right {judged : Judged}
    (hbaseline : options.baseline = some baseline) (hentries : baseline.elements = .ok entries)
    (hknown : Known.ofFindings entries = .ok known)
    (hproject : reason? options files j.finding = .ok j.reason) (h : againstKnown known j = .ok judged) :
    judged.IsRight options files := by
  unfold againstKnown at h
  cases hreason : j.reason with
  | some reason =>
    rw [hreason] at hproject
    rw [if_pos (by simp [hreason])] at h
    cases h
    refine ⟨fun other hother => ?_, fun hnone => ?_⟩
    · rw [hreason] at hother
      cases hother
      exact isFirst_of_reason? hproject
    · rw [hreason] at hnone
      cases hnone
  | none =>
    rw [hreason] at hproject
    rw [if_neg (by simp [hreason])] at h
    obtain ⟨found, hfound, h⟩ := of_bind h
    have happlies : Applies options files j.finding .knownBefore ↔ found :=
      applies_knownBefore_iff hbaseline hentries hknown hfound
    cases found with
    | true =>
      cases h
      refine ⟨fun other hother => ?_, fun hnone => by cases hnone⟩
      cases hother
      refine ⟨happlies.mpr rfl, fun earlier hearlier => ?_⟩
      refine not_applies_of_reason? hproject fun heq => ?_
      subst heq
      exact absurd hearlier (Nat.lt_irrefl _)
    | false =>
      cases h
      refine ⟨fun other hother => ?_, fun _ other => ?_⟩
      · rw [hreason] at hother
        cases hother
      · by_cases hother : other = .knownBefore
        · subst hother
          exact fun hyes => absurd (happlies.mp hyes) (by simp)
        · exact not_applies_of_reason? hproject hother

/-- All verdicts are right, and they are on the findings in their order. -/
lemma judge_right (h : judge options files (findings.map .obj) = .ok judged) :
    judged.map (·.finding) = findings ∧ ∀ j ∈ judged, j.IsRight options files := by
  obtain ⟨first, hfirst, h⟩ := of_bind h
  obtain ⟨hfindings, hreasons⟩ := ofProject_verdicts hfirst
  cases hbaseline : options.baseline with
  | none =>
    rw [hbaseline] at h
    cases h
    refine ⟨hfindings, fun j hj => ⟨fun reason hreason => ?_, fun hnone reason => ?_⟩⟩
    · have hproject := hreasons j hj
      rw [hreason] at hproject
      exact isFirst_of_reason? hproject
    · have hproject := hreasons j hj
      rw [hnone] at hproject
      by_cases hother : reason = .knownBefore
      · subst hother
        rintro ⟨baseline, hsome, -⟩
        rw [hbaseline] at hsome
        cases hsome
      · exact not_applies_of_reason? hproject hother
  | some baseline =>
    rw [hbaseline] at h
    obtain ⟨entries, hentries, h⟩ := of_bind h
    obtain ⟨known, hknown, h⟩ := of_bind h
    have hkept : judged.map (·.finding) = first.map (·.finding) :=
      map_eq_of_mapM h fun _ _ hj => againstKnown_finding hj
    refine ⟨hkept.trans hfindings, fun j hj => ?_⟩
    obtain ⟨j', hj', hstep⟩ := exists_mem_of_mapM h hj
    exact againstKnown_right hbaseline hentries hknown (hreasons j' hj') hstep

/-! ## The two parts -/

lemma unmarked_toValue (j : Judged) : unmarked j.toValue = unmarked (.obj j.finding) := by
  unfold Judged.toValue
  cases j.reason with
  | none => rfl
  | some reason =>
    exact congrArg obj (Record.erase_put j.finding _ _)

lemma active_aside_perm (judged : List Judged) : (judged.filter (·.reason.isNone) ++ aside judged).Perm judged := by
  let known := fun (j : Judged) => decide (j.reason = some .knownBefore)
  let some' := fun (j : Judged) => j.reason.isSome
  have hknown : judged.filter known = (judged.filter some').filter known := by
    rw [filter_filter]
    refine filter_congr fun j _ => ?_
    cases hreason : j.reason <;> simp [known, some', hreason]
  have hother : judged.filter (fun j => some' j && !known j)
      = (judged.filter some').filter (fun j => !known j) := by
    rw [filter_filter]
    exact filter_congr fun j _ => and_comm _ _
  have haside : (aside judged).Perm (judged.filter some') := by
    change (judged.filter (fun j => some' j && !known j) ++ judged.filter known).Perm _
    rw [hother, hknown]
    exact perm_append_comm.trans (filter_append_perm known _)
  have hnone : judged.filter (·.reason.isNone) = judged.filter (fun j => !some' j) :=
    filter_congr fun j _ => by cases hreason : j.reason <;> simp [some', hreason]
  rw [hnone]
  exact (Perm.append_left _ haside).trans
    (perm_append_comm.trans (filter_append_perm some' judged))

/-- Two lists of values part findings into those to report and those set aside. -/
structure Parts (options : Options) (files : FileTree) (findings : List Record) (active suppressed : List Value) :
    Prop where
  /-- The findings to report are the input with some taken out: in order and unchanged. -/
  kept : active.Sublist (findings.map .obj)
  /-- None is lost and none is doubled, and nothing changes but the reason written down. -/
  all : ((active ++ suppressed).map unmarked).Perm ((findings.map .obj).map unmarked)
  /-- Each one set aside names the first reason that applies to it. -/
  reasons : ∀ v ∈ suppressed, ∃ finding ∈ findings, ∃ reason : Reason,
    v = .obj (finding.put "suppression_reason" (.str reason.word)) ∧ IsFirst options files finding reason
  /-- No reason applies to one that is reported. -/
  unreasoned : ∀ v ∈ active, ∃ finding ∈ findings, v = .obj finding ∧ ∀ reason, ¬ Applies options files finding reason

/-- **Suppression parts the findings**, whatever the project, its files, its patterns and its baseline. -/
theorem parts_of_apply {findings : List Record} {active suppressed : List Value}
    (h : apply options files (findings.map .obj) = .ok (active, suppressed)) :
    Parts options files findings active suppressed := by
  obtain ⟨judged, hjudged, hparts⟩ := bind_eq_ok_iff.mp h
  obtain ⟨rfl, hright⟩ := judge_right hjudged
  obtain ⟨rfl, rfl⟩ := Prod.mk.inj (ok.inj hparts)
  have hactive : Suppression.active judged
      = (judged.filter (·.reason.isNone)).map (fun j => obj j.finding) := by
    refine map_congr_left fun j hj => ?_
    have hnone := (mem_filter.mp hj).2
    cases hreason : j.reason with
    | none => simp [Judged.toValue, hreason]
    | some reason => simp [hreason] at hnone
  refine ⟨?_, ?_, fun v hv => ?_, fun v hv => ?_⟩
  · rw [hactive, map_map]
    exact filter_sublist.map _
  · have hall : ((judged.filter (·.reason.isNone) ++ aside judged).map fun j => unmarked j.toValue).Perm
        (judged.map fun j => unmarked j.toValue) := (active_aside_perm judged).map _
    simpa only [Suppression.active, map_append, map_map, Function.comp_def, unmarked_toValue]
      using hall
  · obtain ⟨j, hj, rfl⟩ := mem_map.mp hv
    have hmem : j ∈ judged := (active_aside_perm judged).subset (mem_append_right _ hj)
    obtain ⟨reason, hreason⟩ : ∃ reason, j.reason = some reason := by
      rcases mem_append.mp hj with hj | hj
      · exact Option.isSome_iff_exists.mp (and_eq_true_iff.mp (mem_filter.mp hj).2).1
      · exact ⟨_, of_decide_eq_true (mem_filter.mp hj).2⟩
    exact ⟨j.finding, mem_map_of_mem hmem, reason, by simp [Judged.toValue, hreason], (hright j hmem).1 reason hreason⟩
  · rw [hactive] at hv
    obtain ⟨j, hj, rfl⟩ := mem_map.mp hv
    obtain ⟨hmem, hnone⟩ := mem_filter.mp hj
    exact ⟨j.finding, mem_map_of_mem hmem, rfl, (hright j hmem).2 (Option.isNone_iff_eq_none.mp hnone)⟩

/-! ### A project with a finding of each fate -/

def markedFiles : FileTree :=
  { entries := [(["p", "a.py"], .file (.text
    "x = 1\ny = 2  # vulnpredict-ignore: r1\nz = 3  # vulnpredict-ignore-line\n"))] }

def placed (file : String) (line : Nat) (rule : String) : Record :=
  [("file", .str file), ("line", .nat line), ("rule_id", .str rule), ("message", .str "m")]

def markedProject : Options :=
  { root := .str "p", patterns := .texts ["b.py"], baseline := some (.list [.obj (placed "a.py" 9 "r1")]) }

def fiveFindings : List Record :=
  [placed "a.py" 1 "r2", placed "a.py" 7 "r1", placed "a.py" 2 "r1", placed "a.py" 3 "r1", placed "b.py" 3 "r1"]

def reasonText (v : Value) : String :=
  match v.part "suppression_reason" with
  | .ok reason => reason.text
  | .error _ => ""

theorem parts_of_apply_five : ∃ active suppressed,
    apply markedProject markedFiles (fiveFindings.map .obj) = .ok (active, suppressed) ∧ active.length = 1 ∧
      suppressed.map reasonText = ["inline_ignore_rule", "inline_ignore_line", "ignore_file", "baseline"] ∧
      Parts markedProject markedFiles fiveFindings active suppressed := by
  have hrun : (apply markedProject markedFiles (fiveFindings.map .obj)).toOption.map
        (fun parts => (parts.1.length, parts.2.map reasonText))
      = some (1, ["inline_ignore_rule", "inline_ignore_line", "ignore_file", "baseline"]) := by
    decide +kernel
  cases hresult : apply markedProject markedFiles (fiveFindings.map .obj) with
  | error fault =>
    rw [hresult] at hrun
    cases hrun
  | ok parts =>
    rw [hresult] at hrun
    obtain ⟨hlength, hreasons⟩ := Prod.mk.inj (Option.some.inj hrun)
    exact ⟨parts.1, parts.2, rfl, hlength, hreasons, parts_of_apply hresult⟩

end CodeAudit.Suppression

import CodeAudit.Proofs.Audit.Profiles
import CodeAudit.Proofs.Model.FeatureRows

/-!
# Features of what the analyses find

Every analysis fills its own fields, and the features read all of them. What is found fits the features but in one
place: the worst severity among the dependencies is null or a word, and the features want a number. So one package that
nothing is known about keeps a whole project from being scored, and so does the word for any level
(`exists_featureTable_iff`).
-/

namespace CodeAudit

open Proofs

variable {s : LookupState}

/-! ## Severities of reports -/

/-- Only vulnerable dependencies give a report its severity. -/
def DependencyReport.IsQuiet (report : DependencyReport) : Prop := report.vulnerable = 0 → report.worst = .null

namespace DependencyReport

variable {report : DependencyReport} {files : FileTree} {path : String} {result : DependencyReport}

lemma vulnerable_addSeverity (report : DependencyReport) (severity : Value) :
    (report.addSeverity severity).vulnerable = report.vulnerable := by
  unfold addSeverity
  split <;> rfl

lemma isQuiet_addSeverity (h : report.vulnerable ≠ 0) (severity : Value) : (report.addSeverity severity).IsQuiet := by
  intro hnone
  rw [vulnerable_addSeverity] at hnone
  exact absurd hnone h

lemma isQuiet_addRequirement (h : report.IsQuiet) (index : PackageIndex) (s : LookupState) (name : String)
    (version : Option String) : (addRequirement index report s name version).1.IsQuiet := by
  unfold addRequirement
  rcases lookUpSeverity _ _ with ⟨severity, after⟩
  cases severity with
  | none => exact h
  | some severity => exact isQuiet_addSeverity (Nat.succ_ne_zero _) severity

lemma isQuiet_addRequirements (index : PackageIndex) (requirements : List (String × Option String))
    (start : DependencyReport × LookupState) (h : start.1.IsQuiet) :
    (addRequirements index start requirements).1.IsQuiet := by
  induction requirements generalizing start with
  | nil => exact h
  | cons requirement rest ih =>
    rw [addRequirements_cons]
    exact ih _ (isQuiet_addRequirement h index start.2 requirement.1 requirement.2)

lemma isQuiet_pythonDependencies (h : (pythonDependencies files index path s).1 = .ok report) : report.IsQuiet := by
  unfold pythonDependencies at h
  dsimp only at h
  split at h
  · cases h
    exact fun _ => rfl
  · split at h
    · cases h
    · cases h
      exact isQuiet_addRequirements index _ ({}, s) fun _ => rfl

lemma isQuiet_addPackage (hquiet : report.IsQuiet)
    (h : (addPackage report s name spec).1 = .ok result) : result.IsQuiet := by
  unfold addPackage at h
  split at h
  · next text =>
    dsimp only at h
    generalize ExceptT.run (Lookup.vulnerable _) s = looked at h
    obtain ⟨found, after⟩ := looked
    rcases found with fault | _ | finding
    · cases h
      exact hquiet
    · cases h
      exact hquiet
    · cases h
      exact isQuiet_addSeverity (Nat.succ_ne_zero _) _
  · cases h

lemma isQuiet_addPackages (packages : List (Value × Value)) (hquiet : report.IsQuiet)
    (h : (addPackages report s packages).1 = .ok result) : result.IsQuiet := by
  induction packages generalizing report s with
  | nil =>
    cases h
    exact hquiet
  | cons package rest ih =>
    obtain ⟨name, spec⟩ := package
    unfold addPackages at h
    have hfirst : ∀ next, (addPackage report s name spec).1 = .ok next → next.IsQuiet :=
      fun next hnext => isQuiet_addPackage hquiet hnext
    generalize addPackage report s name spec = added at h hfirst
    obtain ⟨next, after⟩ := added
    cases next with
    | error fault => cases h
    | ok next => exact ih (hfirst next rfl) h

lemma isQuiet_javascriptDependencies (h : (javascriptDependencies files path s).1 = .ok report) : report.IsQuiet := by
  rw [javascriptDependencies_eq] at h
  cases hdescribed : describedPackages files path with
  | error fault =>
    rw [hdescribed] at h
    cases h
  | ok packages =>
    rw [hdescribed] at h
    exact isQuiet_addPackages packages (fun _ => rfl) h

end DependencyReport

end CodeAudit

namespace CodeAudit.Audit

open Proofs Proofs.Steps Action Features

/-! ## Fields of findings -/

def wholeNames : List String := "length" :: measureNames ++ dependencyNames

/-- Whether a field holds what the features expect under its name. -/
def fits (field : String × Value) : Bool :=
  if wholeNames.contains field.1 then match field.2 with
    | .int _ => true
    | _ => false
  else if listNames.contains field.1 then match field.2 with
    | .list _ => true
    | _ => false
  else if field.1 == "sensitive_data_involved" then match field.2 with
    | .bool _ => true
    | _ => false
  else field.1 != "embedding" || !field.2.truthy

variable {name kind : String} {value v : Value} {r : Record} {field : String × Value}

lemma exists_int_of_fits (hname : name ∈ wholeNames) (h : fits (name, value)) : ∃ n, value = .int n := by
  unfold fits at h
  rw [if_pos (List.contains_iff_mem.mpr hname)] at h
  split at h
  · next n _ => exact ⟨n, ‹_›⟩
  · cases h

lemma exists_list_of_fits (hname : name ∈ listNames) (h : fits (name, value)) : ∃ items, value = .list items := by
  have hother : ∀ name ∈ listNames, ¬ wholeNames.contains name := by decide
  unfold fits at h
  rw [if_neg (hother name hname), if_pos (List.contains_iff_mem.mpr hname)] at h
  split at h
  · next items _ => exact ⟨items, ‹_›⟩
  · cases h

lemma exists_bool_of_fits (h : fits ("sensitive_data_involved", value)) : ∃ b, value = .bool b := by
  cases value with
  | bool b => exact ⟨b, rfl⟩
  | _ => cases h

lemma truthy_of_fits (h : fits ("embedding", value)) : value.truthy = false := by
  have hvalue : fits ("embedding", value) = !value.truthy := rfl
  rw [hvalue] at h
  simpa using h

lemma fits_getD (hfields : r.all fits) {default : Value} (hdefault : fits (name, default)) :
    fits (name, r.getD name default) := by
  unfold Record.getD
  cases hget : r.get? name with
  | none => exact hdefault
  | some value => exact List.all_eq_true.mp hfields _ (Record.mem_of_get? hget)

/-- A record of fields that all fit is a regular finding. -/
lemma regular_of_fields (hkind : ∃ kind, r.get? "type" = some (.str kind)) (hfields : r.all fits) :
    RegularFinding (.obj r) := by
  have hwhole : ∀ name ∈ wholeNames, fits (name, .int 0) := by decide
  have hlist : ∀ name ∈ listNames, fits (name, .list []) := by decide
  refine ⟨?_, fun name hname => ?_, fun name hname => ?_, ?_, r.getD "embedding" .null, rfl, ?_⟩
  · obtain ⟨kind, hkind⟩ := hkind
    refine ⟨kind, ?_⟩
    change Except.ok ((r.get? "type").getD .null) = _
    rw [hkind]
    rfl
  · obtain ⟨n, hn⟩ := exists_int_of_fits hname (fits_getD hfields (hwhole name hname))
    exact ⟨n, congrArg Except.ok hn⟩
  · obtain ⟨items, hitems⟩ := exists_list_of_fits hname (fits_getD hfields (hlist name hname))
    exact ⟨items, congrArg Except.ok hitems⟩
  · have hfalse : fits ("sensitive_data_involved", .bool false) := rfl
    obtain ⟨b, hb⟩ := exists_bool_of_fits (fits_getD hfields hfalse)
    exact ⟨b, congrArg Except.ok hb⟩
  · have hnull : fits ("embedding", .null) := rfl
    exact truthy_of_fits (fits_getD hfields hnull)

lemma mem_put (h : field ∈ r.put name value) : field ∈ r ∨ field = (name, value) := by
  unfold Record.put at h
  split at h
  · obtain ⟨old, hold, rfl⟩ := List.mem_map.mp h
    split
    · exact .inr rfl
    · exact .inl hold
  · rcases List.mem_append.mp h with hold | hnew
    · exact .inl hold
    · exact .inr (List.mem_singleton.mp hnew)

lemma mem_withFields (h : field ∈ Python.withFields r fields) : field ∈ r ∨ field ∈ fields := by
  unfold Python.withFields at h
  induction fields generalizing r with
  | nil => exact .inl h
  | cons first rest ih =>
    rcases ih h with hput | hrest
    · rcases mem_put hput with hold | hfirst
      · exact .inl hold
      · exact .inr (hfirst ▸ List.mem_cons_self)
    · exact .inr (List.mem_cons_of_mem _ hrest)

/-- What the analyses find: regular findings, with a severity of dependencies only where one is vulnerable. -/
structure IsFound (v : Value) : Prop where
  regular : RegularFinding v
  quiet : hasType v "dependencies" = .ok true → v.part "num_vulnerable_dependencies" (.int 0) = .ok (.int 0) →
    v.part "max_dependency_severity" (.int 0) = .ok .null

/-- A finding on anything else has no severity of dependencies to speak of. -/
lemma isFound_of_fields (hkind : r.get? "type" = some (.str kind))
    (hother : kind ≠ "dependencies") (hfields : r.all fits) : IsFound (.obj r) := by
  refine ⟨regular_of_fields ⟨kind, hkind⟩ hfields, fun htype => ?_⟩
  have hpart : (Value.obj r).part "type" = .ok (.str kind) := by
    change Except.ok ((r.get? "type").getD .null) = _
    rw [hkind]
    rfl
  rw [hasType_of_part hpart] at htype
  exact absurd (beq_iff_eq.mp (Except.ok.inj htype)) hother

lemma isFound_withChurn (hkind : r.get? "type" = some (.str kind))
    (hother : kind ≠ "dependencies") (hfields : r.all fits) (changed : Tools.Churn) :
    IsFound (.obj (Python.withFields r changed.toRecord)) := by
  have hchurn : changed.toRecord.all fits := rfl
  refine isFound_of_fields ((get?_type_withChurn r changed).trans hkind) hother ?_
  refine List.all_eq_true.mpr fun field hfield => ?_
  rcases mem_withFields hfield with hold | hnew
  · exact List.all_eq_true.mp hfields field hold
  · exact List.all_eq_true.mp hchurn field hnew

/-! ## Each kind of finding -/

lemma isFound_dependencies {report : DependencyReport} (hquiet : report.IsQuiet)
    (h : r ∈ report.finding?) : IsFound (.obj r) := by
  unfold DependencyReport.finding? at h
  split at h
  · cases h
  · cases List.mem_singleton.mp h
    refine ⟨regular_of_fields ⟨_, rfl⟩ rfl, fun _ hnone => ?_⟩
    -- the count of vulnerable dependencies is that of the report
    have hcount : report.vulnerable = 0 := Int.ofNat.inj (Value.int.inj (Except.ok.inj hnone))
    exact congrArg Except.ok (hquiet hcount)

lemma isFound_eslint {t : Tools} (h : r ∈ t.eslintFindings path) : IsFound (.obj r) := by
  obtain ⟨rule, message, line, severity, rfl⟩ := exists_of_mem_eslintFindings h
  exact @isFound_of_fields "eslint" _ rfl (by decide) rfl

lemma isFound_fileReport (h : IsReportOn host file found) (hr : r ∈ found) : IsFound (.obj r) := by
  obtain ⟨changed, h⟩ := h
  obtain ⟨t, -, -, -, rfl⟩ := fileReport_eq_ok_iff.mp h
  obtain ⟨bare, hbare, rfl⟩ := List.mem_map.mp hr
  rcases List.mem_append.mp hbare with hbare | htaint
  · rcases List.mem_append.mp hbare with hfunction | hbandit
    · obtain ⟨f, -, rfl⟩ := List.mem_map.mp hfunction
      exact @isFound_withChurn "function_analysis" _ rfl (by decide) rfl changed
    · obtain ⟨test, text, line, severity, confidence, rfl⟩ := Suppression.exists_of_mem_banditFindings hbandit
      exact @isFound_withChurn "bandit" _ rfl (by decide) rfl changed
  · obtain ⟨f, -, rfl⟩ := List.mem_map.mp htaint
    exact @isFound_withChurn "taint_analysis" _ rfl (by decide) rfl changed

/-- What the analyzer of Javascript syntax prints about a function. -/
def printedFunction (name : String) (line length depth : Nat) (checks : List String) : Record :=
  [("type", .str "function_analysis"), ("name", .str name), ("line", .nat line), ("length", .nat length),
   ("max_nesting_depth", .nat depth), ("input_validation", .texts checks), ("dangerous_calls", .list [])]

/-- What the analyzer of Javascript syntax prints about a function or a dangerous call. -/
inductive IsPrinted : Value → Prop where
  | function (name : String) (line length depth : Nat) (checks : List String) :
    IsPrinted (.obj (printedFunction name line length depth checks))
  | call (function : String) (line : Nat) :
    IsPrinted (.obj [("type", .str "dangerous_call"), ("function", .str function), ("line", .nat line)])

lemma IsPrinted.isFound (h : IsPrinted v) : IsFound v := by
  cases h with
  | function name line length depth checks => exact @isFound_of_fields "function_analysis" _ rfl (by decide) rfl
  | call function line => exact @isFound_of_fields "dangerous_call" _ rfl (by decide) rfl

/-- The analyzer of Javascript syntax prints nothing else. -/
def PrintsFindings (t : Tools) : Prop :=
  ∀ file printed, (t.nodeDocument file).elements = .ok printed → ∀ v ∈ printed, IsPrinted v

/-! ## All findings on a project -/

section Run

variable {host after : Host} {path : String} {found : List Record} {r : Record} {v : Value}

lemma isFound_python (hrun : on (Python.analyzeProject path) host = (.ok found, after))
    (hr : r ∈ found) : IsFound (.obj r) := by
  by_cases hall : AllAnalysable host path
  · obtain ⟨git, perFile, hreports, h⟩ := exists_on_analyzeProject hall
    rw [hrun] at h
    obtain ⟨report, hreport, hfound⟩ := map_eq_ok_iff.mp (congrArg Prod.fst h).symm
    subst hfound
    rcases List.mem_append.mp hr with hfile | hdependencies
    · obtain ⟨found, hfound, hr⟩ := List.mem_flatten.mp hfile
      obtain ⟨file, -, hreport⟩ := exists_mem_of_forall₂ hreports hfound
      exact isFound_fileReport hreport hr
    · exact isFound_dependencies (DependencyReport.isQuiet_pythonDependencies hreport) hdependencies
  · obtain ⟨git, fault, h⟩ := exists_on_analyzeProject_error hall
    rw [hrun] at h
    cases congrArg Prod.fst h

/-- The analysis of Python files changes what the version control program has left to say, and no other program. -/
lemma nodeDocument_after_python (hrun : on (Python.analyzeProject path) host = (.ok found, after)) :
    after.tools.nodeDocument = host.tools.nodeDocument := by
  by_cases hall : AllAnalysable host path
  · obtain ⟨git, perFile, -, h⟩ := exists_on_analyzeProject hall
    rw [hrun] at h
    obtain ⟨-, rfl⟩ := Prod.mk.inj h
    rfl
  · obtain ⟨git, fault, h⟩ := exists_on_analyzeProject_error hall
    rw [hrun] at h
    cases congrArg Prod.fst h

lemma isFound_scripts (hprints : PrintsFindings host.tools) {found : List Value}
    (hrun : on (Javascript.analyzeProject path) host = (.ok found, after)) (hv : v ∈ found) : IsFound v := by
  rw [on_scripts] at hrun
  cases hscripts : (scriptFiles host.files path).mapM (scriptReport host) with
  | error fault =>
    rw [hscripts] at hrun
    cases congrArg Prod.fst hrun
  | ok perFile =>
    rw [hscripts] at hrun
    obtain ⟨report, hreport, hfound⟩ := map_eq_ok_iff.mp (congrArg Prod.fst hrun)
    subst hfound
    rcases List.mem_append.mp hv with hscript | hdependencies
    · obtain ⟨onScript, honScript, hv⟩ := List.mem_flatten.mp hscript
      obtain ⟨file, -, hreport⟩ := exists_mem_of_mapM hscripts honScript
      obtain ⟨printed, hprinted, hreport⟩ := of_bind hreport
      cases Except.ok.inj hreport
      rcases List.mem_append.mp hv with hmem | hlinted
      · exact (hprints file printed hprinted v hmem).isFound
      · obtain ⟨r, hr, rfl⟩ := List.mem_map.mp hlinted
        exact isFound_eslint hr
    · obtain ⟨r, hr, rfl⟩ := List.mem_map.mp hdependencies
      exact isFound_dependencies (DependencyReport.isQuiet_javascriptDependencies hreport) hr

lemma isFound_flows (hrun : Python.analyzeFlows files path depth room = .ok found) (hr : r ∈ found) : IsFound (.obj r) := by
  obtain ⟨index, -, hfound⟩ := of_bind hrun
  cases Except.ok.inj hfound
  obtain ⟨f, -, rfl⟩ := List.mem_map.mp hr
  exact @isFound_of_fields "interprocedural_taint" _ rfl (by decide) rfl

lemma isFound_allFindings (hprints : PrintsFindings host.tools)
    (hrun : on (Label.allFindings path) host = (.ok all, after)) (hv : v ∈ all) : IsFound v := by
  unfold Label.allFindings at hrun
  obtain ⟨python, between, hpython, hrun⟩ := of_on_bind hrun
  obtain ⟨scripts, between', hscripts, hrun⟩ := of_on_bind hrun
  obtain ⟨flows, between'', hflows, hrun⟩ := of_on_bind hrun
  rw [on_visiting] at hflows
  cases Except.ok.inj (congrArg Prod.fst hrun)
  rcases List.mem_append.mp hv with hv | hflow
  · rcases List.mem_append.mp hv with hfile | hscript
    · obtain ⟨r, hr, rfl⟩ := List.mem_map.mp hfile
      exact isFound_python hpython hr
    · refine isFound_scripts ?_ hscripts hscript
      unfold PrintsFindings
      rw [nodeDocument_after_python hpython]
      exact hprints
  · obtain ⟨r, hr, rfl⟩ := List.mem_map.mp hflow
    exact isFound_flows (congrArg Prod.fst hflows) hr

end Run

/-! ## The table of features -/

/-- The counts of findings have doubles near them, and make columns. -/
def CountsFit (findings : List Value) : Prop :=
  (∀ v ∈ findings, HasDoubles v) ∧ (∃ c, lengthColumn findings = .ok c) ∧ ∃ c, dangerousColumn findings = .ok c

/-- The whole numbers of a finding and the number of its dangerous calls are below a bound. -/
def CountsBelow (bound : Nat) (v : Value) : Prop :=
  (∀ name ∈ wholeNames, ∀ n, v.part name (.int 0) = .ok (.int n) → n.natAbs < bound) ∧
    ∀ n, count v "dangerous_calls" = .ok n → n < bound

lemma hasDouble_of_lt (h : n.natAbs < 2 ^ 53) : (Number.whole n).hasDouble := by
  have hfinite : (Decimal.ofInt n).isInf = false := Decimal.isInf_ofInt h
  change (!(Decimal.ofInt n).isInf)
  rw [hfinite]
  rfl

lemma countsFit_of_countsBelow (hregular : ∀ v ∈ findings, RegularFinding v)
    (h : ∀ v ∈ findings, CountsBelow (2 ^ 53) v) : CountsFit findings := by
  refine ⟨fun v hv => ⟨fun name hname n hn => ?_, fun _ name hname n hn => ?_⟩, ?_, ?_⟩
  · exact hasDouble_of_lt ((h v hv).1 name (List.mem_append_left _ (List.mem_cons_of_mem _ hname)) n hn)
  · exact hasDouble_of_lt ((h v hv).1 name (List.mem_append_right _ hname) n hn)
  · obtain ⟨ns, hcolumn, hlengths⟩ := exists_lengthColumn_eq hregular
    rw [hcolumn]
    refine Column.exists_ofCells_ints fun n hn => ?_
    obtain ⟨v, hv, hlength⟩ := exists_mem_of_forall₂ hlengths hn
    exact hasDouble_of_lt ((h v hv).1 "length" (by decide) n hlength)
  · obtain ⟨ns, hcolumn, hcounts⟩ := exists_dangerousColumn_eq hregular
    rw [hcolumn]
    refine Column.exists_ofCells_ints fun m hm => ?_
    obtain ⟨n, hn, rfl⟩ := List.mem_map.mp hm
    obtain ⟨v, hv, hcount⟩ := exists_mem_of_forall₂ hcounts hn
    exact hasDouble_of_lt ((h v hv).2 n hcount)

/-- A finding on dependencies has no severity that is a number: none is vulnerable, or the worst one is a word. -/
structure LacksSeverity (v : Value) : Prop where
  onDependencies : hasType v "dependencies" = .ok true
  unread : v.part "num_vulnerable_dependencies" (.int 0) = .ok (.int 0) ∨
    ∃ level : AdvisoryLevel, v.part "max_dependency_severity" (.int 0) = .ok (.str level.word)

lemma LacksSeverity.not_hasSeverity (h : LacksSeverity v) (hfound : IsFound v) : ¬ HasSeverity v := by
  intro hseverity
  obtain ⟨severity, x, hpart, hx⟩ := hseverity h.onDependencies
  rcases h.unread with hnone | ⟨level, hword⟩
  · cases Except.ok.inj ((hfound.quiet h.onDependencies hnone).symm.trans hpart)
    cases hx
  · cases Except.ok.inj (hword.symm.trans hpart)
    have hno : (Value.str level.word).readDouble.isOk = false := by cases level <;> decide +kernel
    rw [hx] at hno
    cases hno

/-- What the analyses find on a project becomes a table of features exactly when each finding on dependencies has a
number for its worst severity and no count is beyond all doubles; such counts have more than fifty-three bits. So a
project gets no features where it declares dependencies and none is vulnerable, or the worst severity is a level. A
table has a row for each finding. -/
theorem exists_featureTable_iff {host after : Host} {path : String} {all : List Value}
    (hprints : PrintsFindings host.tools) (hrun : on (Label.allFindings path) host = (.ok all, after)) :
    ((∃ t, table all = .ok t) ↔ (∀ v ∈ all, HasSeverity v) ∧ CountsFit all) ∧
      (∀ v ∈ all, LacksSeverity v → ¬ ∃ t, table all = .ok t) ∧
      ((∀ v ∈ all, CountsBelow (2 ^ 53) v) → CountsFit all) ∧
      ∀ t, table all = .ok t → t.height = all.length ∧ ∀ column ∈ t.columns, column.2.cells.length = all.length := by
  have hfound : ∀ v ∈ all, IsFound v := fun v hv => isFound_allFindings hprints hrun hv
  have hregular : ∀ v ∈ all, RegularFinding v := fun v hv => (hfound v hv).regular
  have hends : (∃ t, table all = .ok t) ↔ (∀ v ∈ all, HasSeverity v) ∧ CountsFit all := by
    rw [exists_table_iff hregular, CountsFit, forall₂_and]
    exact ⟨fun ⟨⟨hdoubles, hseverity⟩, hcolumns⟩ => ⟨hseverity, hdoubles, hcolumns⟩,
      fun ⟨hseverity, hdoubles, hcolumns⟩ => ⟨⟨hdoubles, hseverity⟩, hcolumns⟩⟩
  refine ⟨hends, ?_, countsFit_of_countsBelow hregular, fun t ht => table_isRectangular hregular ht⟩
  intro v hv hlacks htable
  exact hlacks.not_hasSeverity (hfound v hv) ((hends.mp htable).1 v hv)

def declaringHost : Host := hostOf (FileTree.empty.put ["p", "requirements.txt"] (.file (.text "six==1.0\n")))

def isZero : Value → Bool
  | .int n => n == 0
  | _ => false

/-- One requirement that nothing is known about keeps a project from being scored. -/
theorem requirement_has_no_features : ∃ all after, PrintsFindings declaringHost.tools ∧
    on (Label.allFindings "p") declaringHost = (.ok all, after) ∧ ¬ ∃ t, table all = .ok t := by
  have htest : (on (Label.allFindings "p") declaringHost).1.toOption.any (fun all => all.any fun v =>
      (hasType v "dependencies").toOption == some true &&
        (v.part "num_vulnerable_dependencies" (.int 0)).toOption.any isZero) = true := by
    decide +kernel
  obtain ⟨all, hall, hfound⟩ := (Option.any_eq_true _ _).mp htest
  obtain ⟨v, hv, hfound⟩ := List.any_eq_true.mp hfound
  obtain ⟨htype, hnone⟩ := Bool.and_eq_true_iff.mp hfound
  obtain ⟨count, hcount, hnone⟩ := (Option.any_eq_true _ _).mp hnone
  have hprints : PrintsFindings declaringHost.tools := by
    rintro file printed ⟨⟩
    simp
  have hrun : on (Label.allFindings "p") declaringHost = (.ok all, (on (Label.allFindings "p") declaringHost).2) := by
    rw [← toOption_eq_some_iff.mp hall]
  have hzero : v.part "num_vulnerable_dependencies" (.int 0) = .ok (.int 0) := by
    rw [toOption_eq_some_iff.mp hcount]
    cases count with
    | int n => rw [eq_of_beq hnone]
    | _ => cases hnone
  refine ⟨all, _, hprints, hrun, ?_⟩
  obtain ⟨-, hfails, -⟩ := exists_featureTable_iff hprints hrun
  exact hfails v hv ⟨toOption_eq_some_iff.mp (beq_iff_eq.mp htype), .inl hzero⟩

end CodeAudit.Audit

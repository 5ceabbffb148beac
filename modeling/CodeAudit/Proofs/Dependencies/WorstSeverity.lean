import CodeAudit.Proofs.Dependencies.Asked
import CodeAudit.Proofs.Dependencies.Shapes

/-!
# The severity of a project's dependencies

A report on dependencies names the worst severity and counts the vulnerable ones. The finding on a package has its most
severe vulnerability, and the report the most severe of the findings. `IsWorst` is a level among all that were told
such that none is more severe. A look-up that fails tells nothing.
-/

namespace CodeAudit

open Proofs Proofs.Steps List Path DependencyReport

namespace AdvisoryLevel

/-- The place of a level in the order of levels, the most severe first. -/
def rank (level : AdvisoryLevel) : Nat := all.idxOf level

lemma rankOf_word (level : AdvisoryLevel) : rankOf level.word = level.rank := by
  cases level <;> decide

end AdvisoryLevel

/-- The severity to report where vulnerabilities of these levels are known. -/
inductive IsWorst : List AdvisoryLevel → Value → Prop
  | none : IsWorst [] .null
  | level {level : AdvisoryLevel} {levels : List AdvisoryLevel} (hmem : level ∈ levels)
      (hmost : ∀ other ∈ levels, level.rank ≤ other.rank) : IsWorst levels (.str level.word)

/-- The running maximum: the levels of one more package, which has some, are taken in. -/
lemma IsWorst.append {worst severity : Value} (hbefore : IsWorst before worst) (hadded : IsWorst added severity)
    (hsome : added ≠ []) : IsWorst (before ++ added) (worse worst severity) := by
  cases hadded with
  | none => exact absurd rfl hsome
  | @level new _ hnew hleast =>
    cases hbefore with
    | none => exact .level hnew hleast
    | @level old _ hold hmost =>
      unfold worse rankOf
      simp only [AdvisoryLevel.rankOf_word]
      split
      case isTrue hless =>
        have hold : ∀ other ∈ before, new.rank ≤ other.rank := fun other hin => hless.le.trans (hmost other hin)
        exact .level (mem_append_right _ hnew) (forall_mem_append.mpr ⟨hold, hleast⟩)
      case isFalse hless =>
        have hnew : ∀ other ∈ added, old.rank ≤ other.rank := fun other hin =>
          (Nat.le_of_not_lt hless).trans (hleast other hin)
        exact .level (mem_append_left _ hold) (forall_mem_append.mpr ⟨hmost, hnew⟩)

namespace Lookup

variable {p : Package} {s : LookupState} {v : Value} {level : AdvisoryLevel} {vulns : List Value}
  {levels : List AdvisoryLevel}

/-! ## One package -/

/-- The fields that a finding shows beside the severity. -/
def shownFields : List String := ["vuln_id", "cve_ids", "cvss_score", "summary", "advisory_urls"]

/-- A vulnerability with its level, as the database and the cache give it. -/
def IsLabelled (v : Value) (level : AdvisoryLevel) : Prop :=
  v.need "severity" = .ok (.str level.word) ∧ ∀ name ∈ shownFields, ∃ shown, v.need name = .ok shown

lemma isLabelled_toRecord (a : Advisory) : IsLabelled (.obj a.toRecord) a.level := by
  refine ⟨rfl, fun name hname => ?_⟩
  simp only [shownFields, mem_cons, not_mem_nil, or_false] at hname
  rcases hname with rfl | rfl | rfl | rfl | rfl <;> exact ⟨_, rfl⟩

lemma rank_of_isLabelled (h : IsLabelled v level) : rank v = .ok level.rank := by
  have hneed := h.1
  unfold Value.need at hneed
  cases hfields : v.namedFields with
  | none => simp [hfields] at hneed
  | some fields =>
    cases hget : Record.get? fields "severity" with
    | none => simp [hfields, hget] at hneed
    | some severity =>
      simp only [hfields, hget, Except.ok.injEq] at hneed
      have hpart : v.part "severity" (.str "unknown") = .ok (.str level.word) := by
        rw [Value.part_of_fields hfields, Record.getD, hget, hneed, Option.getD_some]
      unfold rank
      rw [hpart, ← AdvisoryLevel.rankOf_word]
      rfl

/-- The outcome of a look-up: a list of vulnerabilities with these levels, or a fault, which tells nothing. -/
inductive Tells : Except Fault (List Value) → List AdvisoryLevel → Prop
  | fault (fault : Fault) : Tells (.error fault) []
  | vulns {vulns : List Value} {levels : List AdvisoryLevel} (h : Forall₂ IsLabelled vulns levels) :
      Tells (.ok vulns) levels

lemma exists_ranked (h : Forall₂ IsLabelled vulns levels) :
    ∃ ranked : List (Nat × Value), vulns.mapM (fun v => do return (← rank v, v)) = .ok ranked ∧
      Forall₂ (fun level (x : Nat × Value) => x.1 = level.rank ∧ IsLabelled x.2 level) levels ranked := by
  induction h with
  | nil => exact ⟨[], rfl, .nil⟩
  | @cons v level _ _ hv _ ih =>
    obtain ⟨ranked, hranked, hall⟩ := ih
    refine ⟨(level.rank, v) :: ranked, ?_, .cons ⟨rfl, hv⟩ hall⟩
    rw [mapM_cons, rank_of_isLabelled hv, hranked]
    rfl

/-- The running minimum of a list of ranked vulnerabilities: one of them, and none has a smaller rank. -/
lemma exists_mostSevere (first : Nat × Value) (rest : List (Nat × Value)) :
    ∃ best ∈ first :: rest, mostSevere (first :: rest) = some best.2 ∧ ∀ x ∈ first :: rest, best.1 ≤ x.1 := by
  unfold mostSevere
  refine ⟨_, ?_, rfl, ?_⟩
  · induction rest generalizing first with
    | nil => exact mem_singleton.mpr rfl
    | cons x rest ih =>
      rw [foldl_cons]
      rcases mem_cons.mp (ih (if x.1 < first.1 then x else first)) with hnow | hlater
      · rw [hnow]
        split <;> simp
      · exact mem_cons_of_mem _ (mem_cons_of_mem _ hlater)
  · induction rest generalizing first with
    | nil => simp
    | cons x rest ih =>
      obtain ⟨hbest, hrest⟩ := forall_mem_cons.mp (ih (if x.1 < first.1 then x else first))
      rw [foldl_cons, forall_mem_cons, forall_mem_cons]
      refine ⟨hbest.trans ?_, hbest.trans ?_, hrest⟩ <;> split <;> omega

/-- The finding on a package: there is one if something is told, and its severity is the worst of it. -/
inductive Finds : Except Fault (Option Record) → List AdvisoryLevel → Prop
  | fault (fault : Fault) : Finds (.error fault) []
  | none : Finds (.ok none) []
  | some {finding : Record} {levels : List AdvisoryLevel} (hsome : levels ≠ [])
      (hworst : IsWorst levels (Record.getD finding "severity" .null)) : Finds (.ok (some finding)) levels

lemma finds_vulnerable (h : Tells (on (package p) s).1 levels) : Finds (on (vulnerable p) s).1 levels := by
  rcases hpackage : on (package p) s with ⟨result, after⟩
  rw [hpackage] at h
  unfold vulnerable
  cases h with
  | fault fault =>
    rw [on_bind, hpackage]
    exact .fault fault
  | vulns h =>
    obtain ⟨ranked, hranked, hall⟩ := exists_ranked h
    rw [on_bind_of_ok hpackage, hranked, on_ok_bind]
    cases ranked with
    | nil =>
      cases hall
      exact .none
    | cons first rest =>
      obtain ⟨best, hbest, hmost, hleast⟩ := exists_mostSevere first rest
      obtain ⟨level, hlevel, hrank, hseverity, hshown⟩ := exists_mem_of_forall₂ hall hbest
      simp only [shownFields, forall_mem_cons] at hshown
      obtain ⟨⟨id, hid⟩, ⟨cves, hcves⟩, ⟨score, hscore⟩, ⟨summary, hsummary⟩, ⟨urls, hurls⟩, -⟩ := hshown
      simp only [hmost, hid, hcves, hseverity, hscore, hsummary, hurls, on_ok_bind, on_pure]
      refine .some (ne_nil_of_mem hlevel) (.level hlevel fun other hother => ?_)
      obtain ⟨x, hx, hother, -⟩ := exists_mem_of_forall₂ hall.flip hother
      rw [← hrank, ← hother]
      exact hleast x hx

end Lookup

/-! ## All packages -/

/-- What look-ups tell one after the other, each from the state that the one before left. -/
inductive Told {ι : Type} (lookUp : ι → LookupState → Except Fault (List Value) × LookupState) :
    LookupState → List ι → List (List AdvisoryLevel) → Prop
  | nil (s : LookupState) : Told lookUp s [] []
  | cons {s : LookupState} {item : ι} {rest : List ι} {levels : List AdvisoryLevel} {known : List (List AdvisoryLevel)}
      (hfirst : Lookup.Tells (lookUp item s).1 levels) (hrest : Told lookUp (lookUp item s).2 rest known) :
      Told lookUp s (item :: rest) (levels :: known)

/-- What packages with vulnerabilities of these levels add to a report. -/
structure Counts (known : List (List AdvisoryLevel)) (before after : DependencyReport) : Prop where
  vulnerable : after.vulnerable = before.vulnerable + known.countP (· ≠ [])
  worst : ∀ levels, IsWorst levels before.worst → IsWorst (levels ++ known.flatten) after.worst

section Counts

variable {report between after : DependencyReport} {levels : List AdvisoryLevel} {known : List (List AdvisoryLevel)}

lemma Counts.nil (report : DependencyReport) : Counts [] report report :=
  ⟨rfl, fun levels hlevels => by rwa [flatten_nil, append_nil]⟩

lemma Counts.cons (hfirst : Counts [levels] report between) (hrest : Counts known between after) :
    Counts (levels :: known) report after := by
  refine ⟨?_, fun earlier hearlier => ?_⟩
  · rw [hrest.vulnerable, hfirst.vulnerable, Nat.add_assoc, ← countP_append, singleton_append]
  · have hboth := hrest.worst _ (hfirst.worst earlier hearlier)
    rwa [flatten_singleton, append_assoc] at hboth

lemma counts_nothing (hvulnerable : after.vulnerable = report.vulnerable) (hworst : after.worst = report.worst) :
    Counts [[]] report after := by
  refine ⟨hvulnerable, fun earlier hearlier => ?_⟩
  rw [hworst]
  simpa using hearlier

lemma counts_addSeverity (h : IsWorst levels severity) (hsome : levels ≠ [])
    (hvulnerable : after.vulnerable = report.vulnerable + 1) (hworst : after.worst = report.worst) :
    Counts [levels] report (after.addSeverity severity) := by
  have htruthy : severity.truthy := by
    cases h with
    | none => exact absurd rfl hsome
    | @level level => cases level <;> rfl
  unfold addSeverity
  rw [if_pos htruthy]
  refine ⟨by simpa [hsome] using hvulnerable, fun earlier hearlier => ?_⟩
  rw [flatten_singleton]
  dsimp only
  rw [hworst]
  exact hearlier.append h hsome

end Counts

open Lookup

/-- The look-up of a requirement: the package index was asked before. -/
def lookUpRequired (requirement : String × Option String) (s : LookupState) : Except Fault (List Value) × LookupState :=
  on (package (requiredPackage requirement)) { s with inquiries := s.inquiries ++ [requirement.1] }

lemma counts_addRequirement (index : PackageIndex) (report : DependencyReport) (s : LookupState)
    (h : Tells (lookUpRequired requirement s).1 levels) :
    Counts [levels] report (addRequirement index report s requirement.1 requirement.2).1 := by
  unfold lookUpRequired requiredPackage at h
  unfold addRequirement lookUpSeverity
  generalize Package.ofTexts "PyPI" requirement.1 (requirement.2.getD "") = p at h ⊢
  generalize ({ s with inquiries := s.inquiries ++ [requirement.1] } : LookupState) = asked at h ⊢
  have hfinds := finds_vulnerable h
  unfold on at hfinds
  generalize ExceptT.run (vulnerable p) asked = looked at hfinds ⊢
  obtain ⟨result, after⟩ := looked
  cases hfinds with
  | fault | none => exact counts_nothing rfl rfl
  | some hsome hworst => exact counts_addSeverity hworst hsome rfl rfl

lemma counts_addRequirements (index : PackageIndex) (h : Told lookUpRequired s requirements known)
    (report : DependencyReport) : Counts known report (addRequirements index (report, s) requirements).1 := by
  induction h generalizing report with
  | nil => exact .nil report
  | @cons s requirement rest levels known hfirst _ ih =>
    rw [addRequirements_cons]
    have hcounts := counts_addRequirement index report s hfirst
    have hstate : (addRequirement index report s requirement.1 requirement.2).2 = (lookUpRequired requirement s).2 := by
      rw [addRequirement_snd, on_vulnerable_snd, lookUpRequired]
    rw [← hstate] at ih
    generalize addRequirement index report s requirement.1 requirement.2 = added at hcounts ih ⊢
    exact hcounts.cons (ih added.1)

lemma counts_addPackage (report : DependencyReport) (s : LookupState) (name : Value) (spec : String)
    (hp : versioned [(name, .str spec)] = [p]) (h : Tells (on (package p) s).1 levels) :
    ∃ report', addPackage report s name (.str spec) = (.ok report', (on (package p) s).2) ∧
      Counts [levels] report report' := by
  obtain rfl := head_eq_of_cons_eq hp
  unfold addPackage
  dsimp only
  generalize ({ ecosystem := .str "npm", name, version := .str (Text.stripStartOf "^~><=!" spec) } : Package) = p at h ⊢
  have hfinds := finds_vulnerable h
  rw [← on_vulnerable_snd]
  unfold on at hfinds ⊢
  generalize ExceptT.run (vulnerable p) s = looked at hfinds ⊢
  obtain ⟨result, after⟩ := looked
  cases hfinds with
  | fault | none => exact ⟨_, rfl, counts_nothing rfl rfl⟩
  | some hsome hworst => exact ⟨_, rfl, counts_addSeverity hworst hsome rfl rfl⟩

variable {known : List (List AdvisoryLevel)}

lemma counts_addPackages (hall : AllVersioned packages)
    (h : Told (fun p => on (package p)) s (versioned packages) known) (report : DependencyReport) :
    ∃ report', (addPackages report s packages).1 = .ok report' ∧ Counts known report report' := by
  induction packages generalizing report s known with
  | nil =>
    cases h
    exact ⟨report, rfl, .nil report⟩
  | cons declared rest ih =>
    obtain ⟨name, spec⟩ := declared
    obtain ⟨⟨text, rfl⟩, hrest⟩ := forall_mem_cons.mp hall
    rw [versioned] at h
    cases h with
    | cons hfirst hlater =>
      obtain ⟨between, hadd, hcounts⟩ := counts_addPackage report s name text rfl hfirst
      obtain ⟨after, hafter, hmore⟩ := ih hrest hlater between
      rw [addPackages, hadd]
      exact ⟨after, hafter, hcounts.cons hmore⟩

/-! ## Whole projects -/

lemma exists_content_of_text {files : FileTree} (h : files.text mode path = .ok text) :
    files.isThere path ∧ ∃ content, files.content path = .ok content := by
  simp only [FileTree.text, FileTree.rawText, bind_eq_ok_iff] at h
  obtain ⟨_, ⟨content, hcontent, -⟩, -⟩ := h
  refine ⟨?_, content, hcontent⟩
  obtain ⟨entry, hentry, -⟩ := of_bind hcontent
  exact isOk_iff.mpr ⟨entry, hentry⟩

/-- A description whose lists of dependencies are records of texts. -/
def DeclaresTexts (fields : Record) : Prop :=
  ∀ name ∈ ["dependencies", "devDependencies"], ∃ declared,
    Record.getD fields name (.obj []) = .obj declared ∧ ∀ entry ∈ declared, ∃ spec, entry.2 = .str spec

lemma allVersioned_putEntry (h : AllVersioned found) (name : Value) (spec : String) :
    AllVersioned (Value.putEntry found name (.str spec)) := by
  unfold Value.putEntry
  split
  · intro entry hentry
    obtain ⟨old, hold, rfl⟩ := mem_map.mp hentry
    split
    · exact ⟨spec, rfl⟩
    · exact h old hold
  · exact forall_mem_append.mpr ⟨h, by simp⟩

lemma exists_declaredPackages (h : DeclaresTexts fields) :
    ∃ packages, declaredPackages (.obj fields) = .ok packages ∧ AllVersioned packages := by
  obtain ⟨needed, hneeded, hruns⟩ := h "dependencies" (by simp)
  obtain ⟨developing, hdeveloping, hdevelops⟩ := h "devDependencies" (by simp)
  unfold declaredPackages
  rw [Value.part_of_fields rfl, Value.part_of_fields rfl, hneeded, hdeveloping]
  refine ⟨_, rfl, ?_⟩
  refine foldlRecOn _ _ ?_ fun found hfound entry hentry => ?_
  · exact forall_mem_map.mpr hruns
  · obtain ⟨declared, hdeclared, rfl⟩ := mem_map.mp hentry
    obtain ⟨spec, hspec⟩ := hdevelops declared hdeclared
    dsimp only
    rw [hspec]
    exact allVersioned_putEntry hfound _ spec

/-- A report that sums up what is known about each dependency. -/
structure SumsUp (report : DependencyReport) (known : List (List AdvisoryLevel)) : Prop where
  worst : IsWorst known.flatten report.worst
  vulnerable : report.vulnerable = known.countP (· ≠ [])

lemma Counts.sumsUp (h : Counts known {} report) : SumsUp report known :=
  ⟨h.worst [] .none, h.vulnerable.trans (Nat.zero_add _)⟩

/-- Whatever the look-ups tell, the report has the worst severity and the number of packages with something told. -/
theorem severities_summed_up (files : FileTree) (path : String) (s : LookupState) :
    (∀ index text known, files.text .refuse (join path "requirements.txt") = .ok text →
      Told lookUpRequired s (requirementsOf text) known →
        ∃ report, (pythonDependencies files index path s).1 = .ok report ∧ SumsUp report known) ∧
    ∀ fields, files.text .refuse (join path "package.json") >>= Json.read = .ok (.obj fields) → DeclaresTexts fields →
      ∃ packages, declaredPackages (.obj fields) = .ok packages ∧ AllVersioned packages ∧
        ∀ known, Told (fun p => on (package p)) s (versioned packages) known →
          ∃ report, (javascriptDependencies files path s).1 = .ok report ∧ SumsUp report known := by
  refine ⟨fun index text known htext htold => ?_, fun fields hread hfields => ?_⟩
  · refine ⟨_, ?_, (counts_addRequirements index htold {}).sumsUp⟩
    rw [pythonDependencies_eq, if_pos (exists_content_of_text htext).1, htext]
  · obtain ⟨packages, hpackages, hall⟩ := exists_declaredPackages hfields
    obtain ⟨text, htext, -⟩ := bind_eq_ok_iff.mp hread
    obtain ⟨hthere, content, hcontent⟩ := exists_content_of_text htext
    have hdescribed : describedPackages files path = .ok packages := by
      unfold describedPackages
      rw [if_pos hthere, hcontent, ok_bind, hread]
      exact hpackages
    refine ⟨packages, hpackages, hall, fun known htold => ?_⟩
    obtain ⟨report, hreport, hcounts⟩ := counts_addPackages hall htold {}
    rw [javascriptDependencies_eq, hdescribed]
    exact ⟨report, hreport, hcounts.sumsUp⟩

/-- A database that knows two vulnerabilities of the package asked for first, then fails, and then knows one more. -/
def fickleDatabase : LookupState where
  network := { replies := [known ["LOW", "HIGH"], .failed, known ["CRITICAL"]] }
  cache := { ttl := .int 86400, directory := none }
  clock := 0
where
  known (severities : List String) : Reply :=
    .answer 200 (.document (.obj [("vulns", .list (severities.map fun severity =>
      .obj [("database_specific", .obj [("severity", .str severity)])]))]))

def describedProject : Record := [("dependencies", .obj [("left-pad", .str "^1.0")])]

/-- A project of both kinds. -/
def mixedProject : FileTree where
  entries :=
    [(["requirements.txt"], .file (.text "six==1.0\nurllib3\n")),
     (["package.json"], .file (.text (Json.write .line (.obj describedProject))))]

theorem severities_summed_up_mixedProject :
    (∃ report, (pythonDependencies mixedProject [] "" fickleDatabase).1 = .ok report ∧
      SumsUp report [[.low, .high], []]) ∧
    ∃ report, (javascriptDependencies mixedProject "" fickleDatabase).1 = .ok report ∧ SumsUp report [[.low, .high]] := by
  obtain ⟨hpython, hjavascript⟩ := severities_summed_up mixedProject "" fickleDatabase
  refine ⟨hpython [] "six==1.0\nurllib3\n" _ rfl ?_, ?_⟩
  · exact .cons (.vulns (.cons (isLabelled_toRecord _) (.cons (isLabelled_toRecord _) .nil)))
      (.cons (.fault _) (.nil _))
  · have hread : mixedProject.text .refuse (join "" "package.json") >>= Json.read = .ok (.obj describedProject) := by
      rw [FileTree.text_of_content rfl, ok_bind, Json.read_file (by decide)]
    have htexts : DeclaresTexts describedProject := by
      simp [DeclaresTexts, describedProject, Record.getD, Record.get?]
    obtain ⟨packages, hpackages, -, hreport⟩ := hjavascript describedProject hread htexts
    cases hpackages
    exact hreport _ (.cons (.vulns (.cons (isLabelled_toRecord _) (.cons (isLabelled_toRecord _) .nil))) (.nil _))

end CodeAudit

import CodeAudit.Dependencies.Requirements
import CodeAudit.Proofs.Dependencies.Progress
import Mathlib.Data.List.TakeWhile

/-!
# Lines of a requirements file

A line names a package and may compare its version. Names are made of letters, digits and `._-`, but the reader stops
at the first dot: such a line is read as a requirement of another package, of any version. All other lines are read as
written (`reread_iff`).
-/

namespace CodeAudit.Requirement

open List

/-- The name of a package: letters, digits and `._-`, with a letter or a digit at both ends. -/
structure IsName (name : String) : Prop where
  chars : ∀ c ∈ name.toList, c.isAlphanum ∨ c ∈ ['.', '_', '-']
  first : ∃ c ∈ name.toList.head?, c.isAlphanum
  last : ∃ c ∈ name.toList.getLast?, c.isAlphanum

def operators : List String := ["==", ">=", "<=", "!=", "~=", "<", ">"]

def IsVersion (version : String) : Prop := ∀ c ∈ version.toList, c.isAlphanum ∨ c ∈ ['_', '.']

/-- What comes before the first dot. -/
def stem (name : String) : String := .ofList (name.toList.takeWhile (· != '.'))

variable {name op version : String} {c : Char}

lemma isAlphanum_eq (c : Char) : c.isAlphanum = (Text.isAsciiLetter c || Text.isAsciiDigit c) := by
  unfold Char.isAlphanum Char.isAlpha Char.isUpper Char.isLower Char.isDigit
  rw [Bool.eq_iff_iff]
  simp [Text.isAsciiLetter, Text.isAsciiDigit, Char.le_def, or_comm]

lemma isPackageChar_eq (c : Char) : isPackageChar c = (c.isAlphanum || c == '_' || c == '-') := by
  rw [isAlphanum_eq, isPackageChar]

lemma isVersionChar_eq (c : Char) : isVersionChar c = (c.isAlphanum || c == '_' || c == '.') := by
  rw [isAlphanum_eq, isVersionChar]

lemma not_chars_of_isComparison (h : isComparison c) : isVersionChar c = false ∧ isPackageChar c = false := by
  simp only [isComparison, Bool.or_eq_true, beq_iff_eq] at h
  rcases h with (((rfl | rfl) | rfl) | rfl) | rfl <;> decide

/-- A name is read up to what cannot belong to it. -/
lemma read_append (hne : first ≠ []) (hfirst : ∀ c ∈ first, isPackageChar c)
    (hrest : ∀ c ∈ rest.head?, isPackageChar c = false) :
    readRequirement (first ++ rest) = some (.ofList first, readVersion rest) := by
  have hstop : rest.takeWhile isPackageChar = [] ∧ rest.dropWhile isPackageChar = rest := by
    cases rest with
    | nil => exact ⟨rfl, rfl⟩
    | cons c cs => simp [hrest c rfl]
  unfold readRequirement
  rw [takeWhile_append_of_pos hfirst, dropWhile_append_of_pos hfirst, hstop.1, append_nil, hstop.2]
  exact if_neg (by simpa using hne)

lemma readVersion_dot (more : List Char) : readVersion ('.' :: more) = none := by
  have hsame : ('.' :: more).dropWhile isComparison = '.' :: more := dropWhile_cons_of_neg (by decide)
  unfold readVersion
  rw [hsame]
  simp

lemma compares_of_mem (h : op ∈ operators) : op.toList.all isComparison ∧ op.toList ≠ [] := by
  revert op
  decide

lemma readVersion_comparison (hop : op ∈ operators) (hversion : IsVersion version) :
    readVersion (op.toList ++ version.toList) = if version = "" then none else some version := by
  obtain ⟨hcompares, hne⟩ := compares_of_mem hop
  have hchars : ∀ c ∈ version.toList, isVersionChar c := fun c hc => by
    simpa [isVersionChar_eq, or_assoc] using hversion c hc
  have hcompared : (op.toList ++ version.toList).dropWhile isComparison = version.toList := by
    rw [dropWhile_append_of_pos (all_eq_true.mp hcompares)]
    cases hlist : version.toList with
    | nil => rfl
    | cons c cs =>
      refine dropWhile_cons_of_neg fun hc => ?_
      have hin : isVersionChar c := hchars c (hlist ▸ mem_cons_self)
      rw [(not_chars_of_isComparison hc).1] at hin
      cases hin
  have hlonger : version.toList.length < (op.toList ++ version.toList).length := by
    rw [length_append]
    have hpositive := length_pos_iff.mpr hne
    omega
  unfold readVersion
  rw [hcompared]
  dsimp only
  rw [takeWhile_eq_self_iff.mpr hchars, decide_eq_true hlonger, Bool.true_and]
  by_cases hempty : version = "" <;> simp [hempty]

lemma stem_eq_iff : stem name = name ↔ '.' ∉ name.toList := by
  rw [stem, ← String.toList_inj, String.toList_ofList, takeWhile_eq_self_iff]
  simp only [bne_iff_ne, ne_eq, forall_mem_ne']

/-- After its stem a name goes on with a dot, or not at all. -/
lemma exists_stem_append (name : String) : ∃ after, name.toList = (stem name).toList ++ after ∧
    (after = [] ∧ '.' ∉ name.toList ∨ (∃ more, after = '.' :: more) ∧ '.' ∈ name.toList) := by
  by_cases hdot : '.' ∈ name.toList
  · obtain ⟨before, more, hsplit, hbefore⟩ := eq_append_cons_of_mem hdot
    have hstem : (stem name).toList = before := by
      rw [stem, String.toList_ofList, hsplit, takeWhile_append_of_pos, takeWhile_cons_of_neg (by decide), append_nil]
      exact fun c hc => bne_iff_ne.mpr fun heq => hbefore (heq ▸ hc)
    exact ⟨'.' :: more, by rw [hstem, hsplit], .inr ⟨⟨more, rfl⟩, hdot⟩⟩
  · exact ⟨[], by rw [stem_eq_iff.mpr hdot, append_nil], .inl ⟨rfl, hdot⟩⟩

lemma IsName.stem_ne_nil (h : IsName name) : (stem name).toList ≠ [] := by
  obtain ⟨c, hc, halphanum⟩ := h.first
  obtain ⟨cs, hcs⟩ := head?_eq_some_iff.mp hc
  rw [stem, String.toList_ofList, hcs]
  intro hnil
  -- the first character would have to be a dot
  have hdot : c = '.' := by simpa [takeWhile_cons] using hnil
  rw [hdot] at halphanum
  exact absurd halphanum (by decide)

/-- A name with something after it that cannot belong to it is read up to its first dot. -/
lemma IsName.read (h : IsName name) {tail : List Char} (htail : ∀ c ∈ tail.head?, isPackageChar c = false) :
    readRequirement (name.toList ++ tail) = some (stem name, if '.' ∈ name.toList then none else readVersion tail) := by
  have hchars : ∀ c ∈ (stem name).toList, isPackageChar c := by
    intro c hc
    rw [stem, String.toList_ofList] at hc
    have hother := mem_takeWhile_imp hc
    simpa [isPackageChar_eq, bne_iff_ne.mp hother, or_assoc] using h.chars c ((takeWhile_sublist _).subset hc)
  obtain ⟨after, hsplit, ⟨rfl, hdot⟩ | ⟨⟨more, rfl⟩, hdot⟩⟩ := exists_stem_append name
  · rw [if_neg hdot, hsplit, append_nil, read_append h.stem_ne_nil hchars htail, String.ofList_toList]
  · rw [if_pos hdot, hsplit, append_assoc, cons_append, read_append h.stem_ne_nil hchars, String.ofList_toList,
      readVersion_dot]
    rintro c ⟨⟩
    decide

/-- **How lines are read.** The name ends at its first dot, and then no version is read; so a line is read back as
written exactly when the name has no dot and the version is not empty. -/
theorem reread_iff (hname : IsName name) (hop : op ∈ operators) (hversion : IsVersion version) :
    readRequirement (name ++ op ++ version).toList =
        some (stem name, if '.' ∈ name.toList ∨ version = "" then none else some version) ∧
      readRequirement name.toList = some (stem name, none) ∧
      (readRequirement (name ++ op ++ version).toList = some (name, some version) ∧
          readRequirement name.toList = some (name, none) ↔ '.' ∉ name.toList ∧ version ≠ "") := by
  have hopens : ∀ c ∈ (op.toList ++ version.toList).head?, isPackageChar c = false := by
    obtain ⟨hcompares, hne⟩ := compares_of_mem hop
    obtain ⟨first, rest, hfirst⟩ := exists_cons_of_ne_nil hne
    rw [hfirst] at hcompares ⊢
    rintro c ⟨⟩
    exact (not_chars_of_isComparison (all_eq_true.mp hcompares first mem_cons_self)).2
  have hline := hname.read hopens
  have halone : readRequirement name.toList = some (stem name, none) := by
    have hend : ∀ c ∈ ([] : List Char).head?, isPackageChar c = false := by simp
    simpa [readVersion] using hname.read hend
  rw [readVersion_comparison hop hversion, ← ite_or, ← append_assoc, ← String.toList_append, ← String.toList_append] at hline
  refine ⟨hline, halone, ?_⟩
  rw [hline, halone]
  by_cases hdot : '.' ∈ name.toList <;> by_cases hempty : version = "" <;> simp [hdot, hempty, stem_eq_iff]

/-- A requirement of one package is read as one of another. -/
theorem reread_dotted : IsName "zope.interface" ∧ IsVersion "5.4.0" ∧
    readRequirement ("zope.interface" ++ "==" ++ "5.4.0").toList = some ("zope", none) ∧
    readRequirement "zope.interface".toList ≠ some ("zope.interface", none) := by
  have hname : IsName "zope.interface" := ⟨by simp, by simp, by simp⟩
  have hversion : IsVersion "5.4.0" := by simp [IsVersion]
  have hop : "==" ∈ operators := by decide
  obtain ⟨hline, halone, -⟩ := reread_iff hname hop hversion
  exact ⟨hname, hversion, hline.trans (by decide), halone ▸ by decide⟩

end CodeAudit.Requirement

/-!
## What the check of dependencies asks for

The package index is asked for the newest version of every requirement of a Python project. The database is asked for
vulnerabilities only where the cache has no answer, so a request is sent exactly when the cache misses a package
(`Asks`), and without a miss nothing changes.
-/

namespace CodeAudit

open Proofs Proofs.Steps List Path LookupState

namespace Lookup

variable {s t u : LookupState}

/-- The cache has no answer on a package that still counts. -/
def Misses (s : LookupState) (p : Package) : Prop := s.cache.get s.clock p = .ok none

/-- What looking packages up does to the state. The packages the index was asked for are left out. -/
structure Asks (packages : List Package) (before after : LookupState) : Prop where
  /-- Requests are added to those that were sent. -/
  grows : before.network.requests <+: after.network.requests
  /-- A package that the cache misses is asked for. -/
  sends : (∃ p ∈ packages, Misses before p) → after.network.requests ≠ before.network.requests
  /-- Without a miss nothing is sent and nothing stored. -/
  same : (∀ p ∈ packages, ¬ Misses before p) →
    after.network = before.network ∧ after.cache = before.cache ∧ after.clock = before.clock

lemma Asks.nil (s : LookupState) : Asks [] s s :=
  ⟨prefix_rfl, by simp, fun _ => ⟨rfl, rfl, rfl⟩⟩

lemma Asks.append (hst : Asks first s t) (htu : Asks second t u) : Asks (first ++ second) s u := by
  -- as long as nothing was missed, the second part finds the state as it was
  have hstate : (∀ p ∈ first, ¬ Misses s p) → t.network = s.network ∧ ∀ p, Misses t p ↔ Misses s p := by
    intro hnone
    obtain ⟨hnetwork, hcache, hclock⟩ := hst.same hnone
    refine ⟨hnetwork, fun p => ?_⟩
    unfold Misses
    rw [hcache, hclock]
  refine ⟨hst.grows.trans htu.grows, ?_, ?_⟩
  · rintro ⟨p, hp, hmiss⟩ hunsent
    by_cases hfirst : ∃ q ∈ first, Misses s q
    · -- the requests of the first part are still there
      have hlength : t.network.requests.length ≤ s.network.requests.length := hunsent ▸ htu.grows.length_le
      exact hst.sends hfirst (hst.grows.eq_of_length_le hlength).symm
    · have hnone : ∀ q ∈ first, ¬ Misses s q := fun q hq hmisses => hfirst ⟨q, hq, hmisses⟩
      obtain ⟨hnetwork, hmisses⟩ := hstate hnone
      have hsecond : p ∈ second := (mem_append.mp hp).resolve_left fun hin => hnone p hin hmiss
      refine htu.sends ⟨p, hsecond, (hmisses p).mpr hmiss⟩ ?_
      rw [hunsent, hnetwork]
  · intro hnone
    have hfirst : ∀ p ∈ first, ¬ Misses s p := fun p hp => hnone p (mem_append_left _ hp)
    have hmisses := (hstate hfirst).2
    have hsecond : ∀ p ∈ second, ¬ Misses t p :=
      fun p hp hmiss => hnone p (mem_append_right _ hp) ((hmisses p).mp hmiss)
    obtain ⟨hn, hc, hk⟩ := hst.same hfirst
    obtain ⟨hn', hc', hk'⟩ := htu.same hsecond
    exact ⟨hn'.trans hn, hc'.trans hc, hk'.trans hk⟩

lemma Asks.requests_ne_iff (h : Asks packages s t) :
    t.network.requests ≠ s.network.requests ↔ ∃ p ∈ packages, Misses s p := by
  refine ⟨fun hsent => ?_, h.sends⟩
  by_contra hnone
  refine hsent ?_
  rw [(h.same fun p hp hmiss => hnone ⟨p, hp, hmiss⟩).1]

/-! ## One package -/

/-- An attempt that is made leaves a request behind, whatever comes of it. -/
lemma requests_sendFrom_ne (request : Request) (left attempt : Nat) (n : Network) :
    (sendFrom request (left + 1) attempt n).2.requests ≠ n.requests := by
  obtain ⟨made, hmakes, -, hrequests, -⟩ := exists_makes request left.succ_pos attempt n
  rw [hrequests, ne_eq, append_right_eq_self, replicate_eq_nil_iff]
  exact Nat.ne_of_gt hmakes.positive

lemma keeps_ofExcept (view : LookupState → γ) (result : Except Fault α) : Keeps view (ofExcept result) :=
  fun s => by rw [on_ofExcept]

variable (p : Package)

lemma on_vulnerable_snd (s : LookupState) : (on (vulnerable p) s).2 = (on (package p) s).2 := by
  unfold vulnerable
  refine on_bind_snd (fun vulns => ?_) s
  refine (keeps_ofExcept _ _).bind fun ranked => ?_
  cases mostSevere ranked with
  | none => exact .pure _
  | some worst =>
    refine (keeps_ofExcept _ _).bind fun id => (keeps_ofExcept _ _).bind fun cves => ?_
    refine (keeps_ofExcept _ _).bind fun severity => (keeps_ofExcept _ _).bind fun score => ?_
    exact (keeps_ofExcept _ _).bind fun summary => (keeps_ofExcept _ _).bind fun urls => .pure _

lemma on_package_snd_of_not_misses {p : Package} (h : ¬ Misses s p) : (on (package p) s).2 = s := by
  unfold Misses at h
  unfold package
  rw [on_bind, on_cached]
  cases hget : s.cache.get s.clock p with
  | error fault => rfl
  | ok found =>
    cases found with
    | none => exact absurd hget h
    | some vulns => rfl

lemma network_package_of_misses {p : Package} (h : Misses s p) :
    (on (package p) s).2.network = (sendFrom (queryRequest p) maxAttempts 0 s.network).2 := by
  have hstore : ∀ vulns, Keeps network (store p vulns) := network_store p
  unfold package
  rw [on_bind, on_cached, h]
  dsimp only
  rw [on_bind, on_send]
  cases (sendFrom (queryRequest p) maxAttempts 0 s.network).1 with
  | error fault => rfl
  | ok answer =>
    cases answer with
    | none => rfl
    | some answer =>
      exact (keeps_ofExcept _ _).bind (fun vulns => (hstore (.list vulns)).bind fun _ => .pure _) _

lemma asks_vulnerable (s : LookupState) : Asks [p] s (on (vulnerable p) s).2 := by
  rw [on_vulnerable_snd]
  by_cases hmiss : Misses s p
  · refine ⟨?_, fun _ => ?_, fun hnone => absurd hmiss (hnone p (mem_singleton.mpr rfl))⟩
    · rw [network_package_of_misses hmiss]
      obtain ⟨sent, hsent, -⟩ := follows_sendFrom (queryRequest p) maxAttempts 0 s.network
      exact ⟨sent, hsent.symm⟩
    · rw [network_package_of_misses hmiss]
      exact requests_sendFrom_ne _ _ _ _
  · rw [on_package_snd_of_not_misses hmiss]
    refine ⟨prefix_rfl, ?_, fun _ => ⟨rfl, rfl, rfl⟩⟩
    rintro ⟨q, hq, hq'⟩
    cases mem_singleton.mp hq
    exact absurd hq' hmiss

lemma inquiries_vulnerable (s : LookupState) : (on (vulnerable p) s).2.inquiries = s.inquiries := by
  have hsend : ∀ request, Keeps inquiries (send request) := fun request s => by rw [on_send]
  have hstore : ∀ vulns, Keeps inquiries (store p vulns) := by
    intro vulns s
    rw [on_store]
    cases s.cache.put s.clock p vulns <;> rfl
  have hcached : Keeps inquiries (cached p) := fun s => by rw [on_cached]
  have hpackage : Keeps inquiries (package p) := by
    refine hcached.bind fun found => ?_
    cases found with
    | some vulns => exact .pure _
    | none =>
      refine (hsend _).bind fun answer => ?_
      cases answer with
      | none => exact .pure _
      | some answer => exact (keeps_ofExcept _ _).bind fun vulns => (hstore _).bind fun _ => .pure _
  rw [on_vulnerable_snd, hpackage s]

end Lookup

/-! ## Requirements of Python projects -/

open Lookup

variable (files : FileTree) (path : String) (index : PackageIndex) (report : DependencyReport)
  (s : LookupState)

def namedRequirements : List (String × Option String) :=
  if files.isThere (join path "requirements.txt") then
    match files.text .refuse (join path "requirements.txt") with
    | .ok text => requirementsOf text
    | .error _ => []
  else []

def requiredPackage (requirement : String × Option String) : Package :=
  .ofTexts "PyPI" requirement.1 (requirement.2.getD "")

lemma lookUpSeverity_snd (p : Package) (s : LookupState) : (lookUpSeverity p s).2 = (on (vulnerable p) s).2 := by
  unfold lookUpSeverity on
  rcases ExceptT.run (vulnerable p) s with ⟨result, after⟩
  cases result with
  | error fault => rfl
  | ok found => cases found <;> rfl

lemma dependencies_addSeverity (severity : Value) :
    (report.addSeverity severity).dependencies = report.dependencies := by
  unfold DependencyReport.addSeverity
  split <;> rfl

section Requirement

variable (index : PackageIndex) (report : DependencyReport) (s : LookupState) (name : String) (version : Option String)

lemma addRequirement_snd : (addRequirement index report s name version).2 =
    (on (vulnerable (requiredPackage (name, version))) { s with inquiries := s.inquiries ++ [name] }).2 := by
  rw [← lookUpSeverity_snd]
  unfold addRequirement requiredPackage
  rcases lookUpSeverity _ _ with ⟨severity, after⟩
  rfl

lemma asks_addRequirement :
    Asks [requiredPackage (name, version)] s (addRequirement index report s name version).2 := by
  -- the list of inquiries is none of what `Asks` speaks about
  have h := asks_vulnerable (requiredPackage (name, version)) { s with inquiries := s.inquiries ++ [name] }
  rw [addRequirement_snd]
  exact ⟨h.grows, h.sends, h.same⟩

lemma inquiries_addRequirement : (addRequirement index report s name version).2.inquiries = s.inquiries ++ [name] := by
  rw [addRequirement_snd, inquiries_vulnerable]

lemma length_addRequirement :
    (addRequirement index report s name version).1.dependencies.length = report.dependencies.length + 1 := by
  unfold addRequirement
  rcases lookUpSeverity _ _ with ⟨severity, after⟩
  cases severity with
  | none => exact length_append
  | some w =>
    dsimp only
    rw [dependencies_addSeverity]
    exact length_append

end Requirement

def addRequirements (start : DependencyReport × LookupState)
    (requirements : List (String × Option String)) : DependencyReport × LookupState :=
  requirements.foldl (fun (report, s) (name, version) => addRequirement index report s name version) start

lemma addRequirements_cons (requirement : String × Option String) (rest : List (String × Option String)) :
    addRequirements index (report, s) (requirement :: rest) =
      addRequirements index (addRequirement index report s requirement.1 requirement.2) rest := by
  unfold addRequirements
  rw [foldl_cons]

/-- The index is asked about each requirement in turn, and each is looked up and has its entry. -/
lemma addRequirements_asks (requirements : List (String × Option String)) :
    Asks (requirements.map requiredPackage) s (addRequirements index (report, s) requirements).2 ∧
      (addRequirements index (report, s) requirements).2.inquiries = s.inquiries ++ requirements.map (·.1) ∧
      (addRequirements index (report, s) requirements).1.dependencies.length =
        report.dependencies.length + requirements.length := by
  induction requirements generalizing report s with
  | nil => exact ⟨.nil s, (append_nil _).symm, rfl⟩
  | cons requirement rest ih =>
    obtain ⟨name, version⟩ := requirement
    rw [addRequirements_cons]
    have hasks := asks_addRequirement index report s name version
    have hinquiries := inquiries_addRequirement index report s name version
    have hlength := length_addRequirement index report s name version
    generalize addRequirement index report s name version = added at hasks hinquiries hlength ⊢
    obtain ⟨report', s'⟩ := added
    obtain ⟨hrest, hmore, hsum⟩ := ih report' s'
    refine ⟨hasks.append hrest, ?_, ?_⟩
    · rw [hmore, hinquiries, append_assoc]
      rfl
    · rw [hsum, hlength, length_cons]
      omega

lemma pythonDependencies_eq (path : String) (s : LookupState) :
    pythonDependencies files index path s = if files.isThere (join path "requirements.txt") then
        match files.text .refuse (join path "requirements.txt") with
        | .ok text => (.ok (addRequirements index ({}, s) (requirementsOf text)).1,
            (addRequirements index ({}, s) (requirementsOf text)).2)
        | .error fault => (.error fault, s)
      else (.ok {}, s) := by
  unfold pythonDependencies
  dsimp only
  cases files.isThere (join path "requirements.txt") with
  | false => rfl
  | true => cases files.text .refuse (join path "requirements.txt") <;> rfl

/-- Every requirement of a Python project is asked about, however the check ends, and the report has an entry for each.
-/
lemma pythonDependencies_asks (path : String) (s : LookupState) :
    Asks ((namedRequirements files path).map requiredPackage) s (pythonDependencies files index path s).2 ∧
      (pythonDependencies files index path s).2.inquiries = s.inquiries ++ (namedRequirements files path).map (·.1) ∧
      ∀ report, (pythonDependencies files index path s).1 = .ok report →
        report.dependencies.length = (namedRequirements files path).length := by
  rw [pythonDependencies_eq]
  unfold namedRequirements
  cases files.isThere (join path "requirements.txt") with
  | false =>
    refine ⟨.nil s, (append_nil _).symm, ?_⟩
    rintro report ⟨⟩
    rfl
  | true =>
    cases files.text .refuse (join path "requirements.txt") with
    | error fault =>
      refine ⟨.nil s, (append_nil _).symm, ?_⟩
      rintro report ⟨⟩
    | ok text =>
      obtain ⟨hasks, hinquiries, hlength⟩ := addRequirements_asks index {} s (requirementsOf text)
      refine ⟨hasks, hinquiries, ?_⟩
      rintro report ⟨⟩
      exact hlength.trans (Nat.zero_add _)

/-! ## Packages of Javascript projects -/

def describedPackages : Except Fault (List (Value × Value)) :=
  if files.isThere (join path "package.json") then do
    let _ ← files.content (join path "package.json")
    match files.text .refuse (join path "package.json") >>= Json.read with
    | .error _ => return []
    | .ok description => declaredPackages description
  else return []

lemma javascriptDependencies_eq : javascriptDependencies files path s = match describedPackages files path with
      | .error fault => (.error fault, s)
      | .ok packages => addPackages {} s packages := by
  unfold javascriptDependencies describedPackages
  dsimp only
  cases files.isThere (join path "package.json") with
  | false => rfl
  | true =>
    simp only [Bool.not_true, Bool.false_eq_true, if_false, if_true]
    cases files.content (join path "package.json") with
    | error fault => rfl
    | ok content =>
      rw [ok_bind]
      dsimp only
      cases files.text .refuse (join path "package.json") >>= Json.read with
      | error fault => rfl
      | ok description =>
        cases hdeclared : declaredPackages description <;> simp only [hdeclared]

/-- The packages that are looked up: those before the first whose version is no text. -/
def versioned : List (Value × Value) → List Package
  | (name, .str spec) :: rest =>
    { ecosystem := .str "npm", name, version := .str (Text.stripStartOf "^~><=!" spec) } :: versioned rest
  | _ => []

def AllVersioned (packages : List (Value × Value)) : Prop := ∀ package ∈ packages, ∃ spec, package.2 = .str spec

/-- One package whose version is a text: it is looked up, and has its entry whatever is known about it. -/
lemma addPackage_asks (name : Value) (spec : String) :
    ∃ report' s', addPackage report s name (.str spec) = (.ok report', s') ∧
      Asks (versioned [(name, .str spec)]) s s' ∧ s'.inquiries = s.inquiries ∧
      report'.dependencies.length = report.dependencies.length + 1 := by
  unfold addPackage versioned
  dsimp only
  generalize ({ ecosystem := .str "npm", name, version := .str (Text.stripStartOf "^~><=!" spec) } : Package) = p
  have hasks := asks_vulnerable p s
  have hinquiries := inquiries_vulnerable p s
  unfold on at hasks hinquiries
  generalize ExceptT.run (vulnerable p) s = looked at hasks hinquiries ⊢
  obtain ⟨result, after⟩ := looked
  have hplain : ∀ entry : Record, (report.dependencies ++ [entry]).length = report.dependencies.length + 1 :=
    fun entry => length_append
  cases result with
  | error fault => exact ⟨_, after, rfl, hasks, hinquiries, hplain _⟩
  | ok found =>
    cases found with
    | none => exact ⟨_, after, rfl, hasks, hinquiries, hplain _⟩
    | some finding =>
      refine ⟨_, after, rfl, hasks, hinquiries, ?_⟩
      rw [dependencies_addSeverity]
      exact hplain _

/-- Packages are looked up until one has a version that is no text. If there is none, each has its entry. -/
lemma addPackages_asks (packages : List (Value × Value)) :
    Asks (versioned packages) s (addPackages report s packages).2 ∧
      (addPackages report s packages).2.inquiries = s.inquiries ∧
      ((∃ result, (addPackages report s packages).1 = .ok result) ↔ AllVersioned packages) ∧
      ∀ result, (addPackages report s packages).1 = .ok result →
        result.dependencies.length = report.dependencies.length + packages.length := by
  induction packages generalizing report s with
  | nil =>
    refine ⟨.nil s, rfl, iff_of_true ⟨report, rfl⟩ (by simp [AllVersioned]), ?_⟩
    rintro result ⟨⟩
    rfl
  | cons package rest ih =>
    obtain ⟨name, spec⟩ := package
    by_cases htext : ∃ text, spec = .str text
    · obtain ⟨text, rfl⟩ := htext
      obtain ⟨report', s', hadd, hasks, hinquiries, hlength⟩ := addPackage_asks report s name text
      obtain ⟨hrest, hkept, hends, hsum⟩ := ih report' s'
      have hstep : addPackages report s ((name, .str text) :: rest) = addPackages report' s' rest := by
        rw [addPackages, hadd]
      rw [hstep]
      refine ⟨hasks.append hrest, hkept.trans hinquiries, hends.trans ?_, fun result hresult => ?_⟩
      · unfold AllVersioned
        rw [forall_mem_cons, and_iff_right ⟨text, rfl⟩]
      · rw [hsum result hresult, hlength, length_cons]
        omega
    · have hstep : addPackages report s ((name, spec) :: rest) = (.error .noSuchPart, s) := by
        rw [addPackages]
        cases spec with
        | str text => exact absurd ⟨text, rfl⟩ htext
        | _ => rfl
      have hnone : versioned ((name, spec) :: rest) = [] := by
        cases spec with
        | str text => exact absurd ⟨text, rfl⟩ htext
        | _ => rfl
      rw [hstep, hnone]
      refine ⟨.nil s, rfl, ?_, ?_⟩
      · refine iff_of_false ?_ fun hall => htext (hall _ mem_cons_self)
        rintro ⟨result, ⟨⟩⟩
      · rintro result ⟨⟩

def lookedUpPackages : List Package :=
  match describedPackages files path with
  | .ok packages => versioned packages
  | .error _ => []

/-- The dependencies of a Javascript project are looked up however the check ends, the index is never asked, and the
check ends well exactly when all packages are versioned, with an entry for each. -/
lemma javascriptDependencies_asks : Asks (lookedUpPackages files path) s (javascriptDependencies files path s).2 ∧
      (javascriptDependencies files path s).2.inquiries = s.inquiries ∧
      ((∃ report, (javascriptDependencies files path s).1 = .ok report) ↔
        ∃ packages, describedPackages files path = .ok packages ∧ AllVersioned packages) ∧
      ∀ report packages, (javascriptDependencies files path s).1 = .ok report →
        describedPackages files path = .ok packages → report.dependencies.length = packages.length := by
  rw [javascriptDependencies_eq]
  unfold lookedUpPackages
  cases describedPackages files path with
  | error fault =>
    refine ⟨.nil s, rfl, iff_of_false ?_ ?_, ?_⟩
    · rintro ⟨report, ⟨⟩⟩
    · rintro ⟨packages, ⟨⟩, -⟩
    · rintro report packages ⟨⟩
  | ok packages =>
    obtain ⟨hasks, hinquiries, hends, hlength⟩ := addPackages_asks {} s packages
    refine ⟨hasks, hinquiries, ?_, ?_⟩
    · simpa using hends
    · rintro report _ hreport ⟨⟩
      rw [hlength report hreport]
      exact Nat.zero_add _

end CodeAudit

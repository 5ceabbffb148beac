import CodeAudit.Proofs.Rules.Lookup
import CodeAudit.Rules.Loading

/-!
# Rules that are loaded

An entry of a rule file is checked and then read, and the two take their defaults apart: an empty severity passes the
check, and so does an empty or missing kind, read as that of a call. `loaded_isWellFormed_iff` says which loaded rules
are well formed.

Lenient loading passes over an entry with a problem or an incomplete one, but not over a field on which the check is
not defined or a pattern that is no record (`lenient_load_iff`).
-/

namespace CodeAudit

open Proofs List Value RuleIndex Record RulePattern Text Except Rule

def Value.hasCase (v : Value) : Bool := v.lowered.isOk

lemma Record.has_eq_isSome (r : Record) (name : String) : r.has name = (r.get? name).isSome := by
  unfold has get?
  rw [Option.isSome_map, Bool.eq_iff_iff, find?_isSome, any_eq_true]

namespace Rule

variable {v : Value} {words : List String} {id : String} {fields : Record} {items : List Value} {r : Rule}

/-! ## Problems of an entry -/

section Entry

variable {data : Value} {fields : Record} (hfields : data.namedFields = some fields)

include hfields

lemma member_of_namedFields (name : String) : (str name).member data = .ok (fields.has name) := by
  cases data with
  | obj own =>
    cases Option.some.inj hfields
    refine congrArg ok (Bool.eq_iff_iff.mpr ?_)
    rw [isOneOf_str_iff]
    simp [has]
  | map entries =>
    cases Option.some.inj hfields
    refine congrArg ok (Bool.eq_iff_iff.mpr ?_)
    rw [isOneOf_str_iff, mem_map]
    unfold has
    rw [any_filterMap, any_eq_true]
    refine exists_congr fun entry => and_congr_right fun _ => ?_
    obtain ⟨key, value⟩ := entry
    cases key <;> simp
  | _ => cases hfields

lemma problems_eq (source : String) : problems data source = (fieldProblems fields).map
    ((requiredFields.filter (!fields.has ·)).map (.missing · source) ++ ·) := by
  have hdata : data.fields = .ok fields := by
    unfold Value.fields
    rw [hfields]
  have habsent : requiredFields.filterM (fun field => ((str field).member data).map (!·)) =
      .ok (requiredFields.filter (!fields.has ·)) := by
    rw [filterM_eq_ok fun field _ => ⟨_, by rw [member_of_namedFields hfields]; rfl⟩]
    refine congrArg ok (filter_congr fun field _ => ?_)
    rw [member_of_namedFields hfields]
    cases fields.has field <;> rfl
  unfold problems
  rw [habsent, ok_bind, hdata, ok_bind]
  cases fieldProblems fields <;> rfl

end Entry

lemma isOk_kindProblems (id : String) (kind : Value) :
    (kindProblems id kind).isOk = (!kind.truthy || isLookedUp kind) := by
  unfold kindProblems
  split
  · next hpasses =>
    rcases Bool.or_eq_true_iff.mp hpasses with hempty | hword
    · rw [hempty]
      rfl
    · rw [isLookedUp_of_isWordOf hword, Bool.or_true]
      rfl
  · next hfails =>
    rw [Bool.not_eq_true, Bool.or_eq_false_iff] at hfails
    rw [hfails.1, Bool.false_or]
    cases isLookedUp kind <;> rfl

lemma isOk_languageProblems (id : String) (languages : Value) : (languageProblems id languages).isOk =
    (!languages.truthy || languages.elements.toOption.any (·.all hasCase)) := by
  unfold languageProblems
  cases languages.truthy with
  | false => rfl
  | true =>
    cases languages.elements with
    | error fault => rfl
    | ok items =>
      refine (isOk_bind_pure _ _).trans (isOk_filterM (fun language => ?_) items)
      unfold hasCase
      cases language.lowered <;> rfl

lemma isOk_fieldProblems (fields : Record) : (fieldProblems fields).isOk =
    ((fields.getD "severity" (.str "")).hasCase && ((fields.getD "confidence" (.str "medium")).hasCase &&
      (((patternOf fields).all fun pattern =>
          !(pattern.getD "type" (.str "")).truthy || isLookedUp (pattern.getD "type" (.str ""))) &&
        (!(fields.getD "languages" (.list [])).truthy ||
          (fields.getD "languages" (.list [])).elements.toOption.any (·.all hasCase))))) := by
  unfold fieldProblems
  refine isOk_bind rfl fun _ => isOk_bind rfl fun _ => isOk_bind ?_ fun _ => ?_
  · cases patternOf fields with
    | none => rfl
    | some pattern =>
      rw [Option.all_some, ← isOk_kindProblems (fields.getD "id" (.str "<no-id>")).text]
      exact isOk_bind_pure _ _
  · rw [isOk_bind_pure, isOk_languageProblems]

/-- A field is of a kind on which its check is not defined. -/
inductive IsUncheckable (fields : Record) : Prop
  | severity (h : (fields.getD "severity" (.str "")).hasCase = false)
  | confidence (h : (fields.getD "confidence" (.str "medium")).hasCase = false)
  | kind {pattern : Record} (hpattern : patternOf fields = some pattern)
      (hgiven : (pattern.getD "type" (.str "")).truthy) (h : isLookedUp (pattern.getD "type" (.str "")) = false)
  | languages (hgiven : (fields.getD "languages" (.list [])).truthy)
      (h : ∀ items, (fields.getD "languages" (.list [])).elements = .ok items → items.all hasCase = false)

lemma fieldProblems_fails_iff (fields : Record) :
    (∃ fault, fieldProblems fields = .error fault) ↔ IsUncheckable fields := by
  rw [← isOk_eq_false_iff, isOk_fieldProblems]
  simp only [Bool.and_eq_false_iff, Bool.or_eq_false_iff, Bool.not_eq_false']
  constructor
  · rintro (h | h | h | ⟨hgiven, h⟩)
    · exact .severity h
    · exact .confidence h
    · cases hpattern : patternOf fields with
      | none => simp [hpattern] at h
      | some pattern =>
        obtain ⟨hgiven, hkind⟩ : _ ∧ _ := by simpa [hpattern] using h
        exact .kind hpattern hgiven hkind
    · refine .languages hgiven fun items hitems => ?_
      rw [hitems] at h
      exact h
  · rintro (h | h | ⟨hpattern, hgiven, h⟩ | ⟨hgiven, h⟩)
    · exact .inl h
    · exact .inr (.inl h)
    · refine .inr (.inr (.inl ?_))
      simp [hpattern, hgiven, h]
    · refine .inr (.inr (.inr ⟨hgiven, ?_⟩))
      cases hitems : (fields.getD "languages" (.list [])).elements with
      | error fault => rfl
      | ok items => exact h items hitems

/-! ## What the check establishes -/

/-- What holds of the fields of an entry in which no problem is found. -/
structure IsChecked (fields : Record) : Prop where
  complete : ∀ name ∈ requiredFields, ∃ v, get? fields name = some v
  severity : ∃ v, (fields.getD "severity" (.str "")).lowered = .ok v ∧ (v.truthy → v.isWordOf severities)
  confidence : ∃ v, (fields.getD "confidence" (.str "medium")).lowered = .ok v ∧ v.isWordOf confidences
  kind : ∀ pattern, patternOf fields = some pattern →
    (pattern.getD "type" (.str "")).truthy → (pattern.getD "type" (.str "")).isWordOf kinds
  languages : (fields.getD "languages" (.list [])).truthy → ∃ items,
    (fields.getD "languages" (.list [])).elements = .ok items ∧
      ∀ item ∈ items, ∃ v, item.lowered = .ok v ∧ v.isWordOf languageNames

lemma isWordOf_of_patternProblems {pattern : Record} (h : patternProblems id pattern = .ok [])
    (htruthy : (pattern.getD "type" (.str "")).truthy) :
    (pattern.getD "type" (.str "")).isWordOf kinds := by
  obtain ⟨found, hfound, hnone⟩ := map_eq_ok_iff.mp h
  obtain ⟨rfl, -⟩ := append_eq_nil_iff.mp hnone
  unfold kindProblems at hfound
  split at hfound
  · next hpasses => simpa [htruthy] using hpasses
  · split at hfound <;> cases hfound

lemma isWordOf_of_languageProblems {languages : Value} (h : languageProblems id languages = .ok [])
    (htruthy : languages.truthy) : ∃ items, languages.elements = .ok items ∧
      ∀ item ∈ items, ∃ v, item.lowered = .ok v ∧ v.isWordOf languageNames := by
  unfold languageProblems at h
  rw [htruthy] at h
  obtain ⟨items, hitems, h⟩ := of_bind h
  obtain ⟨unknown, hunknown, hend⟩ := of_bind h
  obtain ⟨htests, hnone⟩ := filterM_eq_ok_iff.mp hunknown
  rw [map_eq_nil_iff.mp (ok.inj hend), filter_eq_nil_iff] at hnone
  refine ⟨items, hitems, fun item hitem => ?_⟩
  have hknown := hnone item hitem
  obtain ⟨b, hb⟩ := htests item hitem
  obtain ⟨v, hv, rfl⟩ := map_eq_ok_iff.mp hb
  rw [hb] at hknown
  exact ⟨v, hv, by simpa [Except.toOption] using hknown⟩

lemma isChecked_of_problems (hfields : data.namedFields = some fields)
    (h : problems data source = .ok []) : IsChecked fields := by
  rw [problems_eq hfields] at h
  obtain ⟨found, hfound, hnone⟩ := map_eq_ok_iff.mp h
  obtain ⟨hmissing, rfl⟩ := append_eq_nil_iff.mp hnone
  simp only [fieldProblems, bind_eq_ok_iff, pure_eq_ok, ok.injEq, append_eq_nil_iff] at hfound
  obtain ⟨severity, hseverity, confidence, hconfidence, _, hpattern, _, hlanguages, ⟨⟨hfirst, hsecond⟩, rfl⟩, rfl⟩ := hfound
  refine ⟨fun name hname => ?_, ⟨severity, hseverity, fun htruthy => ?_⟩, ⟨confidence, hconfidence, ?_⟩,
    fun pattern hrecord => ?_, isWordOf_of_languageProblems hlanguages⟩
  · have hhas := filter_eq_nil_iff.mp (map_eq_nil_iff.mp hmissing) name hname
    rw [has_eq_isSome] at hhas
    exact Option.ne_none_iff_exists'.mp (by simpa using hhas)
  · simpa [htruthy] using hfirst
  · simpa using hsecond
  · rw [hrecord] at hpattern
    exact isWordOf_of_patternProblems hpattern

/-! ## What is read after the check -/

lemma exists_str_of_lowered (h : v.lowered = .ok w) (hw : w.isWordOf words) :
    ∃ text, v = .str text ∧ w = .str (lower text) ∧ lower text ∈ words := by
  cases v with
  | str text =>
    cases h
    exact ⟨text, rfl, rfl, contains_iff_mem.mp hw⟩
  | foreign text quoted =>
    have hbytes : foreign (lower text) (lower quoted) = w := by
      rcases ite_eq_iff.mp h with ⟨-, hok⟩ | ⟨-, hfault⟩
      · exact ok.inj hok
      · nomatch hfault
    rw [← hbytes] at hw
    cases hw
  | _ => cases h

lemma elements_cases (v : Value) : v.elements = .error .wrongKind ∨ ∃ items, v.elements = .ok items := by
  cases v <;> simp [elements]

lemma eq_nil_of_elements (hempty : v.truthy = false) (h : v.elements = .ok items) : items = [] := by
  cases v <;> simp_all [elements, truthy]

lemma languages_of_isChecked (h : IsChecked fields)
    (hitems : (fields.getD "languages" (.texts ["python"])).elements = .ok items) :
    ∃ texts, items.mapM asText = .ok texts ∧ ∀ text ∈ texts, lower text ∈ languageNames := by
  have hknown : ∀ item ∈ items, ∃ text, item = .str text ∧ lower text ∈ languageNames := by
    have hlanguages := h.languages
    unfold Record.getD at hitems hlanguages
    cases hget : get? fields "languages" with
    | none =>
      -- languages that are left out are none to the check, and Python to the reader
      rw [hget] at hitems
      rw [← ok.inj hitems]
      intro item hitem
      exact ⟨"python", mem_singleton.mp hitem, by decide⟩
    | some v =>
      rw [hget] at hitems hlanguages
      cases htruthy : v.truthy with
      | false =>
        rw [eq_nil_of_elements htruthy hitems]
        exact fun _ => not_mem_nil.elim
      | true =>
        obtain ⟨_, hall, hwords⟩ := hlanguages htruthy
        cases hitems.symm.trans hall
        intro item hitem
        obtain ⟨w, hlowered, hword⟩ := hwords item hitem
        obtain ⟨text, htext, -, hmem⟩ := exists_str_of_lowered hlowered hword
        exact ⟨text, htext, hmem⟩
  obtain ⟨texts, htexts⟩ := exists_mapM_eq_ok fun item hitem => (hknown item hitem).imp fun text h =>
    (congrArg asText h.1 : item.asText = .ok text)
  refine ⟨texts, htexts, fun text htext => ?_⟩
  obtain ⟨item, hitem, hread⟩ := exists_mem_of_mapM htexts htext
  obtain ⟨own, rfl, hmem⟩ := hknown item hitem
  cases hread
  exact hmem

/-- The words of a rule are known ones or left empty. -/
structure HasKnownWords (r : Rule) : Prop where
  severity : r.severity.truthy → r.severity.isWordOf severities
  confidence : r.confidence ∈ confidences
  kind : r.pattern.kind.truthy → r.pattern.kind.isWordOf kinds
  languages : ∀ language ∈ r.languages, language ∈ languageNames

/-- A checked entry is read unless its pattern is no record or its languages cannot be run through. -/
lemma ofFields_of_isChecked (h : IsChecked fields) (source : Value) :
    (patternOf fields = none → ofFields fields source = .error .noSuchPart) ∧
    ∀ pattern, patternOf fields = some pattern → ofFields fields source = .error .wrongKind ∨
        ∃ rule, ofFields fields source = .ok rule ∧ rule.HasKnownWords := by
  have hrequired : ∀ name ∈ requiredFields,
      ∃ v, required fields name = .ok v ∧ ∀ default, fields.getD name default = v := by
    intro name hname
    obtain ⟨v, hv⟩ := h.complete name hname
    exact ⟨v, by rw [required, hv], fun default => by rw [Record.getD, hv]; rfl⟩
  obtain ⟨id, hid, -⟩ := hrequired "id" (by decide)
  obtain ⟨name, hname, -⟩ := hrequired "name" (by decide)
  obtain ⟨message, hmessage, -⟩ := hrequired "message" (by decide)
  obtain ⟨given, hgiven, hdefault⟩ := hrequired "severity" (by decide)
  obtain ⟨severity, hseverity, hword⟩ := h.severity
  rw [hdefault] at hseverity
  obtain ⟨_, hlowered, hconfident⟩ := h.confidence
  obtain ⟨confidence, hconfidence, -, hmem⟩ := exists_str_of_lowered hlowered hconfident
  unfold ofFields
  rw [hid, ok_bind, hname, ok_bind, hgiven, ok_bind, hseverity, ok_bind, hmessage, ok_bind, hconfidence]
  constructor
  · intro hnone
    rw [patternOf] at hnone
    rw [RulePattern.ofValue, Value.fields, hnone]
    rfl
  · intro pattern hpattern
    have hread : RulePattern.ofValue (fields.getD "pattern" (.obj [])) = .ok {
        kind := pattern.getD "type" (.str callKind)
        name := pattern.getD "name" .null
        names := pattern.getD "names" .null
        regex := pattern.getD "regex" .null } := by
      rw [patternOf] at hpattern
      rw [RulePattern.ofValue, Value.fields, hpattern]
      rfl
    have hasText : (str confidence).asText = .ok confidence := rfl
    rw [hread, ok_bind, hasText, ok_bind]
    rcases elements_cases (fields.getD "languages" (.texts ["python"])) with hfault | ⟨items, hitems⟩
    · rw [hfault]
      exact .inl rfl
    · right
      obtain ⟨texts, htexts, hknown⟩ := languages_of_isChecked h hitems
      rw [hitems, ok_bind, htexts, ok_bind]
      refine ⟨_, rfl, hword, hmem, fun htruthy => ?_, fun language hlanguage => ?_⟩
      -- the check takes a kind that is left out for an empty one, and the reader for that of a call
      · have hkind := h.kind pattern hpattern
        dsimp only at htruthy ⊢
        unfold Record.getD at hkind htruthy ⊢
        cases hget : get? pattern "type" with
        | none => decide
        | some kind =>
          rw [hget] at hkind htruthy
          exact hkind htruthy
      · obtain ⟨text, htext, rfl⟩ := mem_map.mp hlanguage
        exact hknown text htext

/-! ## Well-formed rules -/

/-- A call of some function, in some language, is found to match the rule. -/
def IsFound (r : Rule) : Prop :=
  ∃ index, ofRules [r] = .ok index ∧ ∃ function language : String, function ≠ "" ∧
    ∃ found, index.matchCall (.str function) (.str language) = .ok found ∧ r ∈ found

/-- The words of the rule are known ones, and a rule for calls is found. -/
structure IsWellFormed (r : Rule) : Prop where
  severity : r.severity.isWordOf severities
  confidence : r.confidence ∈ confidences
  kind : r.pattern.kind.isWordOf kinds
  languages : ∀ language ∈ r.languages, language ∈ languageNames
  found : r.pattern.isCall → r.IsFound

/-- A rule for calls is found if it has a language and a text that is not empty among its names. -/
lemma isFound_iff (hcall : r.pattern.isCall) : r.IsFound ↔ r.languages ≠ [] ∧ ∃ names, r.pattern.allNames = .ok names ∧
      ∃ function : String, function ≠ "" ∧ .str function ∈ names := by
  have hunder : ∀ (names : List Value) (function : String),
      r ∈ under (names.foldl (fun t name => addName t r name) []) function ↔ .str function ∈ names := by
    intro names function
    rw [under_addNames]
    simp [under, same_str_iff]
  have hindex : ofRules [r] = r.pattern.allNames.map fun names =>
      ⟨[r], names.foldl (fun t name => addName t r name) []⟩ := by
    unfold ofRules
    rw [foldlM_cons, addRule, if_pos hcall]
    cases r.pattern.allNames <;> rfl
  unfold IsFound
  rw [hindex]
  constructor
  · rintro ⟨index, hfiled, function, language, hfunction, found, hfound, hmem⟩
    obtain ⟨names, hnames, rfl⟩ := map_eq_ok_iff.mp hfiled
    rw [← ok.inj hfound] at hmem
    obtain ⟨hrule, hlanguage⟩ := mem_filter.mp hmem
    exact ⟨ne_nil_of_mem (contains_iff_mem.mp hlanguage), names, hnames, function, hfunction,
      (hunder names function).mp hrule⟩
  · rintro ⟨hlanguages, names, hnames, function, hfunction, hmem⟩
    obtain ⟨language, hlanguage⟩ := exists_mem_of_ne_nil _ hlanguages
    refine ⟨_, map_eq_ok_iff.mpr ⟨names, hnames, rfl⟩, function, language, hfunction, _, rfl, ?_⟩
    exact mem_filter.mpr ⟨(hunder names function).mpr hmem, contains_iff_mem.mpr hlanguage⟩

lemma truthy_of_isWordOf (h : v.isWordOf words) (hwords : "" ∉ words) : v.truthy := by
  cases v with
  | str text =>
    have hmem : text ∈ words := contains_iff_mem.mp h
    refine Bool.not_eq_true' _ |>.mpr (Bool.eq_false_iff.mpr fun hempty => hwords ?_)
    rwa [String.isEmpty_iff.mp hempty] at hmem
  | _ => cases h

lemma HasKnownWords.isWellFormed_iff (h : r.HasKnownWords) : r.IsWellFormed ↔
    r.severity.truthy ∧ r.pattern.kind.truthy ∧ (r.pattern.isCall → r.IsFound) := by
  constructor
  · intro hformed
    exact ⟨truthy_of_isWordOf hformed.severity (by decide), truthy_of_isWordOf hformed.kind (by decide), hformed.found⟩
  · rintro ⟨hseverity, hkind, hfound⟩
    exact ⟨h.severity hseverity, h.confidence, h.kind hkind, h.languages, hfound⟩

end Rule

/-! ## Loading -/

namespace Rules

variable {strict : Bool} {rules : List Rule} {entry : Value} {path : String} {files : FileTree} {entries : List Value}
  {fields : Record} {rule : Rule} {sound : List Bool}

lemma not_mem_of_orNothing (h : orNothing strict problem = .ok rules) (rule : Rule) : rule ∉ rules := by
  cases strict <;> cases h
  exact not_mem_nil

/-- How an entry that is a record ends. -/
inductive Outcome (strict : Bool) (path : String) (entry : Value) (fields : Record) : Except Fault (List Rule) → Prop
  | uncheckable {fault : Fault} (h : problems entry path = .error fault) :
      Outcome strict path entry fields (.error fault)
  | refused {problem : RuleProblem} {further : List RuleProblem}
      (h : problems entry path = .ok (problem :: further)) :
      Outcome strict path entry fields (orNothing strict (some problem.message))
  | noPattern (h : problems entry path = .ok []) (hpattern : patternOf fields = none) :
      Outcome strict path entry fields (.error .noSuchPart)
  | unread (h : problems entry path = .ok []) (hpattern : patternOf fields ≠ none) :
      Outcome strict path entry fields (orNothing strict none)
  | read {rule : Rule} (h : problems entry path = .ok [])
      (hpattern : patternOf fields ≠ none) (hknown : rule.HasKnownWords) :
      Outcome strict path entry fields (.ok (if rule.enabled.truthy then [rule] else []))

lemma outcome_ofEntry (hfields : entry.namedFields = some fields) (strict : Bool)
    (path : String) : Outcome strict path entry fields (ofEntry strict path entry) := by
  have hvalue : ofValue entry (.str path) = ofFields fields (.str path) := by
    rw [Rule.ofValue, Value.fields, hfields]
    rfl
  unfold ofEntry
  rw [hfields, hvalue]
  cases hproblems : problems entry path with
  | error fault => exact .uncheckable hproblems
  | ok found =>
    cases found with
    | cons problem further => exact .refused hproblems
    | nil =>
      obtain ⟨hnone, hsome⟩ := ofFields_of_isChecked (isChecked_of_problems hfields hproblems) (.str path)
      cases hpattern : patternOf fields with
      | none =>
        rw [hnone hpattern]
        exact .noPattern hproblems hpattern
      | some pattern =>
        have hrecord : patternOf fields ≠ none := by simp [hpattern]
        rcases hsome pattern hpattern with hfault | ⟨rule, hread, hknown⟩
        · rw [hfault]
          exact .unread hproblems hrecord
        · rw [hread]
          exact .read hproblems hrecord hknown

lemma hasKnownWords_of_ofEntry
    (h : ofEntry strict path entry = .ok rules) (hrule : rule ∈ rules) : rule.HasKnownWords := by
  cases hfields : entry.namedFields with
  | none =>
    rw [ofEntry, hfields] at h
    cases h
    cases hrule
  | some fields =>
    -- only the last of the outcomes gives a rule
    have houtcome := outcome_ofEntry hfields strict path
    rw [h] at houtcome
    generalize hend : ok rules = outcome at houtcome
    cases houtcome with
    | uncheckable | noPattern => cases hend
    | refused | unread => exact absurd hrule (not_mem_of_orNothing hend.symm rule)
    | read _ _ hknown =>
      rw [ok.inj hend] at hrule
      split at hrule
      · cases mem_singleton.mp hrule
        exact hknown
      · cases hrule

/-- Lenient loading stops at an entry that cannot be checked, and at one without problems whose pattern is no record. -/
lemma ofEntry_fails_iff (hfields : entry.namedFields = some fields) (path : String) :
    (∃ fault, ofEntry false path entry = .error fault) ↔ IsUncheckable fields ∨
      problems entry path = .ok [] ∧ patternOf fields = none := by
  have hcheck : (∃ fault, problems entry path = .error fault) ↔ IsUncheckable fields := by
    rw [← fieldProblems_fails_iff, problems_eq hfields]
    cases fieldProblems fields <;> simp [Except.map]
  rw [← hcheck]
  have houtcome := outcome_ofEntry hfields false path
  generalize ofEntry false path entry = outcome at houtcome
  cases houtcome with
  | uncheckable h => simp [h]
  | refused h => simp [h, orNothing]
  | noPattern h hpattern => simp [h, hpattern]
  | unread h hpattern => simp [h, hpattern, orNothing]
  | read h hpattern hknown => simp [h, hpattern]

/-- The file can be read, as a record with a list under `rules`. -/
def Holds (files : FileTree) (path : String) (entries : List Value) : Prop :=
  ∃ text document, files.text .refuse path = .ok text ∧ Yaml.readFollowing rounds text = .ok document ∧
    (document.namedFields.bind fun fields => get? fields "rules") = some (.list entries)

def items? : Value → Option (List Value)
  | .list items => some items
  | _ => none

def entries? (files : FileTree) (path : String) : Option (List Value) :=
  (files.text .refuse path).toOption.bind fun text => (Yaml.readFollowing rounds text).toOption.bind fun document =>
    (document.namedFields.bind fun fields => get? fields "rules").bind items?

lemma holds_iff : Holds files path entries ↔ entries? files path = some entries := by
  constructor
  · rintro ⟨text, document, htext, hdocument, hlisted⟩
    unfold entries?
    rw [htext, Except.toOption, Option.bind_some, hdocument, Except.toOption, Option.bind_some, hlisted]
    rfl
  · intro h
    simp only [entries?, Option.bind_eq_some_iff, toOption_eq_some_iff] at h
    obtain ⟨text, htext, document, hdocument, listed, hlisted, h⟩ := h
    have hlist : listed = .list entries := by cases listed <;> simp_all [items?]
    exact ⟨text, document, htext, hdocument, Option.bind_eq_some_iff.mpr (hlist ▸ hlisted)⟩

lemma ofFile_of_holds (h : Holds files path entries)
    (strict : Bool) : ofFile strict files path = (entries.mapM (ofEntry strict path)).map flatten := by
  obtain ⟨text, document, htext, hdocument, hentries⟩ := h
  have hread : (ok text).bind (Yaml.readFollowing rounds) = .ok document := hdocument
  unfold ofFile ofText ofDocument
  rw [htext, hread]
  dsimp only
  rw [hentries]
  dsimp only
  cases mapM (ofEntry strict path) entries <;> rfl

lemma holds_of_mem_ofFile
    (h : ofFile strict files path = .ok rules) (hrule : rule ∈ rules) : ∃ entries, Holds files path entries := by
  unfold ofFile ofText at h
  split at h
  · next document hread =>
    obtain ⟨text, htext, hdocument⟩ := of_bind hread
    unfold ofDocument at h
    split at h
    · next entries hentries => exact ⟨entries, text, document, htext, hdocument, hentries⟩
    all_goals exact absurd hrule (not_mem_of_orNothing h rule)
  · split at h
    · exact absurd hrule (not_mem_of_orNothing h rule)
    · cases h

/-- **A loaded rule** has words that are known or empty, its confidence and languages are known, and it is well formed
unless its severity or kind is empty or it is for calls that are never found. -/
theorem loaded_isWellFormed_iff {strict : Bool} {files : FileTree} {path : String} {rules : List Rule} {rule : Rule}
    (h : ofFile strict files path = .ok rules) (hrule : rule ∈ rules) : rule.HasKnownWords ∧
      (rule.IsWellFormed ↔ rule.severity.truthy = true ∧ rule.pattern.kind.truthy = true ∧
        (rule.pattern.isCall = true → rule.languages ≠ [] ∧ ∃ names, rule.pattern.allNames = .ok names ∧
          ∃ function : String, function ≠ "" ∧ .str function ∈ names)) := by
  obtain ⟨entries, hholds⟩ := holds_of_mem_ofFile h hrule
  rw [ofFile_of_holds hholds] at h
  obtain ⟨results, hresults, rfl⟩ := map_eq_ok_iff.mp h
  obtain ⟨own, hown, hrule⟩ := mem_flatten.mp hrule
  obtain ⟨entry, -, hentry⟩ := exists_mem_of_mapM hresults hown
  have hknown := hasKnownWords_of_ofEntry hentry hrule
  refine ⟨hknown, hknown.isWellFormed_iff.trans ?_⟩
  exact and_congr_right fun _ => and_congr_right fun _ => imp_congr_right fun hcall => isFound_iff hcall

def ruleFile (text : String) : FileTree := { entries := [(["r.yml"], .file (.text text))] }

def emptyRule : String :=
  "\x7b'rules': [\x7b'id': '', 'name': '', 'message': '', 'severity': '', 'pattern': \x7b\x7d\x7d]\x7d"

/-- A rule with an empty severity and pattern is loaded, as one for calls, and no call matches it. -/
theorem exists_loaded_not_isWellFormed : ∃ rule, ofFile true (ruleFile emptyRule) "r.yml" = .ok [rule] ∧
    rule.severity.truthy = false ∧ rule.pattern.isCall = true ∧ ¬ rule.IsFound ∧ ¬ rule.IsWellFormed := by
  have htest : (ofFile true (ruleFile emptyRule) "r.yml").toOption.any (fun rules => rules.length == 1 &&
      rules.all fun rule =>
        !rule.severity.truthy && rule.pattern.isCall && rule.pattern.allNames.toOption.any List.isEmpty) = true := by
    decide +kernel
  obtain ⟨rules, hload, htest⟩ := Option.any_eq_true _ _ |>.mp htest
  obtain ⟨hlength, htest⟩ := Bool.and_eq_true_iff.mp htest
  obtain ⟨rule, rfl⟩ := List.length_eq_one_iff.mp (beq_iff_eq.mp hlength)
  simp only [List.all_cons, List.all_nil, Bool.and_true, Bool.and_eq_true, Bool.not_eq_true'] at htest
  obtain ⟨⟨hseverity, hcall⟩, hempty⟩ := htest
  have hload := toOption_eq_some_iff.mp hload
  refine ⟨rule, hload, hseverity, hcall, fun hfound => ?_, fun hformed => ?_⟩
  · obtain ⟨-, names, hnames, function, -, hmem⟩ := (Rule.isFound_iff hcall).mp hfound
    rw [hnames] at hempty
    rw [List.isEmpty_iff.mp hempty] at hmem
    cases hmem
  · have hgiven := ((loaded_isWellFormed_iff hload List.mem_cons_self).2.mp hformed).1
    rw [hseverity] at hgiven
    cases hgiven

def sampleEntry : Bool → Value
  | true => .obj [("id", .str ""), ("name", .str ""), ("message", .str ""), ("severity", .str "low"),
      ("pattern", .obj [("type", .str "import")])]
  | false => .obj [("severity", .list [])]

def sampleFile (sound : List Bool) : FileTree :=
  let rule := "\x7b'id': '', 'name': '', 'message': '', 'severity': 'low', 'pattern': \x7b'type': 'import'\x7d\x7d"
  let texts := sound.map fun s => if s then rule else "\x7b'severity': []\x7d"
  ruleFile ("\x7b'rules': [" ++ String.intercalate ", " texts ++ "]\x7d")

def areSamples : List Bool → List Value → Bool
  | [], [] => true
  | true :: sound, .obj [("id", .str ""), ("name", .str ""), ("message", .str ""), ("severity", .str "low"),
      ("pattern", .obj [("type", .str "import")])] :: rest => areSamples sound rest
  | false :: sound, .obj [("severity", .list [])] :: rest => areSamples sound rest
  | _, _ => false

lemma eq_of_areSamples (h : areSamples sound entries) : entries = sound.map sampleEntry := by
  fun_induction areSamples sound entries with
  | case1 => rfl
  | case2 sound rest ih | case3 sound rest ih => rw [ih h]; rfl
  | case4 => cases h

lemma holds_sampleFile (h : (entries? (sampleFile sound) "r.yml").any (areSamples sound)) :
    Holds (sampleFile sound) "r.yml" (sound.map sampleEntry) := by
  obtain ⟨entries, hentries, hsamples⟩ := Option.any_eq_true _ _ |>.mp h
  rw [← eq_of_areSamples hsamples, holds_iff, hentries]

end Rules

end CodeAudit

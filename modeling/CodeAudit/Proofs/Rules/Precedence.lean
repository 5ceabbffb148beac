import CodeAudit.Proofs.Decimal.Order
import CodeAudit.Proofs.Rules.Loaded

/-!
# Rules with one id

Rules are loaded into a table by id: a rule takes the place of an earlier one with its id, and a new one goes to the
end. So of the rules with one id the last counts, in the place of the first (`later_rules_override`). What is not
enabled is left out before ids are looked at, so it takes no place (`disabled_rule_overrides_nothing`).
-/

namespace CodeAudit

open Proofs List RulePattern RuleIndex Value

variable {strict : Bool}

/-! ## Ids as keys -/

lemma Number.compare?_eq_eq_iff {m n : Number} :
    m.compare? n = some .eq ↔ ∃ u, m.place? = some u ∧ n.place? = some u := by
  rw [compare?_eq]
  constructor
  · intro h
    obtain ⟨u, hu, h⟩ := Option.bind_eq_some_iff.mp h
    obtain ⟨v, hv, h⟩ := Option.map_eq_some_iff.mp h
    exact ⟨u, hu, (cmp_eq_eq_iff u v).mp h ▸ hv⟩
  · rintro ⟨u, hu, hv⟩
    rw [hu, hv]
    exact congrArg some (cmp_self_eq_eq u)

/-- What a value is as the name of an entry; of a number only its place counts. -/
inductive Key where
  | null
  | number (place : WithBot (WithTop ℚ))
  | text (s : String)
  | group (keys : List Key)
  | foreign (text quoted : String)

namespace Value

mutual

/-- The key that a value is; what is not a number is none. -/
def key? : Value → Option Key
  | .null => some .null
  | .str s => some (.text s)
  | .foreign text quoted => some (.foreign text quoted)
  | .tuple items => (keys? items).map .group
  | v => (v.number?.bind Number.place?).map .number

def keys? : List Value → Option (List Key)
  | [] => some []
  | v :: vs => v.key?.bind fun k => (keys? vs).map (k :: ·)

end

lemma keys?_cons_eq_some_iff :
    keys? (v :: vs) = some ks ↔ ∃ k rest, v.key? = some k ∧ keys? vs = some rest ∧ k :: rest = ks := by
  simp [keys?, Option.bind_eq_some_iff, Option.map_eq_some_iff]

mutual

lemma same_iff : ∀ {a : Value}, a.hashable → ∀ b, a.same b ↔ ∃ k, a.key? = some k ∧ b.key? = some k
  | .null, _, b => by cases b <;> simp [same, key?, number?]
  | .str s, _, b => by cases b <;> simp [same, key?, number?, eq_comm (a := s)]
  | .foreign s t, _, b => by cases b <;> simp [same, key?, number?, eq_comm (a := s), eq_comm (a := t)]
  | .bool x, _, b | .int x, _, b | .float x, _, b | .estimate x, _, b => by
    cases b <;> simp [same, key?, number?, Number.compare?_eq_eq_iff]
  | .tuple items, h, b => by
    have hitems : hashable.hashableAll items := h
    cases b with
    | tuple others => simp [same, key?, sameAll_iff hitems others]
    | _ => simp [same, key?, number?]

lemma sameAll_iff : ∀ {items : List Value}, hashable.hashableAll items → ∀ others,
    sameAll items others ↔ ∃ ks, keys? items = some ks ∧ keys? others = some ks
  | [], _, [] => by simp [sameAll, keys?]
  | [], _, w :: ws => by simp [sameAll, keys?.eq_1, keys?_cons_eq_some_iff]
  | v :: vs, _, [] => by simp [sameAll, keys?.eq_1, keys?_cons_eq_some_iff]
  | v :: vs, h, w :: ws => by
    obtain ⟨hv, hvs⟩ := Bool.and_eq_true_iff.mp h
    rw [sameAll, Bool.and_eq_true, same_iff hv w, sameAll_iff hvs ws]
    simp only [keys?_cons_eq_some_iff]
    constructor
    · rintro ⟨⟨k, hvk, hwk⟩, ks, hvs, hws⟩
      exact ⟨k :: ks, ⟨k, ks, hvk, hvs, rfl⟩, k, ks, hwk, hws, rfl⟩
    · rintro ⟨_, ⟨k, ks, hvk, hvs, rfl⟩, _, _, hwk, hws, heq⟩
      cases heq
      exact ⟨⟨k, hvk, hwk⟩, ks, hvs, hws⟩

end

section Keys

variable {a b c : Value} (ha : a.hashable)

include ha

lemma same_comm (hb : b.hashable) : a.same b = b.same a := by
  rw [Bool.eq_iff_iff, same_iff ha, same_iff hb]
  exact exists_congr fun k => and_comm

lemma same_trans (hb : b.hashable) (hab : a.same b) (hbc : b.same c) : a.same c := by
  obtain ⟨k, hak, hbk⟩ := (same_iff ha b).mp hab
  obtain ⟨l, hbl, hcl⟩ := (same_iff hb c).mp hbc
  rw [hbk] at hbl
  cases hbl
  exact (same_iff ha c).mpr ⟨k, hak, hcl⟩

end Keys

end Value

namespace Rules

/-! ## One rule after the other -/

/-- Of the rules with its id this one is the last. -/
def IsLast (all : List Rule) (rule : Rule) : Prop :=
  ∃ before after, all = before ++ rule :: after ∧ ∀ later ∈ after, later.id.same rule.id = false

variable {all own user rules : List Rule} {rule : Rule} {files : FileTree}

lemma isLast_concat_iff :
    IsLast (all ++ [last]) rule ↔ rule = last ∨ IsLast all rule ∧ last.id.same rule.id = false := by
  constructor
  · rintro ⟨before, after, heq, hlater⟩
    -- either nothing comes after the rule, or what comes after it ends with the last one
    rcases eq_nil_or_concat' after with rfl | ⟨after, final, rfl⟩
    · obtain ⟨-, hrule⟩ := append_inj' heq rfl
      exact .inl (singleton_inj.mp hrule).symm
    · obtain ⟨hall, hfinal⟩ := append_inj' (heq.trans (append_assoc before (rule :: after) [final]).symm) rfl
      cases singleton_inj.mp hfinal
      simp only [mem_append, mem_singleton] at hlater
      exact .inr ⟨⟨before, after, hall, fun later hmem => hlater later (.inl hmem)⟩, hlater last (.inr rfl)⟩
  · rintro (rfl | ⟨⟨before, after, rfl, hlater⟩, hother⟩)
    · exact ⟨all, [], rfl, fun _ => not_mem_nil.elim⟩
    · refine ⟨before, after ++ [last], by simp, fun later hmem => ?_⟩
      rcases mem_append.mp hmem with hmem | hmem
      · exact hlater later hmem
      · rwa [mem_singleton.mp hmem]

lemma isLast_append_iff : IsLast (own ++ user) rule ↔
    IsLast user rule ∨ IsLast own rule ∧ ∀ other ∈ user, other.id.same rule.id = false := by
  induction user using reverseRecOn with
  | nil => simp [IsLast]
  | append_singleton user last ih =>
    rw [← append_assoc, isLast_concat_iff, isLast_concat_iff, ih]
    simp only [mem_append, mem_singleton, or_imp, forall_and, forall_eq]
    tauto

/-- Rules in which each id of some others stands once, in order of first occurrence, with the last rule of that id. -/
structure Resolved (all rules : List Rule) : Prop where
  distinct : rules.Pairwise fun a b => a.id.same b.id = false
  mem_iff : ∀ rule, rule ∈ rules ↔ IsLast all rule
  order : Forall₂ (fun id rule => rule.id = id ∨ rule.id.same id)
    (once (all.map (·.id))) rules

section Step

variable {all rules : List Rule} {rule : Rule} (h : Resolved all rules)
  (hids : ∀ other ∈ all ++ [rule], other.id.hashable)

include h hids

lemma hashable_of_mem (hold : old ∈ rules) : old.id.hashable := by
  obtain ⟨before, after, rfl, -⟩ := (h.mem_iff old).mp hold
  exact hids old (by simp)

/-- The id under which a rule stands is the new one where the rule's own id is. -/
lemma forall₂_same : Forall₂
    (fun id old => rule.id.same id = old.id.same rule.id ∧ (old.id = id ∨ old.id.same id))
    (once (all.map (·.id))) rules := by
  obtain ⟨hlength, hpairs⟩ := forall₂_iff_zip.mp h.order
  refine forall₂_iff_zip.mpr ⟨hlength, fun {id old} hmem => ⟨?_, hpairs hmem⟩⟩
  have hrule : rule.id.hashable := hids rule (by simp)
  have hold : old.id.hashable := hashable_of_mem h hids (of_mem_zip hmem).2
  have hid : id.hashable := by
    obtain ⟨other, hother, rfl⟩ := mem_map.mp (mem_of_mem_once (of_mem_zip hmem).1)
    exact hids other (mem_append_left _ hother)
  rw [same_comm hrule hid]
  rcases hpairs hmem with rfl | hsame
  · rfl
  · have hback : id.same old.id := by rwa [same_comm hid hold]
    rw [Bool.eq_iff_iff]
    exact ⟨same_trans hold hid hsame, same_trans hid hold hback⟩

lemma once_ids : once ((all ++ [rule]).map (·.id)) = once (all.map (·.id)) ++
    if rules.any (·.id.same rule.id) then [] else [rule.id] := by
  -- ids and rules stand side by side, so the new id is found among both or among none
  have hthere : rule.id.isOneOf (once (all.map (·.id))) = rules.any (·.id.same rule.id) := by
    have hsame := forall₂_same h hids
    clear h
    unfold isOneOf
    generalize once (all.map (·.id)) = ids at hsame ⊢
    induction hsame with
    | nil => rfl
    | cons hfirst _ ih => rw [any_cons, any_cons, hfirst.1, ih]
  rw [map_append, map_singleton, once_concat, hthere]
  split <;> simp

lemma Resolved.replace (hany : rules.any (·.id.same rule.id)) :
    Resolved (all ++ [rule]) (rules.map fun old => if old.id.same rule.id then rule else old) := by
  have hrule : rule.id.hashable := hids rule (by simp)
  refine ⟨pairwise_map.mpr (h.distinct.imp_of_mem fun {a b} ha hb hne => ?_), fun other => ?_, ?_⟩
  · -- what is the same as the new id is not the same as any other old id
    have hcross : a.id.same rule.id → rule.id.same b.id = false := fun hsame =>
      Bool.eq_false_iff.mpr fun hother =>
        Bool.eq_false_iff.mp hne (same_trans (hashable_of_mem h hids ha) hrule hsame hother)
    by_cases hsame : a.id.same rule.id
    · have hb' : b.id.same rule.id = false := by rw [same_comm (hashable_of_mem h hids hb) hrule, hcross hsame]
      simp [hsame, hb', hcross hsame]
    · by_cases hb' : b.id.same rule.id = true <;> simp [hsame, hb', hne]
  · -- the rule that is replaced is no longer the last with its id, and all others still are
    rw [isLast_concat_iff, ← h.mem_iff, mem_map]
    constructor
    · rintro ⟨old, hold, rfl⟩
      by_cases hsame : old.id.same rule.id
      · exact .inl (if_pos hsame)
      · rw [if_neg hsame, same_comm hrule (hashable_of_mem h hids hold)]
        exact .inr ⟨hold, Bool.eq_false_iff.mpr hsame⟩
    · rintro (rfl | ⟨hold, hne⟩)
      · obtain ⟨old, hold, hsame⟩ := any_eq_true.mp hany
        exact ⟨old, hold, if_pos hsame⟩
      · rw [same_comm hrule (hashable_of_mem h hids hold)] at hne
        exact ⟨other, hold, if_neg (Bool.eq_false_iff.mp hne)⟩
  · rw [once_ids h hids, if_pos hany, append_nil, forall₂_map_right_iff]
    refine (forall₂_same h hids).imp fun id old hpair => ?_
    by_cases hsame : old.id.same rule.id
    · rw [if_pos hsame]
      exact .inr (hpair.1.trans hsame)
    · rw [if_neg hsame]
      exact hpair.2

lemma Resolved.append (hnew : rules.any (·.id.same rule.id) = false) : Resolved (all ++ [rule]) (rules ++ [rule]) := by
  have hrule : rule.id.hashable := hids rule (by simp)
  have hne : ∀ old ∈ rules, old.id.same rule.id = false := by simpa using hnew
  refine ⟨pairwise_append.mpr ⟨h.distinct, pairwise_singleton _ _, by simpa using hne⟩, fun other => ?_, ?_⟩
  · rw [isLast_concat_iff, ← h.mem_iff, mem_append, mem_singleton, or_comm]
    refine or_congr_right ⟨fun hold => ⟨hold, ?_⟩, And.left⟩
    rw [same_comm hrule (hashable_of_mem h hids hold), hne other hold]
  · rw [once_ids h hids, hnew]
    exact rel_append h.order (.cons (.inl rfl) .nil)

lemma Resolved.putRule : ∃ next, putRule rules rule = .ok next ∧ Resolved (all ++ [rule]) next := by
  unfold Rules.putRule
  rw [hids rule (by simp)]
  by_cases hany : rules.any (·.id.same rule.id)
  · exact ⟨_, if_pos hany, h.replace hids hany⟩
  · exact ⟨_, if_neg hany, h.append hids (Bool.eq_false_iff.mpr hany)⟩

end Step

lemma Resolved.foldlM_putRule (h : Resolved all rules) (hids : ∀ rule ∈ all ++ more, rule.id.hashable) :
    ∃ next, more.foldlM Rules.putRule rules = .ok next ∧ Resolved (all ++ more) next := by
  induction more generalizing all rules with
  | nil => exact ⟨rules, rfl, by rwa [append_nil]⟩
  | cons rule more ih =>
    rw [append_cons] at hids ⊢
    obtain ⟨next, hnext, hresolved⟩ := h.putRule fun other hother => hids other (mem_append_left _ hother)
    rw [foldlM_cons, hnext, ok_bind]
    exact ih hresolved hids

/-- Rules whose ids can be keys are resolved, those of further directories behind the others. -/
lemma exists_extended (h : ofFiles strict files (directories.flatMap (ruleFiles files)) = .ok user)
    (hids : ∀ rule ∈ own ++ user, rule.id.hashable) :
    ∃ rules, extended own strict files directories = .ok rules ∧ Resolved (own ++ user) rules := by
  have hempty : Resolved [] [] := ⟨.nil, fun rule => by simp [IsLast], .nil⟩
  rw [extended, h, ok_bind]
  exact hempty.foldlM_putRule hids

/-- **Of the rules with one id the last counts, in the place of the first.** The rules of further directories are read
in the order of directories, files and entries. If all ids can be keys, each id has one rule: the last one with it of
the directories, or of the library where they have none. -/
theorem later_rules_override {own user : List Rule} {strict : Bool} {files : FileTree} {directories : List String}
    (h : ofFiles strict files (directories.flatMap (ruleFiles files)) = .ok user) :
    ((∃ rules, extended own strict files directories = .ok rules) ↔ ∀ rule ∈ own ++ user, rule.id.hashable = true) ∧
    ∀ rules, extended own strict files directories = .ok rules → (rules.Pairwise fun a b => a.id.same b.id = false) ∧
      (∀ rule, rule ∈ rules ↔ IsLast user rule ∨ IsLast own rule ∧ ∀ other ∈ user, other.id.same rule.id = false) ∧
      Forall₂ (fun id rule => rule.id = id ∨ rule.id.same id = true)
        (once ((own ++ user).map (·.id))) rules := by
  -- loading stops only at an id that cannot be a key
  have hput : ∀ (rules : List Rule) rule, (putRule rules rule).isOk = rule.id.hashable := by
    intro rules rule
    unfold putRule
    cases rule.id.hashable <;> cases rules.any (·.id.same rule.id) <;> rfl
  have hloads : (∃ rules, extended own strict files directories = .ok rules) ↔
      ∀ rule ∈ own ++ user, rule.id.hashable = true := by
    rw [extended, h, ok_bind, ← isOk_iff, isOk_foldlM hput, all_eq_true]
  refine ⟨hloads, fun rules hrules => ?_⟩
  obtain ⟨next, hnext, hresolved⟩ := exists_extended h (hloads.mp ⟨rules, hrules⟩)
  cases hrules.symm.trans hnext
  exact ⟨hresolved.distinct, fun rule => (hresolved.mem_iff rule).trans isLast_append_iff, hresolved.order⟩

def ruleDirectory (text : String) : FileTree := { entries := [(["d", "r.yml"], .file (.text text))] }

lemma ruleFiles_ruleDirectory (text : String) : ["d"].flatMap (ruleFiles (ruleDirectory text)) = ["d/r.yml"] := by
  have hdirectory : (ruleDirectory text).isDirectory "d" := rfl
  have hnames : (ruleDirectory text).names "d" = ["r.yml"] := mergeSort_singleton "r.yml"
  have hkept : (["r.yml"].filter fun name => Text.endsWith name ".yml" || Text.endsWith name ".yaml") = ["r.yml"] := by
    decide +kernel
  have hsorted : Text.sorted ["r.yml"] = ["r.yml"] := mergeSort_singleton "r.yml"
  rw [flatMap_singleton, ruleFiles, hdirectory, hnames, if_neg (by decide)]
  dsimp only
  rw [hkept, hsorted]
  decide +kernel

def overriding : FileTree := ruleDirectory
  "\x7b'rules': [\x7b'id': 'VP-PY-001', 'name': '', 'message': '', 'severity': 'low', 'pattern': \x7b\x7d\x7d]\x7d"

/-- A rule of a directory takes the place of the one with its id. -/
theorem overriding_counts : ∃ user rule, ofFiles false overriding (["d"].flatMap (ruleFiles overriding)) = .ok user ∧
    extended [evaluating] false overriding ["d"] = .ok [rule] ∧
    rule.severity.isWordOf ["low"] = true ∧ IsLast user rule := by
  have htest : (ofFiles false overriding ["d/r.yml"]).toOption.any (fun user =>
      (([evaluating] ++ user).foldlM putRule []).toOption.any fun rules =>
        rules.length == 1 && rules.all (·.severity.isWordOf ["low"])) = true := by
    decide +kernel
  obtain ⟨user, hload, htest⟩ := Option.any_eq_true _ _ |>.mp htest
  obtain ⟨rules, hrules, htest⟩ := Option.any_eq_true _ _ |>.mp htest
  obtain ⟨hone, hlow⟩ := Bool.and_eq_true_iff.mp htest
  obtain ⟨rule, rfl⟩ := length_eq_one_iff.mp (beq_iff_eq.mp hone)
  have hlow : rule.severity.isWordOf ["low"] = true := by simpa using hlow
  have hfiles : ["d"].flatMap (ruleFiles overriding) = ["d/r.yml"] := ruleFiles_ruleDirectory _
  rw [toOption_eq_some_iff, ← hfiles] at hload
  rw [toOption_eq_some_iff] at hrules
  have hextended : extended [evaluating] false overriding ["d"] = .ok [rule] := by
    rw [extended, hload]
    exact hrules
  obtain ⟨-, hmem, -⟩ := (later_rules_override hload).2 _ hextended
  refine ⟨user, rule, hload, hextended, hlow, ?_⟩
  refine ((hmem rule).mp mem_cons_self).resolve_right ?_
  rintro ⟨⟨before, after, hown, -⟩, -⟩
  have hrule : rule ∈ [evaluating] := by simp [hown]
  rw [mem_singleton.mp hrule] at hlow
  cases hlow

/-! ## Rules that are not enabled -/

/-- A file has an entry without a problem that describes a rule, enabled or not. -/
def HasRule (files : FileTree) (path : String) (rule : Rule) : Prop :=
  ∃ entries, Holds files path entries ∧ ∃ entry ∈ entries,
    Rule.problems entry path = .ok [] ∧ Rule.ofValue entry (.str path) = .ok rule

lemma enabled_of_mem_ofEntry (h : ofEntry strict path entry = .ok rules) (hrule : rule ∈ rules) :
    Rule.problems entry path = .ok [] ∧ Rule.ofValue entry (.str path) = .ok rule ∧ rule.enabled.truthy := by
  unfold ofEntry at h
  split at h
  · cases h
    cases hrule
  · obtain ⟨found, hfound, h⟩ := of_bind h
    split at h
    · exact absurd hrule (not_mem_of_orNothing h rule)
    · split at h
      · next read hread =>
        cases h
        obtain ⟨henabled, hsingle⟩ : read.enabled.truthy ∧ rule = read := by simpa using hrule
        exact ⟨hfound, by rw [hread, hsingle], by rw [hsingle, henabled]⟩
      · split at h
        · exact absurd hrule (not_mem_of_orNothing h rule)
        · cases h

lemma hasRule_of_mem_ofFiles (h : ofFiles strict files paths = .ok rules) (hrule : rule ∈ rules) :
    (∃ path ∈ paths, HasRule files path rule) ∧ rule.enabled.truthy := by
  obtain ⟨lists, hlists, hflat⟩ := of_bind h
  cases hflat
  obtain ⟨own, hown, hrule⟩ := mem_flatten.mp hrule
  obtain ⟨path, hpath, hload⟩ := exists_mem_of_mapM hlists hown
  obtain ⟨entries, hholds⟩ := holds_of_mem_ofFile hload hrule
  rw [ofFile_of_holds hholds] at hload
  obtain ⟨results, hresults, rfl⟩ := map_eq_ok_iff.mp hload
  obtain ⟨given, hgiven, hrule⟩ := mem_flatten.mp hrule
  obtain ⟨entry, hentry, hread⟩ := exists_mem_of_mapM hresults hgiven
  obtain ⟨hproblems, hvalue, henabled⟩ := enabled_of_mem_ofEntry hread hrule
  exact ⟨⟨path, hpath, entries, hholds, entry, hentry, hproblems, hvalue⟩, henabled⟩

def Names (rule : Rule) (function : String) : Prop :=
  rule.pattern.isCall ∧ ∃ names, rule.pattern.allNames = .ok names ∧ .str function ∈ names

/-- A rule that is filed for calls of a function stands under its name, whatever is filed after it. -/
lemma mem_under_of_addRules {next} (h : rules.foldlM addRule table = .ok next)
    (hrule : rule ∈ under table function ∨ rule ∈ rules ∧ Names rule function) : rule ∈ under next function := by
  induction rules generalizing table with
  | nil =>
    cases h
    simpa using hrule
  | cons first rules ih =>
    rw [foldlM_cons] at h
    obtain ⟨filed, hfiled, h⟩ := of_bind h
    refine ih h ?_
    -- what stands there stays, and the first rule is put behind it if it names the function
    have hstays : rule ∈ under table function → rule ∈ under filed function := by
      unfold addRule at hfiled
      split at hfiled
      · obtain ⟨names, -, hfiled⟩ := of_bind hfiled
        cases hfiled
        rw [under_addNames]
        exact mem_append_left _
      · cases hfiled
        exact id
    rcases hrule with hold | ⟨hmem, hnames⟩
    · exact .inl (hstays hold)
    · rcases mem_cons.mp hmem with rfl | hmem
      · obtain ⟨hcall, names, hall, hfunction⟩ := hnames
        rw [addRule, if_pos hcall, hall] at hfiled
        cases hfiled
        rw [under_addNames]
        simp [same_str_iff, hfunction]
      · exact .inr ⟨hmem, hnames⟩

/-- **A rule that is not enabled overrides nothing.** Where a directory has only such rules with the id of a rule of
the library, that rule stays, and is found for every function that it names. -/
theorem disabled_rule_overrides_nothing {own user : List Rule} {strict : Bool} {files : FileTree} {directory : String}
    (h : ofDirectory strict files directory = .ok user) (hids : ∀ other ∈ own ++ user, other.id.hashable = true)
    {rule : Rule} (hrule : IsLast own rule)
    (hdisabled : ∀ path ∈ ruleFiles files directory, ∀ other, HasRule files path other →
      other.id.same rule.id = true → other.enabled.truthy = false) :
    ∃ rules, extended own strict files [directory] = .ok rules ∧ rule ∈ rules ∧
      ∀ index, RuleIndex.ofRules rules = .ok index → ∀ function language, Names rule function → language ∈ rule.languages →
        ∃ found, index.matchCall (.str function) (.str language) = .ok found ∧ rule ∈ found := by
  -- what was loaded is enabled, so none of it has the id
  have hother : ∀ other ∈ user, other.id.same rule.id = false := by
    intro other hmem
    obtain ⟨⟨path, hpath, hhas⟩, henabled⟩ := hasRule_of_mem_ofFiles h hmem
    refine Bool.eq_false_iff.mpr fun hsame => ?_
    rw [hdisabled path hpath other hhas hsame] at henabled
    cases henabled
  have hload : ofFiles strict files ([directory].flatMap (ruleFiles files)) = .ok user := by
    rwa [flatMap_singleton]
  obtain ⟨rules, hrules, hresolved⟩ := exists_extended hload hids
  have hmem : rule ∈ rules := (hresolved.mem_iff rule).mpr (isLast_append_iff.mpr (.inr ⟨hrule, hother⟩))
  refine ⟨rules, hrules, hmem, fun index hindex function language hnames hlanguage => ?_⟩
  obtain ⟨table, htable, hend⟩ := bind_eq_ok_iff.mp hindex
  cases hend
  refine ⟨_, rfl, mem_filter.mpr ⟨mem_under_of_addRules htable (.inr ⟨hmem, hnames⟩), ?_⟩⟩
  exact contains_iff_mem.mpr hlanguage

def disabling : FileTree := ruleDirectory
  "\x7b'rules': [\x7b'id': 'VP-PY-001', 'name': '', 'message': '', 'severity': '', 'pattern': \x7b\x7d, 'enabled': false\x7d]\x7d"

/-- The directory has a rule for the id that is not enabled, and the rule of the library is still found. -/
theorem evaluating_stays :
    (∃ other, HasRule disabling "d/r.yml" other ∧ other.id.same evaluating.id = true ∧ other.enabled.truthy = false) ∧
    ∃ index found, extended [evaluating] false disabling ["d"] = .ok [evaluating] ∧
      RuleIndex.ofRules [evaluating] = .ok index ∧
      index.matchCall (.str "eval") (.str "python") = .ok found ∧ evaluating ∈ found := by
  have htest : (entries? disabling "d/r.yml").any (fun entries => entries.length == 1 && entries.all fun entry =>
      (Rule.problems entry "d/r.yml").toOption.any isEmpty &&
      (ofEntry false "d/r.yml" entry).toOption.any isEmpty &&
      (Rule.ofValue entry (.str "d/r.yml")).toOption.any fun other =>
        other.id.same evaluating.id && !other.enabled.truthy) = true := by
    decide +kernel
  obtain ⟨entries, hentries, htest⟩ := Option.any_eq_true _ _ |>.mp htest
  obtain ⟨hlength, htest⟩ := Bool.and_eq_true_iff.mp htest
  obtain ⟨entry, rfl⟩ := length_eq_one_iff.mp (beq_iff_eq.mp hlength)
  obtain ⟨⟨hproblems, hnone⟩, other, hother, hsame, hoff⟩ : (Rule.problems entry "d/r.yml" = .ok [] ∧
      ofEntry false "d/r.yml" entry = .ok []) ∧ ∃ other, Rule.ofValue entry (.str "d/r.yml") = .ok other ∧
        other.id.same evaluating.id = true ∧ other.enabled.truthy = false := by
    simpa [Option.any_eq_true, toOption_eq_some_iff] using htest
  have hholds := holds_iff.mpr hentries
  have hfiles : ruleFiles disabling "d" = ["d/r.yml"] := by
    rw [← ruleFiles_ruleDirectory, flatMap_singleton, disabling]
  have hload : ofDirectory false disabling "d" = .ok [] := by
    rw [ofDirectory, hfiles, ofFiles, mapM_cons, ofFile_of_holds hholds, mapM_cons, hnone]
    rfl
  have hdisabled : ∀ path ∈ ruleFiles disabling "d", ∀ rule, HasRule disabling path rule →
      rule.id.same evaluating.id = true → rule.enabled.truthy = false := by
    rintro path hpath rule ⟨_, hholds', read, hread, -, hrule⟩ -
    rw [hfiles, mem_singleton] at hpath
    subst hpath
    cases hentries.symm.trans (holds_iff.mp hholds')
    cases mem_singleton.mp hread
    cases hother.symm.trans hrule
    exact hoff
  have hlast : IsLast [evaluating] evaluating := ⟨[], [], rfl, fun _ => not_mem_nil.elim⟩
  have hids : ∀ other ∈ [evaluating] ++ [], other.id.hashable = true := by
    simp [evaluating, hashable]
  obtain ⟨rules, hrules, -, hfound⟩ := disabled_rule_overrides_nothing hload hids hlast hdisabled
  obtain rfl : rules = [evaluating] := by
    have hload' : ofFiles false disabling (["d"].flatMap (ruleFiles disabling)) = .ok [] := by
      rwa [flatMap_singleton]
    rw [extended, hload', ok_bind] at hrules
    exact (Except.ok.inj hrules).symm
  obtain ⟨index, hindex⟩ := isOk_iff.mp (by decide +kernel : (RuleIndex.ofRules [evaluating]).isOk = true)
  obtain ⟨names, hnames, hlisted⟩ := Option.any_eq_true _ _ |>.mp
    (by decide +kernel : evaluating.pattern.allNames.toOption.any (str "eval").isOneOf = true)
  obtain ⟨found, hmatch, hin⟩ := hfound index hindex "eval" "python"
    ⟨by decide +kernel, names, toOption_eq_some_iff.mp hnames, isOneOf_str_iff.mp hlisted⟩ mem_cons_self
  exact ⟨⟨other, ⟨[entry], hholds, entry, mem_cons_self, hproblems, hother⟩, hsame, hoff⟩,
    index, found, hrules, hindex, hmatch, hin⟩

end Rules

end CodeAudit

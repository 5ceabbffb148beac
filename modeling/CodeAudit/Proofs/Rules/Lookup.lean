import CodeAudit.Proofs.Outcome
import CodeAudit.Proofs.Record
import CodeAudit.Rules.Index

/-!
# Looking rules up by name

An index files each rule under the names of its pattern, behind those that stand there already (`under_addName`), and a
pattern lists a name that it matches once (`filter_once`). So under a name stand the rules that match it, in order: an
index finds what a scan finds (`lookup_eq_scan`).
-/

namespace CodeAudit

open Proofs List Bool Value RulePattern

variable {s : String} {v : Value}

/-! ## Texts among values -/

namespace Value

lemma same_str_iff : v.same (.str s) ↔ v = .str s := by
  cases v <;> simp [same, number?]

lemma str_same_iff : (str s).same v ↔ str s = v := by
  cases v <;> simp [same, number?]

lemma isOneOf_append (v : Value) (items others : List Value) :
    v.isOneOf (items ++ others) = (v.isOneOf items || v.isOneOf others) := any_append

lemma isOneOf_str_iff : (str s).isOneOf items ↔ .str s ∈ items := by
  unfold isOneOf
  rw [any_eq_true]
  constructor
  · rintro ⟨v, hv, hsame⟩
    rwa [str_same_iff.mp hsame]
  · intro hmem
    exact ⟨_, hmem, str_same_iff.mpr rfl⟩

end Value

/-! ## The names of a pattern -/

namespace RulePattern

lemma once_concat (all : List Value) (v : Value) :
    once (all ++ [v]) = if v.isOneOf (once all) then once all else once all ++ [v] := by
  unfold once
  rw [foldl_append]
  rfl

lemma mem_of_mem_once {all : List Value} (h : v ∈ once all) : v ∈ all := by
  induction all using reverseRecOn with
  | nil => exact h
  | append_singleton all w ih =>
    rw [once_concat] at h
    split at h
    · exact mem_append_left _ (ih h)
    · exact (mem_append.mp h).elim (fun hold => mem_append_left _ (ih hold)) (mem_append_right _)

lemma filter_once (all : List Value) (s : String) :
    (once all).filter (·.same (.str s)) = if (str s).isOneOf all then [.str s] else [] := by
  -- the first of equal values is kept, so the last one is taken off
  induction all using reverseRecOn with
  | nil => rfl
  | append_singleton all v ih =>
    rw [once_concat, isOneOf_append]
    by_cases hv : v = .str s
    · subst hv
      have hkept : (str s).isOneOf (once all) = (str s).isOneOf all := by
        have hmem : .str s ∈ once all ↔ .str s ∈ (once all).filter (·.same (.str s)) := by
          simp [same_str_iff]
        rw [Bool.eq_iff_iff, isOneOf_str_iff, hmem, ih]
        cases (str s).isOneOf all <;> simp
      have hself : (str s).isOneOf [.str s] := isOneOf_str_iff.mpr mem_cons_self
      rw [hkept, hself, Bool.or_true, if_pos rfl]
      cases hall : (str s).isOneOf all with
      | true => rw [if_pos rfl, ih, hall, if_pos rfl]
      | false =>
        have hsame : (str s).same (.str s) := same_str_iff.mpr rfl
        simp [ih, hall, hsame]
    · have hother : (str s).isOneOf [v] = false := by
        refine eq_false_iff.mpr fun hmem => hv ?_
        exact (mem_singleton.mp (isOneOf_str_iff.mp hmem)).symm
      have hsame : v.same (.str s) = false := eq_false_iff.mpr fun hsame => hv (same_str_iff.mp hsame)
      rw [hother, Bool.or_false, ← ih]
      split <;> simp [hsame]

/-- The name of a pattern is a text or absent, and so are its names. -/
structure IsTyped (p : RulePattern) : Prop where
  name : ∃ given : Option String, p.name = .optText given
  names : ∃ given : Option (List String), p.names = (given.map .texts).getD .null

lemma IsTyped.exists_written {p : RulePattern} (h : p.IsTyped) : ∃ texts : List String,
    p.written = .ok (texts.map .str) ∧
      ∀ s, p.matchesCall (.str s) = .ok (p.isCall && (str s).isOneOf (texts.map .str)) := by
  obtain ⟨⟨name, hname⟩, names, hnames⟩ := h
  have hsingle : (if p.name.truthy then [p.name] else []) = (name.toList.filter (!·.isEmpty)).map .str := by
    cases name with
    | none => simp [hname, optText, truthy]
    | some s => cases hs : s.isEmpty <;> simp [hname, optText, truthy, hs]
  have hseveral : (if p.names.truthy then p.names.elements else .ok []) = .ok ((names.getD []).map .str) := by
    rw [hnames]
    cases names with
    | none => rfl
    | some texts => cases texts <;> rfl
  have hmember : ∀ s, (if p.names.truthy then (str s).member p.names else .ok false) =
      .ok ((str s).isOneOf ((names.getD []).map .str)) := by
    intro s
    rw [hnames]
    cases names with
    | none => rfl
    | some texts => cases texts <;> rfl
  refine ⟨name.toList.filter (!·.isEmpty) ++ names.getD [], ?_, fun s => ?_⟩
  · unfold written
    rw [hseveral, hsingle, map_append]
    rfl
  · unfold matchesCall
    rw [map_append, isOneOf_append, ← hsingle, hmember]
    cases p.isCall <;> cases htruthy : p.name.truthy <;> cases hsame : (str s).same p.name <;>
      simp [isOneOf, hsame]

end RulePattern

def Rule.isMatch (rule : Rule) (function : String) : Bool :=
  (rule.pattern.matchesCall (.str function)).toOption == some true

namespace RuleIndex

/-- The rules that match a call of a function in a language, found by asking one after the other. -/
def scan (rules : List Rule) (function language : Value) : Except Fault (List Rule) :=
  rules.filterM fun rule => (rule.pattern.matchesCall function).map (· && language.isWordOf rule.languages)

def under (table : List (Value × List Rule)) (name : String) : List Rule :=
  ((table.find? (·.1.same (.str name))).map (·.2)).getD []

/-! ## Filing a rule -/

variable {table : List (Value × List Rule)} {rules : List Rule}

lemma eq_of_find? (h : table.find? (·.1.same (.str s)) = some entry) : entry.1 = .str s := by
  have hsame := find?_some h
  exact same_str_iff.mp hsame

section Filing

variable (table : List (Value × List Rule)) (rule : Rule)

lemma under_addName (name : Value) (s : String) :
    under (addName table rule name) s = under table s ++ ([name].filter (·.same (.str s))).map fun _ => rule := by
  -- a rule is put where its name stands, and no name changes by that
  let put := fun entry : Value × List Rule => if entry.1.same name then (entry.1, entry.2 ++ [rule]) else entry
  have hfound : (table.map put).find? (·.1.same (.str s)) = (table.find? (·.1.same (.str s))).map put := by
    have hkeeps : ((fun entry : Value × List Rule => entry.1.same (.str s)) ∘ put) = (·.1.same (.str s)) := by
      funext entry
      by_cases hname : entry.1.same name <;> simp [put, hname]
    rw [find?_map, hkeeps]
  unfold under addName
  by_cases hname : name = .str s
  · subst hname
    have hself : (str s).same (.str s) := same_str_iff.mpr rfl
    have hany : table.any (·.1.same (.str s)) = (table.find? (·.1.same (.str s))).isSome := by
      rw [Bool.eq_iff_iff, find?_isSome, any_eq_true]
    cases hfind : table.find? (·.1.same (.str s)) with
    | none => simp [hany, hfind, hself]
    | some entry =>
      rw [hany, hfind, Option.isSome_some, if_pos rfl, hfound, hfind]
      simp [put, eq_of_find? hfind, hself]
  · have hother : name.same (.str s) = false := eq_false_iff.mpr fun hsame => hname (same_str_iff.mp hsame)
    have hrest : ([name].filter (·.same (.str s))).map (fun _ => rule) = [] := by simp [hother]
    rw [hrest, append_nil]
    split
    · rw [hfound]
      cases hfind : table.find? (·.1.same (.str s)) with
      | none => rfl
      | some entry =>
        -- what stands under this text does not stand under the other name
        have hunlike : entry.1.same name = false := by
          rw [eq_of_find? hfind]
          exact eq_false_iff.mpr fun hsame => hname (str_same_iff.mp hsame).symm
        simp [put, hunlike]
    · simp [hother]

lemma under_addNames (names : List Value) (s : String) :
    under (names.foldl (fun t name => addName t rule name) table) s =
      under table s ++ (names.filter (·.same (.str s))).map fun _ => rule := by
  induction names generalizing table with
  | nil => simp
  | cons name names ih =>
    rw [foldl_cons, ih, under_addName, append_assoc, ← map_append, ← filter_append, singleton_append]

end Filing

/-- Each name is a text that stands there once, with some rules. -/
structure IsFiled (table : List (Value × List Rule)) : Prop where
  named : ∀ entry ∈ table, ∃ s, entry.1 = .str s
  filled : ∀ entry ∈ table, entry.2 ≠ []
  nodup : (table.map (·.1)).Nodup

namespace IsFiled

variable {table : List (Value × List Rule)} (h : IsFiled table)

include h

lemma addName (rule : Rule) (s : String) : IsFiled (addName table rule (.str s)) := by
  unfold RuleIndex.addName
  split
  · refine ⟨?_, ?_, ?_⟩
    · intro entry hentry
      obtain ⟨old, hold, rfl⟩ := mem_map.mp hentry
      split <;> exact h.named old hold
    · intro entry hentry
      obtain ⟨old, hold, rfl⟩ := mem_map.mp hentry
      split
      · simp
      · exact h.filled old hold
    · rw [map_map]
      convert h.nodup using 2
      funext entry
      by_cases hsame : entry.1.same (.str s) <;> simp [hsame]
  · next hnew =>
    refine ⟨?_, ?_, ?_⟩
    · simpa [or_imp, forall_and] using h.named
    · simpa [or_imp, forall_and] using h.filled
    · rw [map_append, map_singleton]
      refine nodup_append.mpr ⟨h.nodup, pairwise_singleton _ _, ?_⟩
      rintro v hv _ hs rfl
      obtain ⟨entry, hentry, hname⟩ := mem_map.mp hv
      refine hnew (any_eq_true.mpr ⟨entry, hentry, same_str_iff.mpr ?_⟩)
      exact hname.trans (mem_singleton.mp hs)

lemma addNames (rule : Rule) {names : List Value} (hnames : ∀ v ∈ names, ∃ s, v = .str s) :
    IsFiled (names.foldl (fun t name => RuleIndex.addName t rule name) table) := by
  induction names generalizing table with
  | nil => exact h
  | cons name names ih =>
    obtain ⟨⟨s, rfl⟩, hrest⟩ := forall_mem_cons.mp hnames
    exact ih (h.addName rule s) hrest

lemma mem_names_iff : v ∈ table.map (·.1) ↔ ∃ s, v = .str s ∧ under table s ≠ [] := by
  constructor
  · intro hv
    obtain ⟨entry, hentry, rfl⟩ := mem_map.mp hv
    obtain ⟨s, hs⟩ := h.named entry hentry
    refine ⟨s, hs, ?_⟩
    unfold under
    cases hfind : table.find? (·.1.same (.str s)) with
    | none => exact absurd (same_str_iff.mpr hs) (find?_eq_none.mp hfind entry hentry)
    | some found => exact h.filled found (mem_of_find?_eq_some hfind)
  · rintro ⟨s, rfl, hunder⟩
    unfold under at hunder
    cases hfind : table.find? (·.1.same (.str s)) with
    | none => simp [hfind] at hunder
    | some entry =>
      rw [← eq_of_find? hfind]
      exact mem_map_of_mem (mem_of_find?_eq_some hfind)

end IsFiled

/-! ## Rules -/

/-- A rule with a typed pattern is filed under the names that it matches. -/
lemma exists_addRule (h : IsFiled table) (hrule : rule.pattern.IsTyped) :
    ∃ next, addRule table rule = .ok next ∧ IsFiled next ∧
      ∀ s, under next s = under table s ++ [rule].filter (·.isMatch s) := by
  obtain ⟨texts, hwritten, hmatches⟩ := hrule.exists_written
  have hmatch : ∀ s, rule.isMatch s = (rule.pattern.isCall && (str s).isOneOf (texts.map .str)) := by
    intro s
    simp [Rule.isMatch, hmatches, Except.toOption]
  cases hcall : rule.pattern.isCall with
  | false => exact ⟨table, by simp [addRule, hcall], h, fun s => by simp [hmatch, hcall]⟩
  | true =>
    have hnames : rule.pattern.allNames = .ok (once (texts.map .str)) := by
      have hhashable : (texts.map str).all hashable := by simp [hashable]
      unfold RulePattern.allNames
      rw [hwritten, ok_bind, if_pos hhashable, pure_eq_ok]
    have hadd : addRule table rule = .ok ((once (texts.map .str)).foldl (fun t name => addName t rule name) table) := by
      simp [addRule, hcall, hnames]
    refine ⟨_, hadd, h.addNames rule fun v hv => ?_, fun s => ?_⟩
    · obtain ⟨s, -, rfl⟩ := mem_map.mp (mem_of_mem_once hv)
      exact ⟨s, rfl⟩
    · rw [under_addNames, filter_once]
      cases hlisted : (str s).isOneOf (texts.map .str) <;> simp [hmatch, hcall, hlisted]

/-- An index of rules with typed patterns holds under each name those that match it. -/
lemma exists_addRules (h : IsFiled table) (hrules : ∀ rule ∈ rules, rule.pattern.IsTyped) :
    ∃ next, rules.foldlM addRule table = .ok next ∧ IsFiled next ∧
      ∀ s, under next s = under table s ++ rules.filter (·.isMatch s) := by
  induction rules generalizing table with
  | nil => exact ⟨table, rfl, h, fun s => (append_nil _).symm⟩
  | cons rule rules ih =>
    obtain ⟨hrule, hrest⟩ := forall_mem_cons.mp hrules
    obtain ⟨next, hnext, hfiled, hunder⟩ := exists_addRule h hrule
    obtain ⟨last, hlast, hlastFiled, hlastUnder⟩ := ih hfiled hrest
    refine ⟨last, ?_, hlastFiled, fun s => ?_⟩
    · rw [foldlM_cons, hnext, ok_bind, hlast]
    · rw [hlastUnder, hunder, append_assoc, ← filter_append, singleton_append]

/-- **An index finds what a scan finds**, and its names are those that some rule matches, each once. -/
theorem lookup_eq_scan (h : ∀ rule ∈ rules, rule.pattern.IsTyped) : ∃ index, ofRules rules = .ok index ∧
      (∀ function language : String, ∃ found, index.matchCall (.str function) (.str language) = .ok found ∧
        scan rules (.str function) (.str language) = .ok found) ∧
      index.functionNames.Nodup ∧
      ∀ v, v ∈ index.functionNames ↔
        ∃ function : String, v = .str function ∧ ∃ rule ∈ rules, rule.pattern.matchesCall (.str function) = .ok true := by
  have hempty : IsFiled [] := ⟨fun _ => List.not_mem_nil.elim, fun _ => List.not_mem_nil.elim, List.nodup_nil⟩
  obtain ⟨table, htable, hfiled, hunder⟩ := exists_addRules hempty h
  -- a scan fails where one test does, so it is needed that none fails
  have htests : ∀ function, ∀ rule ∈ rules, ∃ b, rule.pattern.matchesCall (.str function) = .ok b := by
    intro function rule hrule
    obtain ⟨texts, -, hmatches⟩ := (h rule hrule).exists_written
    exact ⟨_, hmatches function⟩
  refine ⟨{ rules, byName := table }, by simp [ofRules, htable], fun function language => ?_, hfiled.nodup, fun v => ?_⟩
  · refine ⟨(under table function).filter fun rule => (Value.str language).isWordOf rule.languages, rfl, ?_⟩
    unfold scan
    rw [filterM_eq_ok fun rule hrule => (htests function rule hrule).elim fun b hb => ⟨_, by rw [hb]; rfl⟩, hunder]
    change _ = Except.ok ((rules.filter _).filter _)
    rw [List.filter_filter]
    refine congrArg _ (List.filter_congr fun rule hrule => ?_)
    obtain ⟨b, hb⟩ := htests function rule hrule
    rw [Rule.isMatch, hb]
    cases b <;> simp [Except.toOption, Except.map]
  · refine hfiled.mem_names_iff.trans (exists_congr fun function => and_congr_right fun _ => ?_)
    rw [hunder]
    change ¬ rules.filter _ = [] ↔ _
    rw [List.filter_eq_nil_iff]
    simp [Rule.isMatch, toOption_eq_some_iff]

def evaluating : Rule where
  id := .str "VP-PY-001"
  name := .str "eval-injection"
  severity := .str "critical"
  message := .str "Use of eval()"
  pattern := { kind := .str callKind, name := .str "eval", names := .texts ["exec", "eval", ""] }
  confidence := "high"
  languages := ["python"]
  cwe := .null
  references := .list []
  category := .str "injection"
  enabled := .bool true
  tags := .list []
  sourceFile := .null

/-- A rule that is listed twice is found twice, however often it names the function. -/
theorem evaluating_found_twice : ∃ index, ofRules [evaluating, evaluating] = .ok index ∧
    (∃ found, index.matchCall (.str "eval") (.str "python") = .ok found ∧ found.length = 2) ∧
    .str "" ∈ index.functionNames := by
  have htyped : ∀ rule ∈ [evaluating, evaluating], rule.pattern.IsTyped := by
    simpa using IsTyped.mk ⟨some "eval", rfl⟩ ⟨some ["exec", "eval", ""], rfl⟩
  obtain ⟨index, hindex, hlookup, -, hnames⟩ := lookup_eq_scan htyped
  obtain ⟨found, hfound, hscan⟩ := hlookup "eval" "python"
  have hlength : (scan [evaluating, evaluating] (.str "eval") (.str "python")).toOption.map length = some 2 := by
    decide +kernel
  rw [hscan] at hlength
  exact ⟨index, hindex, ⟨found, hfound, Option.some.inj hlength⟩,
    (hnames _).mpr ⟨"", rfl, evaluating, mem_cons_self, toOption_eq_some_iff.mp (by decide +kernel)⟩⟩

end RuleIndex

end CodeAudit

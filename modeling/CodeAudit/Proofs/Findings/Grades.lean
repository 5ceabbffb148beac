import Mathlib.Data.Prod.Lex
import CodeAudit.Proofs.Decimal.Order
import CodeAudit.Proofs.Report.SeverityAgreement
import CodeAudit.Python.Functions

/-!
# The grade of a finding

A finding gets the first of the gravest grades among the rules that its evidence brings in, and is unclassified only
where no rule is. More evidence is graded at least as grave and scored no lower, because in the registry the products
of severity and confidence rise with the order by which the gravest is chosen. No rule knows `compile` and `input`, so
a function reported for such calls alone is unclassified.
-/

namespace CodeAudit

open Proofs List Option Value Text Except Grade

/-! ## The gravest grade -/

namespace Grade

variable {a b grade : Grade} {grades : List Grade}

/-- What grades are compared by: severity first, then confidence. -/
def weight (grade : Grade) : ℕ ×ₗ ℕ := toLex (grade.severity.rank, grade.confidence.rank)

lemma graver_iff : graver a b ↔ b.weight < a.weight := by
  unfold graver weight
  rw [Prod.Lex.toLex_lt_toLex, Bool.or_eq_true, Bool.and_eq_true, beq_iff_eq, decide_eq_true_iff, decide_eq_true_iff,
    eq_comm]

/-- A grade is among some, graver than all before it and at least as grave as all after it. -/
def IsFirstGravest (grades : List Grade) (grade : Grade) : Prop :=
  ∃ before after, grades = before ++ grade :: after ∧ (∀ other ∈ before, other.weight < grade.weight) ∧
    ∀ other ∈ after, other.weight ≤ grade.weight

lemma IsFirstGravest.mem (h : IsFirstGravest grades grade) : grade ∈ grades := by
  obtain ⟨before, after, rfl, -, -⟩ := h
  simp

lemma IsFirstGravest.weight_le (h : IsFirstGravest grades grade)
    (hother : other ∈ grades) : other.weight ≤ grade.weight := by
  obtain ⟨before, after, rfl, hbefore, hafter⟩ := h
  rw [mem_append, mem_cons] at hother
  rcases hother with hother | rfl | hother
  · exact (hbefore other hother).le
  · exact le_rfl
  · exact hafter other hother

/-- The search goes through a list with the gravest grade so far, which stands before the rest of the list. -/
lemma isFirstGravest_foldl (best : Grade) (grades : List Grade) : IsFirstGravest (best :: grades)
    (grades.foldl (fun best grade => if graver grade best then grade else best) best) := by
  induction grades generalizing best with
  | nil => exact ⟨[], [], rfl, by simp, by simp⟩
  | cons grade grades ih =>
    rw [foldl_cons]
    by_cases hgraver : graver grade best
    · rw [if_pos hgraver]
      have hlt := graver_iff.mp hgraver
      -- The grade is the best so far from here on, and it beats the one that it replaces.
      obtain ⟨before, after, heq, hbefore, hafter⟩ := ih grade
      have hbest := hlt.trans_le ((ih grade).weight_le mem_cons_self)
      exact ⟨best :: before, after, congrArg (best :: ·) heq, forall_mem_cons.mpr ⟨hbest, hbefore⟩, hafter⟩
    · rw [if_neg hgraver]
      have hle : grade.weight ≤ best.weight := not_lt.mp fun hlt => hgraver (graver_iff.mpr hlt)
      obtain ⟨before, after, heq, hbefore, hafter⟩ := ih best
      cases before with
      | nil =>
        -- The best so far stays the best, and the grade that was passed is no graver.
        obtain ⟨hsame, rfl⟩ := cons.inj heq
        exact ⟨[], grade :: grades, congrArg (· :: _) hsame, by simp, forall_mem_cons.mpr ⟨hsame ▸ hle, hafter⟩⟩
      | cons first before =>
        obtain ⟨rfl, hrest⟩ := cons.inj heq
        obtain ⟨hbest, hbefore⟩ := forall_mem_cons.mp hbefore
        refine ⟨best :: grade :: before, after, congrArg (fun rest => best :: grade :: rest) hrest, ?_, hafter⟩
        exact forall_mem_cons.mpr ⟨hbest, forall_mem_cons.mpr ⟨hle.trans_lt hbest, hbefore⟩⟩

lemma find?_eq_some {id : String} (h : find? id = some grade) : grade ∈ registry ∧ grade.id = id :=
  ⟨mem_of_find?_eq_some h, by simpa using find?_some h⟩

lemma id_ne_unknown (h : grade ∈ registry) : grade.id ≠ unknown.id := by
  have hall : registry.all (fun grade => grade.id != unknown.id) := by decide
  simpa using all_eq_true.mp hall grade h

lemma weight_unknown_lt (h : grade ∈ registry) : unknown.weight < grade.weight := by
  have hall : registry.all (graver · unknown) := by decide
  exact graver_iff.mp (all_eq_true.mp hall grade h)

lemma isFirstGravest_gravest (h : ∀ grade ∈ grades, grade ∈ registry) (hne : grades ≠ []) :
    IsFirstGravest grades (gravest grades) := by
  have hfirst : IsFirstGravest (unknown :: grades) (gravest grades) := isFirstGravest_foldl unknown grades
  obtain ⟨before, after, heq, hbefore, hafter⟩ := hfirst
  cases before with
  | nil =>
    -- Then the search would have passed a grade of the registry and kept that of unclassified findings.
    obtain ⟨hunknown, rfl⟩ := cons.inj heq
    obtain ⟨grade, hgrade⟩ := exists_mem_of_ne_nil grades hne
    have hle := hafter grade hgrade
    rw [← hunknown] at hle
    exact absurd (weight_unknown_lt (h grade hgrade)) (not_lt.mpr hle)
  | cons first before =>
    obtain ⟨-, hrest⟩ := cons.inj heq
    exact ⟨before, after, hrest, (forall_mem_cons.mp hbefore).2, hafter⟩

def product (grade : Grade) : Nat := grade.severity.rank * grade.confidence.rank

/-- In the registry, graver grades do not have smaller products. -/
lemma product_le_of_weight_le (ha : a ∈ unknown :: registry) (hb : b ∈ unknown :: registry)
    (h : a.weight ≤ b.weight) : a.product ≤ b.product := by
  -- This is no fact about products: it holds of the pairs that the registry has.
  have hall : ((unknown :: registry).all fun a => (unknown :: registry).all fun b =>
      graver a b || decide (a.product ≤ b.product)) := by decide +kernel
  have hpair := all_eq_true.mp (all_eq_true.mp hall a ha) b hb
  rcases Bool.or_eq_true _ _ ▸ hpair with hgraver | hle
  · exact absurd (graver_iff.mp hgraver) (not_lt.mpr h)
  · exact of_decide_eq_true hle

/-- The blended score of a grade and a model's score, in exact arithmetic. -/
def exactScore (grade : Grade) (score : ℚ) : ℚ :=
  Classification.blend (fun n => (n : ℚ)) grade.severity grade.confidence (3 / 5) (2 / 5) score

lemma exactScore_le (h : a.product ≤ b.product) (score : ℚ) : a.exactScore score ≤ b.exactScore score := by
  have hproduct : (a.severity.rank : ℚ) * a.confidence.rank ≤ b.severity.rank * b.confidence.rank := by
    exact_mod_cast h
  unfold exactScore Classification.blend
  push_cast
  split_ifs <;> linarith

end Grade

/-! ## Rules that are brought in -/

namespace Classification

variable {r s : Record} {v w : Value} {m n : Number} {id : String} {grade : Grade} {clause : Clause} {limit : Int}

namespace Clause

variable {r : Record} {clause : Clause} {id : String}

def field : Clause → String
  | calls field _ _ => field
  | set field _ => field
  | above field _ _ => field

def ids : Clause → List String
  | calls _ byWords other => byWords.map (·.2) ++ other.toList
  | set _ rule => [rule]
  | above _ _ rule => [rule]

lemma rules_congr (h : r.get? clause.field = s.get? clause.field) : clause.rules r = clause.rules s := by
  have hget : ∀ default, r.getD clause.field default = s.getD clause.field default := fun default =>
    congrArg (·.getD default) h
  cases clause <;> simp only [field] at hget <;> simp only [rules, hget]

lemma mem_of_ruleOfCall
    (h : ruleOfCall call other byWords = .ok (some id)) : id ∈ byWords.map (·.2) ++ other.toList := by
  induction byWords with
  | nil =>
    cases h
    exact mem_singleton_self id
  | cons entry rest ih =>
    obtain ⟨mentioned, -, h⟩ := of_bind h
    cases mentioned with
    | true =>
      cases h
      exact mem_cons_self
    | false => exact mem_cons_of_mem _ (ih h)

/-- A clause brings in a rule for a finding. -/
def Brings (r : Record) (id : String) : Clause → Prop
  | calls field byWords other => ∃ calls, (r.getD field (.list [])).elements = .ok calls ∧
      ∃ call ∈ calls, ruleOfCall call other byWords = .ok (some id)
  | set field rule => id = rule ∧ (r.getD field .null).truthy
  | above field limit rule => id = rule ∧ (r.getD field (.int 0)).exceeds (.int limit) = .ok true

lemma mem_rules_iff (h : clause.rules r = .ok found) : id ∈ found ↔ clause.Brings r id := by
  cases clause with
  | calls field byWords other =>
    obtain ⟨calls, hcalls, h⟩ := of_bind h
    obtain ⟨results, hresults, h⟩ := of_bind h
    cases h
    simp only [mem_filterMap, exists_eq_right]
    constructor
    · intro hid
      exact ⟨calls, hcalls, exists_mem_of_mapM hresults hid⟩
    · rintro ⟨_, hsame, call, hcall, hid⟩
      cases hcalls.symm.trans hsame
      obtain ⟨result, hresult, heq⟩ := exists_result_of_mapM hresults hcall
      cases hid.symm.trans heq
      exact hresult
  | set field rule =>
    cases h
    unfold Brings
    split <;> simp [*]
  | above field limit rule =>
    obtain ⟨isAbove, habove, h⟩ := of_bind h
    cases h
    rw [Brings, habove]
    cases isAbove <;> simp

lemma Brings.mem_ids (h : clause.Brings r id) : id ∈ clause.ids := by
  cases clause with
  | calls field byWords other =>
    obtain ⟨_, -, _, -, hid⟩ := h
    exact mem_of_ruleOfCall hid
  | set field rule => exact mem_singleton.mpr h.1
  | above field limit rule => exact mem_singleton.mpr h.1

lemma isSome_find? (h : clause ∈ all) (hid : id ∈ clause.ids) : (find? id).isSome := by
  have hall : (all.all fun clause => clause.ids.all fun id => (find? id).isSome) := by decide
  exact all_eq_true.mp (all_eq_true.mp hall clause h) id hid

end Clause

variable {ids : List String}

lemma mem_rulesOf_iff (h : rulesOf r = .ok ids) : id ∈ ids ↔ ∃ clause ∈ Clause.all, clause.Brings r id := by
  obtain ⟨lists, hlists, h⟩ := of_bind h
  cases h
  rw [mem_flatten]
  constructor
  · rintro ⟨found, hfound, hid⟩
    obtain ⟨clause, hclause, hrules⟩ := exists_mem_of_mapM hlists hfound
    exact ⟨clause, hclause, (Clause.mem_rules_iff hrules).mp hid⟩
  · rintro ⟨clause, hclause, hid⟩
    obtain ⟨found, hfound, hrules⟩ := exists_result_of_mapM hlists hclause
    exact ⟨found, hfound, (Clause.mem_rules_iff hrules).mpr hid⟩

lemma rulesOf_eq_nil_iff (h : rulesOf r = .ok ids) : ids = [] ↔ ∀ clause ∈ Clause.all, clause.rules r = .ok [] := by
  obtain ⟨lists, hlists, h⟩ := of_bind h
  cases h
  rw [flatten_eq_nil_iff]
  constructor
  · intro hnil clause hclause
    obtain ⟨found, hfound, hrules⟩ := exists_result_of_mapM hlists hclause
    rw [hrules, hnil found hfound]
  · intro hnil found hfound
    obtain ⟨clause, hclause, hrules⟩ := exists_mem_of_mapM hlists hfound
    exact ok.inj (hrules.symm.trans (hnil clause hclause))

lemma eq_map_id_of_rulesOf (h : rulesOf r = .ok ids) : ids = (ids.filterMap find?).map (·.id) := by
  have hall : ∀ id ∈ ids, (find? id).isSome := by
    intro id hid
    obtain ⟨clause, hclause, hbrings⟩ := (mem_rulesOf_iff h).mp hid
    exact Clause.isSome_find? hclause hbrings.mem_ids
  clear h
  induction ids with
  | nil => rfl
  | cons id ids ih =>
    obtain ⟨grade, hgrade⟩ := isSome_iff_exists.mp (hall id mem_cons_self)
    rw [filterMap_cons_some hgrade, map_cons, (find?_eq_some hgrade).2,
      ← ih fun other hother => hall other (mem_cons_of_mem id hother)]

/-- A grade is chosen among those of some rules: the first of the gravest, or that of unclassified findings. -/
structure Chooses (grades : List Grade) (grade : Grade) : Prop where
  registered : ∀ other ∈ grades, Grade.find? other.id = some other
  unclassified : grade.id = unknown.id ↔ grades = []
  unknown : grades = [] → grade = unknown
  gravest : grades ≠ [] → grade.IsFirstGravest grades

lemma exists_chooses (h : gradeOf r = .ok grade) :
    ∃ grades, rulesOf r = .ok (grades.map (·.id)) ∧ Chooses grades grade := by
  unfold gradeOf at h
  obtain ⟨ids, hids, h⟩ := of_bind h
  cases h
  refine ⟨ids.filterMap find?, eq_map_id_of_rulesOf hids ▸ hids, ?_⟩
  generalize hgrades : ids.filterMap find? = grades
  have hfound : ∀ other ∈ grades, find? other.id = some other := by
    intro other hother
    obtain ⟨id, -, hfind⟩ := mem_filterMap.mp (hgrades ▸ hother)
    rw [(find?_eq_some hfind).2, hfind]
  have hregistry : ∀ other ∈ grades, other ∈ registry := fun other hother =>
    (find?_eq_some (hfound other hother)).1
  have hgravest := isFirstGravest_gravest hregistry
  refine ⟨hfound, ⟨fun hid => ?_, fun hnil => hnil ▸ rfl⟩, fun hnil => hnil ▸ rfl, hgravest⟩
  by_contra hne
  exact id_ne_unknown (hregistry _ (hgravest hne).mem) hid

lemma mem_registry_of_gradeOf (h : gradeOf r = .ok grade) : grade ∈ unknown :: registry := by
  obtain ⟨grades, -, hchooses⟩ := exists_chooses h
  by_cases hnil : grades = []
  · rw [hchooses.unknown hnil]
    exact mem_cons_self
  · have hmem := (hchooses.gravest hnil).mem
    exact mem_cons_of_mem _ (find?_eq_some (hchooses.registered grade hmem)).1

/-! ## Findings that can be classified -/

/-- What a clause looks at is of the kind that it expects: a list of texts, or a number. -/
def Clause.Fits (r : Record) : Clause → Prop
  | calls field _ _ => ∃ names, r.getD field (.list []) = .texts names
  | set _ _ => True
  | above field _ _ => ∃ n, (r.getD field (.int 0)).number? = some n

/-- The fields of a finding that count for its grade and score are of the expected kinds, where they are present. -/
structure IsTyped (r : Record) : Prop where
  fits : ∀ clause ∈ Clause.all, clause.Fits r
  score : ∃ score, (r.getD "vuln_score" (.float 0.5)).readDouble = .ok score

lemma mentions_str (call : String) (words : List String) :
    mentions (.str call) words = .ok (words.any (contains call)) := by
  unfold mentions
  induction words with
  | nil => rfl
  | cons word words ih =>
    rw [anyM, ih, any_cons]
    change (ok (contains call word) >>= _) = _
    cases contains call word <;> rfl

/-- The rule for a call that is a text. -/
def ruleOfText (other : Option String) (byWords : List (List String × String)) (call : String) : Option String :=
  ((byWords.find? fun entry => entry.1.any (contains call)).map (·.2)).or other

lemma ruleOfCall_str (call : String) (other : Option String) (byWords : List (List String × String)) :
    ruleOfCall (.str call) other byWords = .ok (ruleOfText other byWords call) := by
  induction byWords with
  | nil => rfl
  | cons entry rest ih =>
    rw [ruleOfCall, mentions_str, ok_bind, ih]
    unfold ruleOfText
    rw [find?_cons]
    cases entry.1.any (contains call) <;> rfl

lemma rules_calls (h : r.getD field (.list []) = .texts names)
    (byWords : List (List String × String)) (other : Option String) :
    (Clause.calls field byWords other).rules r = .ok (names.filterMap (ruleOfText other byWords)) := by
  have hmap : (names.map str).mapM (ruleOfCall · other byWords) = .ok (names.map (ruleOfText other byWords)) := by
    rw [mapM_eq_ok_iff, forall₂_map_left_iff, forall₂_map_right_iff, forall₂_same]
    exact fun name _ => ruleOfCall_str name other byWords
  rw [Clause.rules, h, show (texts names).elements = .ok (names.map str) from rfl, ok_bind, hmap, ok_bind,
    pure_eq_ok, filterMap_map]
  rfl

lemma order_eq (hv : v.number? = some m) (hw : w.number? = some n) : v.order w = .ok (m.compare? n) := by
  cases v <;> cases hv <;> cases w <;> cases hw <;> rfl

lemma exceeds_eq (h : v.number? = some n) (limit : Int) :
    v.exceeds (.int limit) = .ok (n.compare? (.whole limit) == some .gt) := by
  have hlimit : (int limit).number? = some (.whole limit) := rfl
  unfold exceeds
  rw [order_eq h hlimit, ok_bind]
  cases n.compare? (.whole limit) with
  | none => rfl
  | some o => cases o <;> rfl

lemma Clause.Fits.exists_rules (h : clause.Fits r) : ∃ found, clause.rules r = .ok found := by
  cases clause with
  | calls field byWords other =>
    obtain ⟨names, hnames⟩ := h
    exact ⟨_, rules_calls hnames byWords other⟩
  | set field rule => exact ⟨_, rfl⟩
  | above field limit rule =>
    obtain ⟨n, hn⟩ := h
    exact ⟨_, bind_eq_ok_iff.mpr ⟨_, exceeds_eq hn limit, rfl⟩⟩

lemma IsTyped.exists_classify (h : IsTyped r) : ∃ result, classify (.obj r) = .ok result := by
  obtain ⟨lists, hlists⟩ := exists_mapM_eq_ok fun clause hclause => (h.fits clause hclause).exists_rules
  have hrules : rulesOf r = .ok lists.flatten := bind_eq_ok_iff.mpr ⟨lists, hlists, rfl⟩
  have hgrade : gradeOf r = .ok _ := bind_eq_ok_iff.mpr ⟨_, hrules, rfl⟩
  obtain ⟨score, hscore⟩ := h.score
  exact ⟨_, bind_eq_ok_iff.mpr ⟨r, rfl, bind_eq_ok_iff.mpr ⟨_, hgrade, bind_eq_ok_iff.mpr ⟨score, hscore, rfl⟩⟩⟩⟩

/-! ## More evidence -/

/-- What a clause looks at in a finding is in another one too: calls are listed, the field is set, the number no
smaller. -/
def Clause.Within (r s : Record) : Clause → Prop
  | calls field _ _ => ∃ few many, (r.getD field (.list [])).elements = .ok few ∧
      (s.getD field (.list [])).elements = .ok many ∧ few ⊆ many
  | set field _ => (r.getD field .null).truthy → (s.getD field .null).truthy
  | above field _ _ => ∃ o, (r.getD field (.int 0)).order (s.getD field (.int 0)) = .ok (some o) ∧ o ≠ .gt

lemma number?_of_exceeds (h : v.exceeds (.int limit) = .ok b) : ∃ n, v.number? = some n := by
  cases v <;> first | exact ⟨_, rfl⟩ | cases h

lemma number?_of_order (hv : v.number? = some m) (h : v.order w = .ok o) : ∃ n, w.number? = some n := by
  cases w <;> first | exact ⟨_, rfl⟩ | cases v <;> cases hv <;> cases h

/-- A number that is no smaller exceeds what the other one exceeds. -/
lemma exceeds_of_order (h : v.order w = .ok (some o)) (ho : o ≠ .gt)
    (hv : v.exceeds (.int limit) = .ok true) : w.exceeds (.int limit) = .ok true := by
  obtain ⟨m, hm⟩ := number?_of_exceeds hv
  obtain ⟨n, hn⟩ := number?_of_order hm h
  rw [order_eq hm hn] at h
  rw [exceeds_eq hm] at hv
  rw [exceeds_eq hn]
  -- Where the three numbers stand, the second is at least the first, which is above the limit.
  have hmn := ok.inj h
  have hml := beq_iff_eq.mp (ok.inj hv)
  rw [Number.compare?_eq] at hmn hml ⊢
  obtain ⟨x, hx, hmn⟩ := bind_eq_some_iff.mp hmn
  obtain ⟨y, hy, rfl⟩ := map_eq_some_iff.mp hmn
  obtain ⟨_, hx', hml⟩ := bind_eq_some_iff.mp hml
  obtain ⟨z, hz, hgt⟩ := map_eq_some_iff.mp hml
  cases hx.symm.trans hx'
  have hle : x ≤ y := not_lt.mp fun hlt => ho ((cmp_eq_gt_iff x y).mpr hlt)
  have hlimit := ((cmp_eq_gt_iff x z).mp hgt).trans_le hle
  rw [hy, hz]
  exact congrArg ok (beq_iff_eq.mpr (congrArg some ((cmp_eq_gt_iff y z).mpr hlimit)))

lemma Clause.Within.brings (h : clause.Within r s) (hid : clause.Brings r id) : clause.Brings s id := by
  cases clause with
  | calls field byWords other =>
    obtain ⟨few, many, hfew, hmany, hsub⟩ := h
    obtain ⟨_, hsame, call, hcall, hid⟩ := hid
    cases hfew.symm.trans hsame
    exact ⟨many, hmany, call, hsub hcall, hid⟩
  | set field rule => exact ⟨hid.1, h hid.2⟩
  | above field limit rule =>
    obtain ⟨o, horder, ho⟩ := h
    exact ⟨hid.1, exceeds_of_order horder ho hid.2⟩

/-- All the evidence in a finding is in another one too. -/
def HasMore (r s : Record) : Prop := ∀ clause ∈ Clause.all, clause.Within r s

lemma weight_le_of_hasMore (h : HasMore r s) (hlesser : gradeOf r = .ok lesser)
    (hgreater : gradeOf s = .ok greater) : lesser.weight ≤ greater.weight := by
  obtain ⟨few, hfew, hfirst⟩ := exists_chooses hlesser
  obtain ⟨many, hmany, hsecond⟩ := exists_chooses hgreater
  by_cases hnone : few = []
  · -- Nothing is below the grade of unclassified findings.
    rw [hfirst.unknown hnone]
    rcases mem_cons.mp (mem_registry_of_gradeOf hgreater) with rfl | hregistered
    · exact le_rfl
    · exact (weight_unknown_lt hregistered).le
  · have hmem := (hfirst.gravest hnone).mem
    obtain ⟨clause, hclause, hbrings⟩ := (mem_rulesOf_iff hfew).mp (mem_map_of_mem hmem)
    have hid := (mem_rulesOf_iff hmany).mpr ⟨clause, hclause, (h clause hclause).brings hbrings⟩
    obtain ⟨same, hsame, hids⟩ := mem_map.mp hid
    -- An id stands for one grade.
    have heq : same = lesser :=
      some.inj ((hsecond.registered same hsame).symm.trans (hids ▸ hfirst.registered lesser hmem))
    exact (hsecond.gravest (ne_nil_of_mem hsame)).weight_le (heq ▸ hsame)

/-! ## Classification -/

/-- A classified finding carries a grade. -/
structure Carries (r : Record) (grade : Grade) : Prop where
  rule : r.get? "rule_id" = some (.str grade.id)
  severity : r.get? "severity" = some (.str grade.severity.word)
  confidence : r.get? "confidence" = some (.str grade.confidence.word)

lemma exists_carries (h : classify finding = .ok result) :
    ∃ fields grade, finding.fields = .ok fields ∧ gradeOf fields = .ok grade ∧ Carries result grade := by
  obtain ⟨fields, grade, combined, hfields, hgrade, rfl⟩ := Report.exists_graded_of_classify h
  refine ⟨fields, grade, hfields, hgrade, ?_, Report.states_graded fields grade combined, ?_⟩ <;>
    simp [Report.graded, Report.gradeFields]

/-- A finding whose fields are of the expected kinds is classified, it carries the first of the gravest grades that its
evidence brings in, and of two findings the one with more evidence is graded at least as severe and, for the same score
of the model, scored at least as high. -/
theorem classified_by_gravest : (∀ r, IsTyped r → ∃ result, classify (.obj r) = .ok result) ∧
    (∀ finding result, classify finding = .ok result → ∃ fields grades grade, finding.fields = .ok fields ∧
      rulesOf fields = .ok (grades.map (·.id)) ∧ gradeOf fields = .ok grade ∧ Chooses grades grade ∧
      Carries result grade) ∧
    ∀ r s lesser greater, HasMore r s → gradeOf r = .ok lesser → gradeOf s = .ok greater →
      lesser.severity.rank ≤ greater.severity.rank ∧
      ∀ score, lesser.exactScore score ≤ greater.exactScore score := by
  refine ⟨fun r => IsTyped.exists_classify, ?_, ?_⟩
  · intro finding result h
    obtain ⟨fields, grade, hfields, hgrade, hcarries⟩ := exists_carries h
    obtain ⟨grades, hrules, hchooses⟩ := exists_chooses hgrade
    exact ⟨fields, grades, grade, hfields, hrules, hgrade, hchooses, hcarries⟩
  · intro r s lesser greater hmore hlesser hgreater
    have hle := weight_le_of_hasMore hmore hlesser hgreater
    refine ⟨?_, exactScore_le (product_le_of_weight_le (mem_registry_of_gradeOf hlesser)
      (mem_registry_of_gradeOf hgreater) hle)⟩
    rcases Prod.Lex.toLex_le_toLex.mp hle with hlt | ⟨heq, -⟩
    · exact hlt.le
    · exact heq.le

def hashing : Record := [("weak_crypto_calls", .texts ["md5"]), ("cyclomatic_complexity", .int 12)]

def evaluating : Record :=
  [("dangerous_calls", .texts ["eval"]), ("weak_crypto_calls", .texts ["sha1", "md5"]), ("cyclomatic_complexity", .int 16)]

lemma hasMore_evaluating : HasMore hashing evaluating := by
  simp only [HasMore, Clause.all, forall_mem_cons, Clause.Within]
  exact ⟨⟨_, _, rfl, rfl, by simp⟩, ⟨_, _, rfl, rfl, by simp⟩, by decide, by decide, by decide,
    ⟨_, _, rfl, rfl, by simp⟩, by decide, by decide, by decide, by decide, ⟨.lt, rfl, by decide⟩, ⟨.eq, rfl, by decide⟩,
    by simp⟩

/-- What is graded as code evaluation does not score lower than what is graded as weak hashing. -/
theorem evaluating_above_hashing : ∃ weak eval, gradeOf hashing = .ok weak ∧ gradeOf evaluating = .ok eval ∧
    weak.id = "PY-CRYPTO-001" ∧ eval.id = "PY-EVAL-001" ∧ weak.severity.rank ≤ eval.severity.rank ∧
      ∀ score, weak.exactScore score ≤ eval.exactScore score := by
  have hweak : (gradeOf hashing).toOption.any (·.id == "PY-CRYPTO-001") = true := by decide +kernel
  have heval : (gradeOf evaluating).toOption.any (·.id == "PY-EVAL-001") = true := by decide +kernel
  obtain ⟨weak, hweak, hweakId⟩ := (any_eq_true _ _).mp hweak
  obtain ⟨eval, heval, hevalId⟩ := (any_eq_true _ _).mp heval
  rw [toOption_eq_some_iff] at hweak heval
  exact ⟨weak, eval, hweak, heval, beq_iff_eq.mp hweakId, beq_iff_eq.mp hevalId,
    classified_by_gravest.2.2 hashing evaluating weak eval hasMore_evaluating hweak heval⟩

end Classification

/-! ## Functions without a rule -/

namespace Python

open Classification

/-- The names of dangerous calls that no rule knows. -/
def unruled : List String := ["compile", "input"]

/-- A function has no evidence that brings in a rule: it only has risky calls whose names none knows. -/
def FunctionRecord.IsUnmatched (f : FunctionRecord) : Prop :=
  ((∀ name ∈ f.calls .dangerous, name ∈ unruled) ∧ ∀ kind ∈ CallKind.all, kind ≠ .dangerous → f.calls kind = []) ∧
    f.sensitiveNames = [] ∧ f.complexity ≤ 15 ∧ f.nesting ≤ 5

instance (f : FunctionRecord) : Decidable f.IsUnmatched := inferInstanceAs (Decidable ((_ ∧ _) ∧ _ ∧ _ ∧ _))

lemma mem_names_of_mem_calls (h : f ∈ functionRecords t) (hname : name ∈ f.calls kind) : name ∈ kind.names := by
  obtain ⟨node, -, hnode⟩ := mem_filterMap.mp h
  obtain ⟨_, -, rfl⟩ := map_eq_some_iff.mp hnode
  obtain ⟨call, hcall, rfl⟩ := mem_map.mp hname
  have hrisky := (mem_filter.mp hcall).2
  unfold Tree.isRisky at hrisky
  exact contains_iff_mem.mp (Bool.and_eq_true _ _ ▸ hrisky).1

section Finding

variable {f : FunctionRecord} (kind : CallKind)

lemma getD_calls (default : Value) : f.toFinding.getD kind.field default = .texts (f.calls kind) := by
  cases kind <;> rfl

lemma isTyped_toFinding : IsTyped f.toFinding := by
  refine ⟨?_, ⟨_, rfl⟩⟩
  simp only [Clause.all, forall_mem_cons, Clause.Fits]
  exact ⟨⟨_, rfl⟩, ⟨_, rfl⟩, trivial, trivial, trivial, ⟨_, rfl⟩, trivial, trivial, trivial, trivial, ⟨_, rfl⟩, ⟨_, rfl⟩,
    by simp⟩

/-- Of the dangerous calls that the analysis looks for, those of two names bring in no rule. -/
lemma rules_dangerous_eq_nil_iff (hnames : ∀ name ∈ f.calls .dangerous, name ∈ CallKind.dangerous.names) :
    (Clause.calls CallKind.dangerous.field Clause.ofDangerousWords none).rules f.toFinding = .ok [] ↔
      ∀ name ∈ f.calls .dangerous, name ∈ unruled := by
  -- The words of the clause are looked for within a name, so each name that can be listed is tried.
  have hall : (CallKind.dangerous.names.all fun name =>
      (ruleOfText none Clause.ofDangerousWords name).isNone == unruled.contains name) := by decide +kernel
  rw [rules_calls (getD_calls .dangerous _), ok.injEq, filterMap_eq_nil_iff]
  refine forall₂_congr fun name hname => ?_
  rw [← isNone_iff_eq_none, beq_iff_eq.mp (all_eq_true.mp hall name (hnames name hname)), contains_iff_mem]

lemma rules_calls_eq_nil_iff (byWords : List (List String × String)) (rule : String) :
    (Clause.calls kind.field byWords (some rule)).rules f.toFinding = .ok [] ↔ f.calls kind = [] := by
  rw [rules_calls (getD_calls kind _), ok.injEq, filterMap_eq_nil_iff, eq_nil_iff_forall_not_mem]
  simp [ruleOfText]

lemma rules_set_eq_nil_iff (rule : String) :
    (Clause.set kind.field rule).rules f.toFinding = .ok [] ↔ f.calls kind = [] := by
  rw [Clause.rules, getD_calls]
  cases f.calls kind <;> simp [truthy, texts]

lemma rules_above_eq_nil_iff (h : f.toFinding.getD field (.int 0) = .nat n) (limit : Nat)
    (rule : String) : (Clause.above field limit rule).rules f.toFinding = .ok [] ↔ n ≤ limit := by
  have hnumber : (nat n).number? = some (.whole n) := rfl
  rw [Clause.rules, h, exceeds_eq hnumber, ok_bind]
  simp [Number.compare?, compare_gt_iff_gt]

lemma rules_sensitive_eq_nil_iff (rule : String) :
    (Clause.set "sensitive_data_involved" rule).rules f.toFinding = .ok [] ↔ f.sensitiveNames = [] := by
  rw [Clause.rules, show f.toFinding.getD "sensitive_data_involved" .null = .bool !f.sensitiveNames.isEmpty from rfl]
  cases f.sensitiveNames <;> simp [truthy]

/-- No clause brings in a rule for a function exactly when it has no evidence of that kind. -/
lemma forall_rules_eq_nil_iff (hnames : ∀ name ∈ f.calls .dangerous, name ∈ CallKind.dangerous.names) :
    (∀ clause ∈ Clause.all, clause.rules f.toFinding = .ok []) ↔ f.IsUnmatched := by
  simp only [Clause.all, forall_mem_cons]
  -- The clauses stand in the order of the kinds of calls.
  refine (and_congr (rules_dangerous_eq_nil_iff hnames) <|
    and_congr (rules_calls_eq_nil_iff .deserialization _ _) <| and_congr (rules_set_eq_nil_iff .requestForgery _) <|
    and_congr (rules_set_eq_nil_iff .pathTraversal _) <| and_congr (rules_set_eq_nil_iff .externalEntity _) <|
    and_congr (rules_calls_eq_nil_iff .weakCrypto _ _) <| and_congr (rules_set_eq_nil_iff .templateInjection _) <|
    and_congr (rules_set_eq_nil_iff .openRedirect _) <| and_congr (rules_set_eq_nil_iff .directoryInjection _) <|
    and_congr (rules_sensitive_eq_nil_iff _) <| and_congr (rules_above_eq_nil_iff rfl 15 _) <|
    and_congr (rules_above_eq_nil_iff rfl 5 _) Iff.rfl).trans ?_
  simp [FunctionRecord.IsUnmatched, CallKind.all, and_assoc]

end Finding

/-- Every finding on a function is classified, and left without a rule exactly when all it has are calls that no rule
knows. -/
theorem unclassified_iff {files : FileTree} {path : String} {found : List Record}
    {room : Nat}
    (h : analyzeFile files path room = .ok found) {finding : Record} (hmem : finding ∈ found) :
    ∃ t, treeOfFile files path = .ok t ∧ ∃ f ∈ functionRecords t, finding = f.toFinding ∧
      ∃ result, classify (.obj finding) = .ok result ∧
        (result.get? "rule_id" = some (.str unknown.id) ↔ f.IsUnmatched) := by
  obtain ⟨t, ht, h⟩ := bind_eq_ok_iff.mp h
  obtain ⟨records, hrecords, h⟩ := bind_eq_ok_iff.mp h
  obtain ⟨-, -, hrecords⟩ := bind_eq_ok_iff.mp hrecords
  cases h
  cases hrecords
  obtain ⟨f, hf, rfl⟩ := mem_map.mp hmem
  have hrecord := (mem_filter.mp hf).1
  obtain ⟨result, hresult⟩ := (isTyped_toFinding (f := f)).exists_classify
  refine ⟨t, ht, f, hrecord, rfl, result, hresult, ?_⟩
  obtain ⟨_, grade, hfields, hgrade, hcarries⟩ := exists_carries hresult
  cases hfields
  obtain ⟨grades, hrules, hchooses⟩ := exists_chooses hgrade
  rw [hcarries.rule, Option.some.injEq, str.injEq, hchooses.unclassified, ← map_eq_nil_iff,
    rulesOf_eq_nil_iff hrules, forall_rules_eq_nil_iff fun name => mem_names_of_mem_calls hrecord]

def compilingFile : FileTree := FileTree.empty.put ["a.py"] (.file (.text "def f(x):\n compile(x)\n"))

/-- The function is reported for its call and left unclassified. -/
theorem compiling_unclassified : ∃ found, analyzeFile compilingFile "a.py" = .ok found ∧ ∃ finding ∈ found,
    finding.get? "dangerous_calls" = some (.texts ["compile"]) ∧ ∃ result, classify (.obj finding) = .ok result ∧
      result.get? "rule_id" = some (.str "UNKNOWN") := by
  have hfound : (analyzeFile compilingFile "a.py").toOption.any (!·.isEmpty) = true := by decide +kernel
  have htree : (treeOfFile compilingFile "a.py").toOption.all (fun t => (functionRecords t).all fun f =>
      decide (f.calls .dangerous = ["compile"] ∧ f.IsUnmatched)) = true := by decide +kernel
  obtain ⟨found, hanalyzed, hsome⟩ := (any_eq_true _ _).mp hfound
  rw [toOption_eq_some_iff] at hanalyzed
  obtain ⟨finding, hfinding⟩ := exists_mem_of_ne_nil found (by simpa using hsome)
  obtain ⟨t, ht, f, hf, rfl, result, hresult, hiff⟩ := unclassified_iff hanalyzed hfinding
  rw [ht] at htree
  obtain ⟨hcompile, hunmatched⟩ := of_decide_eq_true (all_eq_true.mp htree f hf)
  refine ⟨found, hanalyzed, f.toFinding, hfinding, ?_, result, hresult, hiff.mpr hunmatched⟩
  rw [← hcompile]
  rfl

end Python

end CodeAudit

import CodeAudit.Benchmark.Run
import CodeAudit.Proofs.Actions
import Mathlib.Tactic.FieldSimp
import Mathlib.Tactic.Linarith
import Mathlib.Tactic.Positivity

/-!
# The accounts of a benchmark

Every row of a benchmark is counted once among the four outcomes, and once more among those of its kind. `IsAccount`
says what the counts add up to; each row keeps it (`IsAccount.add`), and so does a whole run, whatever the analyzers find
(`accounts_of_run`). The rates that follow from such counts are stated in exact numbers.
-/

namespace CodeAudit.Benchmark

open Proofs Proofs.Steps List Action

/-! ## Counts -/

namespace Tally

variable (t : Tally) (o : Outcome)

/-- How often an outcome was counted. -/
def number : Outcome → Int
  | .truePositive => t.truePositives
  | .falsePositive => t.falsePositives
  | .trueNegative => t.trueNegatives
  | .falseNegative => t.falseNegatives

def total : Int := t.truePositives + t.falsePositives + t.trueNegatives + t.falseNegatives

lemma number_empty : empty.number o = 0 := by cases o <;> rfl

lemma number_add (other : Outcome) : (t.add o).number other = t.number other + if o = other then 1 else 0 := by
  cases o <;> cases other <;> simp [add, number]

lemma total_add : (t.add o).total = t.total + 1 := by
  cases o <;> simp only [add, total] <;> omega

end Tally

section ByKind

variable (tallies : List (Option String × Tally)) (kind : Option String) (o : Outcome)

/-- What was counted for a kind. -/
def tallyOf : Tally := (tallies.lookup kind).getD .empty

lemma kinds_addByKind : (addByKind kind o tallies).map Prod.fst =
    if kind ∈ tallies.map Prod.fst then tallies.map Prod.fst else tallies.map Prod.fst ++ [kind] := by
  fun_induction addByKind kind o tallies with
  | case1 => rfl
  | case2 t rest => simp
  | case3 k t rest hother ih =>
    rw [map_cons, ih]
    split <;> simp_all [eq_comm]

lemma sum_addByKind (other : Outcome) : ((addByKind kind o tallies).map (·.2.number other)).sum =
    (tallies.map (·.2.number other)).sum + if o = other then 1 else 0 := by
  fun_induction addByKind kind o tallies with
  | case1 => simp [Tally.number_add, Tally.number_empty]
  | case2 t rest =>
    simp only [map_cons, sum_cons, Tally.number_add]
    omega
  | case3 k t rest hother ih =>
    simp only [map_cons, sum_cons, ih]
    omega

/-- The tally of the kind counts one more; the others are as they were. -/
lemma tallyOf_addByKind (other : Option String) : tallyOf (addByKind kind o tallies) other =
    if other = kind then (tallyOf tallies kind).add o else tallyOf tallies other := by
  unfold tallyOf
  fun_induction addByKind kind o tallies with
  | case1 =>
    by_cases h : other = kind
    · simp [h]
    · simp [lookup_cons, beq_false_of_ne h, h]
  | case2 t rest =>
    by_cases h : other = kind
    · simp [h]
    · simp [lookup_cons, beq_false_of_ne h, h]
  | case3 k t rest hother ih =>
    by_cases h : other = k
    · simp [h, hother]
    · simpa [lookup_cons, beq_false_of_ne h, beq_false_of_ne (Ne.symm hother)] using ih

end ByKind

/-- The counts of a result are those of rows of these kinds: each row is counted once, and once among its kind. The
kinds stand in order of first occurrence. -/
structure IsAccount (kinds : List (Option String)) (r : Result) : Prop where
  samples : r.samples = kinds.length
  total : r.tally.total = r.samples
  nonneg : ∀ o, 0 ≤ r.tally.number o
  sums : ∀ o, (r.byKind.map (·.2.number o)).sum = r.tally.number o
  order : r.byKind.map Prod.fst = kinds.eraseDups
  byKind : ∀ kind, (tallyOf r.byKind kind).total = kinds.count kind

lemma IsAccount.add {kinds : List (Option String)} {r : Result} (h : IsAccount kinds r) (kind : Option String)
    (o : Outcome) : IsAccount (kinds ++ [kind])
      { r with samples := r.samples + 1, tally := r.tally.add o, byKind := addByKind kind o r.byKind } where
  samples := by simp [h.samples]
  total := by rw [Tally.total_add, h.total]
  nonneg other := by
    have hbefore := h.nonneg other
    rw [Tally.number_add]
    split <;> omega
  sums other := by rw [sum_addByKind, h.sums, Tally.number_add]
  order := by
    rw [kinds_addByKind, h.order, eraseDups_append]
    by_cases hkind : kind ∈ kinds <;> simp [removeAll, eraseDups_cons, hkind]
  byKind other := by
    rw [tallyOf_addByKind, count_append, count_singleton]
    by_cases hother : other = kind
    · simp [hother, Tally.total_add, h.byKind]
    · simp [hother, h.byKind, Ne.symm hother]

lemma isAccount_ofOutcomes (outcomes : List (Option String × Outcome)) :
    IsAccount (outcomes.map Prod.fst) (.ofOutcomes outcomes) := by
  induction outcomes using reverseRecOn with
  | nil => exact ⟨rfl, rfl, fun o => (Tally.number_empty o).ge, fun o => (Tally.number_empty o).symm, rfl,
      fun kind => rfl⟩
  | append_singleton outcomes last ih =>
    have hlast := ih.add last.1 last.2
    unfold Result.ofOutcomes Tally.ofOutcomes at hlast ⊢
    simpa using hlast

/-! ## Rows -/

/-- The rows of a benchmark: those after the first that are not blank. -/
def rowsOf (text : String) : List (List String) := (Csv.read text).tail.filter (!·.isEmpty)

/-- The kind that a row gives, by the names in the first row. -/
def kindIn (text : String) (row : List String) : Option String :=
  fieldOf ((Csv.read text).headD []) row "type" "unknown"

lemma kinds_of_samples {samples : List Sample} (h : samplesOfText text = .ok samples) :
    samples.map (·.kind) = (rowsOf text).map (kindIn text) := by
  unfold samplesOfText at h
  unfold rowsOf kindIn
  cases hread : Csv.read text with
  | nil =>
    rw [hread] at h
    cases h
    rfl
  | cons header rows =>
    rw [hread] at h
    refine map_eq_of_mapM h fun row s hs => ?_
    unfold Sample.ofRow at hs
    dsimp only at hs
    repeat' split at hs
    all_goals cases hs
    rfl

/-- A benchmark with any way to count what is found in code. -/
def evaluate (count : String → Option String → Except Fault Nat) (files : FileTree) (path : String) :
    Except Fault (Result × List Checked) := do
  runWith count (← load files path)

lemma on_run (path : String) (host : Host) :
    on (run path) host = (evaluate (findingCount host.tools) host.files path, host) := by
  unfold run evaluate
  rw [on_bind, on_reading]
  cases load host.files path with
  | error fault => rfl
  | ok samples =>
    dsimp only
    rw [on_bind, on_get]
    exact on_ofExcept _ host

lemma isAccount_of_evaluate {count : String → Option String → Except Fault Nat} {files : FileTree}
    (htext : files.rawText .refuse path = .ok text)
    (h : evaluate count files path = .ok (result, checked)) : IsAccount ((rowsOf text).map (kindIn text)) result := by
  obtain ⟨samples, hsamples, h⟩ := of_bind h
  obtain ⟨all, hall, h⟩ := of_bind h
  cases h
  unfold load at hsamples
  rw [htext, ok_bind] at hsamples
  have hkinds : checked.map (·.sample.kind) = samples.map (·.kind) := map_eq_of_mapM hall fun s c hc => by
    unfold check at hc
    split at hc
    · obtain ⟨_, -, hc⟩ := of_bind hc
      cases hc
      rfl
    · cases hc
  have haccount := isAccount_ofOutcomes (checked.map fun c => (c.sample.kind, c.outcome))
  rwa [map_map, Function.comp_def, hkinds, kinds_of_samples hsamples] at haccount

/-! ## Rates -/

def share (part whole : ℚ) : ℚ := if 0 < whole then part / whole else 0

/-- The rates of a result in exact numbers. -/
def Result.rates (r : Result) : Rates ℚ :=
  Id.run (Rates.ofCounts (fun a b => pure (a + b)) (fun part whole => pure (share part whole)) (harmonicMean Int.cast)
    (Id.run (Counts.mapM (fun n : Int => pure (n : ℚ)) r.tally)) (r.samples : ℚ))

/-- Shares that lie between nothing and all, and the mean of the first two in terms of the counts. -/
structure Rates.AreExact (c : Tally) (r : Rates ℚ) : Prop where
  shares : ∀ x ∈ [r.precision, r.coverage, r.f1, r.falsePositiveRate, r.accuracy], x ∈ Set.Icc 0 1
  f1 : r.f1 = if 0 < c.truePositives then
    (2 * c.truePositives / (2 * c.truePositives + c.falsePositives + c.falseNegatives) : ℚ) else 0

lemma share_mem {part whole : ℚ} (hpart : 0 ≤ part) (hle : part ≤ whole) : share part whole ∈ Set.Icc (0 : ℚ) 1 := by
  unfold share
  split
  · next hwhole => exact ⟨div_nonneg hpart hwhole.le, (div_le_one hwhole).mpr hle⟩
  · exact ⟨le_rfl, zero_le_one⟩

section Mean

variable {a b c : ℚ} (ha : 0 ≤ a) (hb : 0 ≤ b) (hc : 0 ≤ c)

include ha hb hc

lemma harmonicMean_shares :
    harmonicMean Int.cast (share a (a + b)) (share a (a + c)) = if 0 < a then 2 * a / (2 * a + b + c) else 0 := by
  unfold harmonicMean share
  rcases ha.eq_or_lt with rfl | ha
  · simp
  · have hab : 0 < a + b := by linarith
    have hac : 0 < a + c := by linarith
    have hall : 0 < 2 * a + b + c := by linarith
    have hsum : a / (a + b) + a / (a + c) = a * (2 * a + b + c) / ((a + b) * (a + c)) := by
      field_simp
      linarith
    rw [if_pos ha, if_pos hab, if_pos hac, hsum, Int.cast_zero, if_pos (by positivity)]
    push_cast
    field_simp

lemma harmonicMean_mem : harmonicMean Int.cast (share a (a + b)) (share a (a + c)) ∈ Set.Icc 0 1 := by
  rw [harmonicMean_shares ha hb hc]
  split
  · next hpos => exact ⟨by positivity, (div_le_one (by positivity)).mpr (by linarith)⟩
  · exact ⟨le_rfl, zero_le_one⟩

end Mean

lemma areExact_rates {r : Result} (h : IsAccount kinds r) : r.rates.AreExact r.tally := by
  have htp : (0 : ℚ) ≤ r.tally.truePositives := Int.cast_nonneg (h.nonneg .truePositive)
  have hfp : (0 : ℚ) ≤ r.tally.falsePositives := Int.cast_nonneg (h.nonneg .falsePositive)
  have htn : (0 : ℚ) ≤ r.tally.trueNegatives := Int.cast_nonneg (h.nonneg .trueNegative)
  have hfn : (0 : ℚ) ≤ r.tally.falseNegatives := Int.cast_nonneg (h.nonneg .falseNegative)
  have htotal : (r.tally.truePositives + r.tally.falsePositives + r.tally.trueNegatives + r.tally.falseNegatives : ℚ) =
      r.samples := by exact_mod_cast h.total
  have haccuracy : share (r.tally.truePositives + r.tally.trueNegatives) r.samples ∈ Set.Icc (0 : ℚ) 1 :=
    share_mem (by linarith) (by linarith)
  refine ⟨?_, (harmonicMean_shares htp hfp hfn).trans (if_congr Int.cast_pos rfl rfl)⟩
  simp only [forall_mem_cons, not_mem_nil, false_imp_iff, implies_true, and_true]
  exact ⟨share_mem htp (le_add_of_nonneg_right hfp), share_mem htp (le_add_of_nonneg_right hfn),
    harmonicMean_mem htp hfp hfn, share_mem hfp (le_add_of_nonneg_right htn), haccuracy⟩

/-- A run that ends has counted each row of its table once, over all and among its kind, whatever the analyzers have
found; and so the rates are shares. -/
theorem accounts_of_run (path : String) :
    (∀ host, on (run path) host = (evaluate (findingCount host.tools) host.files path, host)) ∧
      ∀ count files text result checked, files.rawText .refuse path = .ok text →
        evaluate count files path = .ok (result, checked) →
          IsAccount ((rowsOf text).map (kindIn text)) result ∧ result.rates.AreExact result.tally := by
  refine ⟨on_run path, fun count files text result checked htext h => ?_⟩
  have haccount := isAccount_of_evaluate htext h
  exact ⟨haccount, areExact_rates haccount⟩

/-- Two rows of one kind, and one that ends before its kind. -/
def threeRows : String := "label,code,type\n1,x,a\n0,y,a\n\n1,z\n"

theorem threeRows_counted :
    ∃ result checked, evaluate (fun _ _ => .ok 1) (FileTree.empty.put ["b.csv"] (.file (.text threeRows))) "b.csv" =
      .ok (result, checked) ∧ IsAccount [some "a", some "a", none] result ∧ result.rates.AreExact result.tally := by
  obtain ⟨⟨result, checked⟩, h⟩ := isOk_iff.mp (show (evaluate (fun _ _ => .ok 1)
    (FileTree.empty.put ["b.csv"] (.file (.text threeRows))) "b.csv").isOk = true by decide +kernel)
  have hkinds : (rowsOf threeRows).map (kindIn threeRows) = [some "a", some "a", none] := by decide +kernel
  exact ⟨result, checked, h, hkinds ▸ (accounts_of_run "b.csv").2 _ _ threeRows result checked (by decide +kernel) h⟩

end CodeAudit.Benchmark

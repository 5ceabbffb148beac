import CodeAudit.Proofs.Baseline.Matching

/-!
# Comparisons are stable

The test of a finding only asks whether the baseline has an entry of some kind. So order and number of the entries do
not count, more entries or a wider tolerance can only make more findings known, and a second comparison finds the same.
-/

namespace CodeAudit.Baseline

open Proofs List

/-- A comparison of findings with a baseline gives these new and these known ones. -/
def Splits (tolerance : Int) (baseline findings new known : List Record) : Prop :=
  split (.list (baseline.map .obj)) (findings.map .obj) (.int tolerance) = .ok (new.map .obj, known.map .obj)

lemma Splits.unique (h : Splits tolerance baseline findings new known)
    (h' : Splits tolerance baseline findings new' known') : new = new' ∧ known = known' := by
  have hinj : Function.Injective Value.obj := fun _ _ heq => Value.obj.inj heq
  obtain ⟨hnew, hknown⟩ := Prod.mk.inj (Except.ok.inj (h.symm.trans h'))
  exact ⟨map_injective_iff.mpr hinj hnew, map_injective_iff.mpr hinj hknown⟩

/-- Two lists that share nothing and together are the findings, each in their order. -/
structure Divides (findings new known : List Record) : Prop where
  new_sublist : new.Sublist findings
  known_sublist : known.Sublist findings
  perm : (new ++ known).Perm findings
  disjoint : ∀ f ∈ new, f ∉ known

lemma divides_filter (p : Record → Bool) (findings : List Record) :
    Divides findings (findings.filter fun f => !p f) (findings.filter p) where
  new_sublist := filter_sublist
  known_sublist := filter_sublist
  perm := perm_append_comm.trans (filter_append_perm p findings)
  disjoint := fun f hnew hknown => by simp_all

section Test

variable {tolerance : Int} {baseline : List Record}

/-- More entries and a wider tolerance know more. -/
lemma isKnown_mono (hle : tolerance ≤ wider) (hsub : baseline ⊆ larger)
    (h : isKnown tolerance baseline f) : isKnown wider larger f := by
  obtain ⟨b, hb, hsame⟩ := isKnown_iff.mp h
  exact isKnown_iff.mpr ⟨b, hsub hb, hsame.imp_right fun hmatches => ⟨hmatches.1, hmatches.2.trans hle⟩⟩

/-- Only which entries a baseline has counts, not where it has them and how often. -/
lemma isKnown_congr (h : ∀ b, b ∈ other ↔ b ∈ baseline) : isKnown tolerance other = isKnown tolerance baseline := by
  funext f
  rw [Bool.eq_iff_iff]
  exact ⟨isKnown_mono le_rfl fun b hb => (h b).mp hb, isKnown_mono le_rfl fun b hb => (h b).mpr hb⟩

end Test

/-- **Comparisons are stable and monotone.** Findings are divided in their order into those that share a print with an
entry or match one, and the others. The baseline may be permuted and repeated; with more entries or a wider tolerance
no known finding becomes new; compared again, new ones are new and known ones known. -/
theorem split_stable {findings baseline : List Record} (hfindings : ∀ f ∈ findings, IsTyped f)
    (hbaseline : ∀ b ∈ baseline, IsTyped b) (tolerance : Int) :
    ∃ new known, Splits tolerance baseline findings new known ∧ Divides findings new known ∧
      (∀ f ∈ findings, f ∈ known ↔ ∃ b ∈ baseline, (printed b).text = (printed f).text ∨ Matches tolerance f b) ∧
      (∀ other, (∀ b, b ∈ other ↔ b ∈ baseline) → Splits tolerance other findings new known) ∧
      (∀ larger wider, (∀ b ∈ larger, IsTyped b) → baseline ⊆ larger → tolerance ≤ wider →
        ∃ fewer more, Splits wider larger findings fewer more ∧ fewer.Sublist new ∧ known.Sublist more) ∧
      Splits tolerance baseline new new [] ∧ Splits tolerance baseline known [] known := by
  have hagain : ∀ p : Record → Bool, ∀ f ∈ findings.filter p, IsTyped f :=
    fun p f hf => hfindings f (mem_of_mem_filter hf)
  refine ⟨_, _, split_eq hfindings hbaseline tolerance, divides_filter _ findings, fun f hf => ?_, fun other hother => ?_,
    fun larger wider hlarger hsub hle => ⟨_, _, split_eq hfindings hlarger wider, ?_, ?_⟩, ?_, ?_⟩
  · rw [mem_filter, isKnown_iff]
    exact and_iff_right hf
  · unfold Splits
    rw [split_eq hfindings (fun b hb => hbaseline b ((hother b).mp hb)), isKnown_congr hother]
  · -- what is new to the larger baseline is new to the smaller
    refine monotone_filter_right findings fun f hnew => ?_
    rw [Bool.not_eq_true'] at hnew ⊢
    exact Bool.eq_false_iff.mpr fun hknown => Bool.eq_false_iff.mp hnew (isKnown_mono hle hsub hknown)
  · exact monotone_filter_right findings fun f hknown => isKnown_mono hle hsub hknown
  · unfold Splits
    rw [split_eq (hagain _) hbaseline, filter_filter, filter_filter]
    simp
  · unfold Splits
    rw [split_eq (hagain _) hbaseline, filter_filter, filter_filter]
    simp

def foundAt (line : Option Int) : Record :=
  [("file", .str "a.py"), ("type", .str "eval")] ++ (line.map fun n => ("line", .int n)).toList

/-- A finding near the entry is known, and so is one without a line, taken to stand on line 0. The third is new, and
stays so when compared again, until an entry near it comes. -/
theorem foundAt_split_stable :
    let findings := [foundAt (some 3), foundAt (some 20), foundAt none]
    let new := [foundAt (some 20)]
    let known := [foundAt (some 3), foundAt none]
    Splits 5 [foundAt (some 1)] findings new known ∧ Splits 5 [foundAt (some 1), foundAt (some 1)] findings new known ∧
      Splits 5 [foundAt (some 1)] new new [] ∧ Splits 5 [foundAt (some 1)] known [] known ∧
      ∃ more, Splits 5 [foundAt (some 18), foundAt (some 1)] findings [] more ∧ known.Sublist more := by
  intro findings new known
  have htyped : ∀ (lines : List (Option Int)), ∀ f ∈ lines.map foundAt, IsTyped f := by
    intro lines f hf
    obtain ⟨_ | n, -, rfl⟩ := mem_map.mp hf <;> rfl
  obtain ⟨new', known', hsplits, -, -, hother, hlarger, hnew, hknown⟩ :=
    split_stable (htyped [some 3, some 20, none]) (htyped [some 1]) 5
  have hgiven : Splits 5 [foundAt (some 1)] findings new known := by
    unfold Splits
    rfl
  obtain ⟨rfl, rfl⟩ := hsplits.unique hgiven
  obtain ⟨fewer, more, hmore, -, hsub⟩ := hlarger ([some 18, some 1].map foundAt) 5 (htyped _) (by simp) le_rfl
  have hall : Splits 5 [foundAt (some 18), foundAt (some 1)] findings [] findings := by
    unfold Splits
    rfl
  obtain ⟨rfl, -⟩ := hmore.unique hall
  exact ⟨hsplits, hother _ (by simp), hnew, hknown, more, hmore, hsub⟩

end CodeAudit.Baseline

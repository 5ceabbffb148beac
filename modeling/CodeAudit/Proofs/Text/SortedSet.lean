import Mathlib.Algebra.BigOperators.Group.Finset.Basic
import CodeAudit.Text.Basic

/-!
# The different texts of a list

`Text.sortedSet` lists every text of a list once. It serves as a set, and as the keys of a tally, which counts every
text of the list under exactly one key.
-/

namespace CodeAudit.Text

open List

lemma nodup_eraseDups [BEq α] [LawfulBEq α] (xs : List α) : xs.eraseDups.Nodup := by
  -- The rest of the list shrinks by a filter before it is worked through, so the induction is on the length.
  induction hn : xs.length using Nat.strongRecOn generalizing xs with
  | ind n ih =>
    cases xs with
    | nil => simp
    | cons x xs =>
      rw [eraseDups_cons, nodup_cons]
      refine ⟨fun hmem => ?_, ?_⟩
      · have hkept := (mem_filter.mp (mem_eraseDups.mp hmem)).2
        simp at hkept
      · refine ih _ ?_ _ rfl
        have hshorter := length_filter_le (fun y => !y == x) xs
        rw [length_cons] at hn
        omega

lemma mem_sortedSet : x ∈ sortedSet xs ↔ x ∈ xs := by
  unfold sortedSet sorted
  rw [mem_mergeSort, mem_eraseDups]

lemma nodup_sortedSet (xs : List String) : (sortedSet xs).Nodup :=
  (mergeSort_perm _ _).nodup_iff.mpr (nodup_eraseDups xs)

/-- A tally under distinct keys that include every element counts each element once. -/
lemma sum_count_of_nodup {keys xs : List String} (hkeys : keys.Nodup) (hall : ∀ x ∈ xs, x ∈ keys) :
    (keys.map fun key => xs.count key).sum = xs.length := by
  have hcard : ∑ key ∈ keys.toFinset, Multiset.count key (xs : Multiset String) = xs.length :=
    Multiset.sum_count_eq_card fun x hx => mem_toFinset.mpr (hall x hx)
  rw [← sum_toFinset _ hkeys, ← hcard]
  exact Finset.sum_congr rfl fun key _ => by rw [Multiset.coe_count]

lemma sum_count_sortedSet (xs : List String) : ((sortedSet xs).map fun key => xs.count key).sum = xs.length :=
  sum_count_of_nodup (nodup_sortedSet xs) fun _ hx => mem_sortedSet.mpr hx

end CodeAudit.Text

import CodeAudit.Proofs.Python.FlowIndex
import Mathlib.Order.Lattice.Nat

/-!
# How deep blocks nest

A statement lies in a block of another one: in its body, an alternative, a clean-up, or the body of a handler or case.
`Inside` lists the blocks around a statement, the outermost first. The measure follows bodies only, so it is the
greatest number of blocks around a statement exactly when bodies alone lead as deep (`nesting_counts_iff`).
-/

namespace CodeAudit.Python.Tree

open List

variable {t s : Tree} {n : Nat}

/-- The statements in the blocks of a kind that a node has. -/
def block (t : Tree) (kind : Role) : List Tree :=
  if kind ∈ [.body, .alternative, .cleanup] then t.partsIn kind
  else if kind ∈ [.handler, .case] then (t.partsIn kind).flatMap (partsIn .body)
  else []

/-- A statement lies below a node in blocks of these kinds, the outermost first. -/
inductive Inside : Tree → List Role → Tree → Prop where
  | here {t s : Tree} {kind : Role} (h : s ∈ t.block kind) : Inside t [kind] s
  | deeper {t s u : Tree} {kind : Role} {kinds : List Role} (h : s ∈ t.block kind) (hs : Inside s kinds u) :
      Inside t (kind :: kinds) u

/-- The numbers of blocks around the statements below a node. -/
def blockCounts (t : Tree) : Set Nat := {n | ∃ kinds s, t.Inside kinds s ∧ kinds.length = n}

lemma height_lt_of_mem_parts (h : s ∈ t.parts) : s.height < t.height := by
  rw [height_eq t, Nat.lt_succ_iff]
  exact heightAll_le_iff.mp (Nat.le_refl _) s h

lemma height_lt_of_mem_partsIn {role : Role} (h : s ∈ t.partsIn role) : s.height < t.height :=
  height_lt_of_mem_parts (mem_of_mem_filter h)

lemma height_lt_of_mem_block (h : s ∈ t.block kind) : s.height < t.height := by
  unfold block at h
  split at h
  · exact height_lt_of_mem_partsIn h
  split at h
  · obtain ⟨arm, harm, hs⟩ := mem_flatMap.mp h
    exact (height_lt_of_mem_partsIn hs).trans (height_lt_of_mem_partsIn harm)
  · cases h

lemma Inside.length_le (h : t.Inside kinds s) : kinds.length ≤ t.height := by
  induction h with
  | here h => exact Nat.lt_of_le_of_lt (Nat.zero_le _) (height_lt_of_mem_block h)
  | deeper h _ ih => exact Nat.lt_of_le_of_lt ih (height_lt_of_mem_block h)

lemma lt_nestingAll_iff : n < nestingAll ts ↔ ∃ s ∈ ts.filter (·.role == .body), n ≤ s.nesting := by
  induction ts with
  | nil => simp [nestingAll]
  | cons t ts ih =>
    rw [nestingAll, lt_max_iff, ih, filter_cons]
    split <;> simp [Nat.lt_succ_iff]

lemma lt_nesting_iff : n < t.nesting ↔ ∃ s ∈ t.block .body, n ≤ s.nesting := by
  obtain ⟨_, _, _, _, parts⟩ := t
  exact lt_nestingAll_iff

/-- **The measure is reached through bodies.** -/
lemma exists_inside_bodies_iff : (∃ s, t.Inside (replicate (n + 1) .body) s) ↔ n < t.nesting := by
  rw [lt_nesting_iff]
  induction n generalizing t with
  | zero =>
    constructor
    · rintro ⟨s, _ | ⟨_, ⟨⟩⟩⟩
      exact ⟨s, ‹_›, Nat.zero_le _⟩
    · rintro ⟨s, hs, -⟩
      exact ⟨s, .here hs⟩
  | succ n ih =>
    constructor
    · rintro ⟨u, _ | ⟨hs, hu⟩⟩
      exact ⟨_, hs, lt_nesting_iff.mpr (ih.mp ⟨u, hu⟩)⟩
    · rintro ⟨s, hs, hn⟩
      obtain ⟨u, hu⟩ := ih.mpr (lt_nesting_iff.mp hn)
      exact ⟨u, .deeper hs hu⟩

/-- The measure is at most the greatest number of blocks around a statement, and is it exactly if bodies alone lead as
deep. -/
theorem nesting_counts_iff (name : String) (t : Tree) : ∃ n, IsLUB t.blockCounts n ∧
    (FunctionRecord.ofTree name t).nesting ≤ n ∧
    ((FunctionRecord.ofTree name t).nesting = n ↔ n = 0 ∨ ∃ s, t.Inside (replicate n .body) s) := by
  have hbounded : BddAbove t.blockCounts := by
    refine ⟨t.height, ?_⟩
    rintro _ ⟨kinds, s, hs, rfl⟩
    exact hs.length_le
  have hgreatest : IsLUB t.blockCounts (sSup t.blockCounts) := isLUB_csSup' hbounded
  have hbodies : ∀ {n}, n < t.nesting → n < sSup t.blockCounts := by
    intro n hn
    obtain ⟨s, hs⟩ := exists_inside_bodies_iff.mpr hn
    exact hgreatest.1 ⟨_, s, hs, length_replicate⟩
  have hle : t.nesting ≤ sSup t.blockCounts := le_of_forall_lt fun n => hbodies
  refine ⟨_, hgreatest, hle, ?_⟩
  change t.nesting = _ ↔ _
  cases hcount : sSup t.blockCounts with
  | zero => exact iff_of_true (Nat.le_zero.mp (hcount ▸ hle)) (.inl rfl)
  | succ n =>
    rw [hcount] at hle
    rw [exists_inside_bodies_iff, or_iff_right (Nat.succ_ne_zero n)]
    omega

end CodeAudit.Python.Tree

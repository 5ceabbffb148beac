import CodeAudit.Scan.Javascript
import Mathlib.Tactic.Lemma

/-!
# Listeners and their origin checks

A line that registers a listener for messages is reported unless one of the twenty lines after it looks at the origin.
A check on the line itself does not count.
-/

namespace CodeAudit.Javascript

open List

variable {lines : List (List Char)} {i n k : Nat}

/-- Whether the line with a number, counted from one, registers a listener. -/
def Registers (lines : List (List Char)) (i : Nat) : Prop :=
  0 < i ∧ lines[i - 1]?.any (codeMatches [messageListener])

lemma le_of_mem_unguardedListeners (h : i ∈ unguardedListeners n lines) : n ≤ i := by
  fun_induction unguardedListeners n lines with
  | case1 => cases h
  | case2 n _ _ _ ih =>
    rcases mem_cons.mp h with rfl | hrest
    · exact Nat.le_refl i
    · exact Nat.le_of_succ_le (ih hrest)
  | case3 _ _ _ _ ih => exact Nat.le_of_succ_le (ih h)

lemma add_mem_unguardedListeners : n + k ∈ unguardedListeners n lines ↔
    lines[k]?.any (codeMatches [messageListener]) ∧ looksAtOrigin ((lines.drop (k + 1)).take 20) = false := by
  induction lines generalizing n k with
  | nil => simp [unguardedListeners]
  | cons line lines ih =>
    have hbelow : n ∉ unguardedListeners (n + 1) lines := fun h =>
      Nat.not_succ_le_self n (le_of_mem_unguardedListeners h)
    rw [unguardedListeners, messageWindow]
    cases k with
    | zero => split <;> simp_all
    | succ k =>
      have hrest := @ih (n + 1) k
      rw [Nat.add_assoc, Nat.add_comm 1] at hrest
      split <;> simp_all

lemma mem_unguardedListeners :
    i ∈ unguardedListeners 1 lines ↔ Registers lines i ∧ looksAtOrigin ((lines.drop i).take 20) = false := by
  cases i with
  | zero => exact ⟨fun h => absurd (le_of_mem_unguardedListeners h) (by decide), fun h => absurd h.1.1 (by decide)⟩
  | succ k =>
    have hmem := @add_mem_unguardedListeners lines 1 k
    rw [Nat.add_comm 1 k] at hmem
    rw [hmem]
    exact and_congr_left fun _ => (and_iff_right (Nat.succ_pos k)).symm

/-- A window that starts at a line is the line and the window after it. -/
lemma looksAtOrigin_window (h : 0 < i) : looksAtOrigin ((lines.drop (i - 1)).take 21) =
    (looksAtOrigin ((lines.drop (i - 1)).take 1) || looksAtOrigin ((lines.drop i).take 20)) := by
  rw [show 21 = 1 + 20 from rfl, take_add, drop_drop, Nat.sub_add_cancel h]
  exact any_append

/-- Listeners are reported by the twenty lines after them. They are those with no look at the origin on their own line
either exactly when no listener has its only one there. -/
theorem window_exact_iff (lines : List (List Char)) :
    (∀ i, i ∈ unguardedListeners 1 lines ↔ Registers lines i ∧ looksAtOrigin ((lines.drop i).take 20) = false) ∧
    ((∀ i, i ∈ unguardedListeners 1 lines ↔ Registers lines i ∧ looksAtOrigin ((lines.drop (i - 1)).take 21) = false) ↔
      ∀ i, Registers lines i → looksAtOrigin ((lines.drop (i - 1)).take 1) = true →
        looksAtOrigin ((lines.drop i).take 20) = true) := by
  refine ⟨fun i => mem_unguardedListeners, forall_congr' fun i => ?_⟩
  rw [mem_unguardedListeners, and_congr_right_iff]
  refine imp_congr_right fun hi => ?_
  rw [looksAtOrigin_window hi.1]
  cases looksAtOrigin ((lines.drop (i - 1)).take 1) <;> simp

end CodeAudit.Javascript

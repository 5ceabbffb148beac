import CodeAudit.Proofs.Python.FlowIndex

/-!
# Functions inside functions

Records are made in the order of a visit and measured level by level. Both orders come to the same nodes, each as
often, so no function is missed or recorded twice. The nodes of an inner function are among those of the outer one, so
no count of it is greater (`records_follow_walk`). One statement that is too deep leaves a whole file without records
(`chainModule_unrecorded`).
-/

namespace CodeAudit.Python

open List Tree

def IsRecordOf (f : Tree) (r : FunctionRecord) : Prop := ∃ name, f.functionName? = some name ∧ r = .ofTree name f

/-- What is counted in one function is counted in the other as well. -/
structure FunctionRecord.Within (inner outer : FunctionRecord) : Prop where
  calls : ∀ kind, inner.calls kind <+~ outer.calls kind
  complexity : inner.complexity ≤ outer.complexity
  sensitive : inner.sensitiveNames.length ≤ outer.sensitiveNames.length

lemma isRecordOf_functionRecords (ts : List Tree) : Forall₂ IsRecordOf (ts.filter (·.functionName?.isSome))
    (ts.filterMap fun f => f.functionName?.map (FunctionRecord.ofTree · f)) := by
  induction ts with
  | nil => exact .nil
  | cons f ts ih =>
    cases hname : f.functionName? with
    | none => simpa [hname] using ih
    | some name => simpa [hname] using ⟨⟨name, hname, rfl⟩, ih⟩

/-- The nodes of a tree inside another one stand side by side among those of the outer one. -/
lemma levelOrder_subperm {inner outer : Tree} (h : inner ∈ outer.preorder) : inner.levelOrder <+~ outer.levelOrder := by
  obtain ⟨j, hj⟩ := mem_iff_getElem?.mp h
  have hsublist : inner.preorder <+ outer.preorder := (preorder_prefix_drop outer hj).sublist.trans (drop_sublist _ _)
  exact (levelOrder_perm inner).subperm.trans (hsublist.subperm.trans (levelOrder_perm outer).symm.subperm)

lemma within_of_mem {inner outer : Tree} (h : inner ∈ outer.preorder) (m n : String) :
    (FunctionRecord.ofTree m inner).Within (.ofTree n outer) := by
  have hnodes := levelOrder_subperm h
  refine ⟨fun kind => ?_, Nat.succ_le_succ (hnodes.countP_le _), ?_⟩
  · obtain ⟨found, hfound, hin⟩ := (hnodes.filter isCall).filter (isRisky kind)
    exact ⟨found.map calleeName, hfound.map _, hin.map _⟩
  · refine (subperm_of_subset (Text.nodup_sortedSet _) fun name hname => ?_).length_le
    obtain ⟨hbound, hsensitive⟩ := mem_filter.mp (Text.mem_sortedSet.mp hname)
    obtain ⟨node, hnode, hbound⟩ := mem_flatMap.mp hbound
    exact Text.mem_sortedSet.mpr (mem_filter.mpr ⟨mem_flatMap.mpr ⟨node, hnodes.subset hnode, hbound⟩, hsensitive⟩)

/-- **Functions inside functions.** A tree deeper than the room is refused. On any other there is one record for each
function that the walk by levels comes to, in the order of the visit; and the record of an inner function counts nothing
that the outer one does not. -/
theorem records_follow_walk (t : Tree) (room : Nat) :
    visitFunctions t room = (if room < t.visitDepth measuring then .error .tooDeep else .ok (functionRecords t)) ∧
    Forall₂ IsRecordOf (t.preorder.filter (·.functionName?.isSome)) (functionRecords t) ∧
    t.preorder.filter (·.functionName?.isSome) ~ t.levelOrder.filter (·.functionName?.isSome) ∧
    ∀ outer ∈ t.preorder, ∀ inner ∈ preorderAll outer.parts, ∀ r s, IsRecordOf outer r → IsRecordOf inner s →
      s.Within r := by
  refine ⟨?_, isRecordOf_functionRecords _, (t.levelOrder_perm.filter _).symm, ?_⟩
  · unfold visitFunctions visitable
    split <;> rfl
  rintro outer - inner hinner _ _ ⟨n, -, rfl⟩ ⟨m, -, rfl⟩
  exact within_of_mem (preorder_eq outer ▸ mem_cons_of_mem _ hinner) m n

def innerFunction : Tree := .node .body (.functionDef ⟨"inner", by decide⟩) 2 3
  [.node .body .exprStmt 3 3 [.node .part .call 3 3 [.node .callee (.name ⟨"exec", by decide⟩) 3 3 []]]]

def outerFunction : Tree := .node .body (.functionDef ⟨"outer", by decide⟩) 1 3 [innerFunction]

theorem innerFunction_within : ∃ r s, visitFunctions (.node .part .module 1 3 [outerFunction]) = .ok [r, s] ∧
    s.Within r ∧ s.calls .dangerous = ["exec"] := by
  refine ⟨_, _, rfl, ?_, by decide +kernel⟩
  exact (records_follow_walk (.node .part .module 1 3 [outerFunction]) usualRoom).2.2.2 outerFunction
    (.tail _ (.head _)) innerFunction (.head _) _ _ ⟨_, rfl, rfl⟩ ⟨_, rfl, rfl⟩

/-- A function after a statement that is too deep has no record. -/
theorem chainModule_unrecorded : outerFunction ∈ (chainModule [outerFunction]).preorder ∧
    outerFunction.functionName? = some "outer" ∧ visitFunctions (chainModule [outerFunction]) = .error .tooDeep := by
  have hown : 2 ≤ measuring.own .call := by decide
  refine ⟨?_, rfl, ?_⟩
  · simp [chainModule, preorder, preorderAll, outerFunction]
  · unfold visitFunctions visitable
    rw [if_pos (lt_visitDepth_chainModule hown _)]
    rfl

end CodeAudit.Python

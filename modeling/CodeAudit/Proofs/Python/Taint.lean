import CodeAudit.Proofs.Audit.AddedFile
import CodeAudit.Proofs.Record
import CodeAudit.Proofs.Text.SortedSet
import Mathlib.Data.List.Basic

/-!
# Tainted variables: a source before a sink

The visit to a tree carries a list of tainted variables. What it finds can be said without it: a call of a sink is
reported for each plain argument whose variable an assignment of an outside call has written before, with the last one
as source.

A visit is a run through the nodes in preorder (`enter_eq_foldl`), along which the list answers what the nodes seen so
far say (`Knows`); so positions in preorder dictate the findings (`taintFindings_eq`). An assignment stands before its
own value, so it taints calls inside that value as well (`complete_sources_iff`).
-/

namespace CodeAudit.Python

open List Bool Option Tree TaintVisit

variable {seen : List Tree} {visit : TaintVisit}

/-! ## Sources before sinks, by position -/

def Tree.assigns (v : String) (t : Tree) : Bool :=
  t.isAssign && (t.partsIn .target).any (fun target => target.name? == some v) &&
    (t.partsIn .value).head?.any fun value => value.isCall && taintSources.contains value.calleeName

def Tree.assignedCall (t : Tree) : String := ((t.partsIn .value).head?.map calleeName).getD ""

/-- The last node that assigns the result of an outside call to a variable. -/
def lastAssigning? (nodes : List Tree) (v : String) : Option Tree := (nodes.filter (assigns v)).getLast?

def Tree.isSinkCall (t : Tree) : Bool := t.isCall && taintSinks.contains t.calleeName

/-- What is found on an argument after some nodes: it is a variable that one of them has tainted, and the node calls a
sink. -/
def foundOn? (before : List Tree) (c argument : Tree) : Option TaintFinding :=
  if c.isSinkCall then
    argument.name?.bind fun v => (lastAssigning? before v).map fun source =>
      { var := v, source := { line := source.line, call := source.assignedCall },
        sink := { line := c.line, call := c.calleeName } }
  else none

/-- The arguments by position of all nodes in preorder, each with the node and its position. -/
def Tree.argumentsInOrder (t : Tree) : List (Nat × Tree × Tree) :=
  t.preorder.zipIdx.flatMap fun (c, i) => (c.partsIn .argument).map fun argument => (i, c, argument)

/-! ## A visit is a run through the nodes in preorder -/

mutual

lemma enter_eq_foldl (visit : TaintVisit) : ∀ t : Tree, visit.enter t = t.preorder.foldl see visit
  | .node role tag line endLine parts => by
    rw [enter, preorder, foldl_cons]
    exact enterAll_eq_foldl _ parts

lemma enterAll_eq_foldl (visit : TaintVisit) :
    ∀ ts : List Tree, visit.enterAll ts = (preorderAll ts).foldl see visit
  | [] => rfl
  | t :: ts => by
    rw [enterAll, preorderAll, foldl_append, ← enter_eq_foldl visit t]
    exact enterAll_eq_foldl _ ts

end

/-! ## One node of a run -/

variable (t : Tree)

lemma assignedSource?_eq : t.assignedSource? = if t.isAssign && (t.partsIn .value).head?.any
        (fun value => value.isCall && taintSources.contains value.calleeName) then some t.assignedCall else none := by
  unfold assignedSource? assignedCall
  cases t.isAssign with
  | false => simp
  | true =>
    cases hvalue : (t.partsIn .value).head? <;> simp

lemma mem_taintedTargets_iff (v : String) : v ∈ t.taintedTargets ↔ t.assigns v := by
  unfold taintedTargets assigns
  rw [assignedSource?_eq]
  by_cases hsource : (t.isAssign && (t.partsIn .value).head?.any
      (fun value => value.isCall && taintSources.contains value.calleeName))
  · obtain ⟨hassign, hvalue⟩ := and_eq_true_iff.mp hsource
    rw [if_pos hsource, hassign, hvalue]
    simp [mem_filterMap]
  · rw [if_neg hsource]
    simp only [isSome_none, false_eq_true, if_false, not_mem_nil, false_iff]
    intro h
    obtain ⟨h, hvalue⟩ := and_eq_true_iff.mp h
    exact hsource (and_eq_true_iff.mpr ⟨(and_eq_true_iff.mp h).1, hvalue⟩)

/-- After a node, a variable has the node as its source if the node assigns it, and else the one it had. -/
lemma source?_after (taints : Taints) (t : Tree) (v : String) : (taints.after t).source? v
      = if t.assigns v then some { line := t.line, call := t.assignedCall } else taints.source? v := by
  unfold Taints.after
  by_cases hv : t.assigns v
  · have hmem : v ∈ t.taintedTargets := (mem_taintedTargets_iff t v).mpr hv
    have hsource : t.assignedSource? = some t.assignedCall := by
      rw [assignedSource?_eq, if_pos]
      obtain ⟨h, hvalue⟩ := and_eq_true_iff.mp hv
      exact and_eq_true_iff.mpr ⟨(and_eq_true_iff.mp h).1, hvalue⟩
    rw [if_pos hv, hsource]
    unfold Taints.source?
    rw [find?_append]
    cases hfind : (t.taintedTargets.map fun v => (v, ({ line := t.line, call := t.assignedCall } : Sighting))).find?
        (·.1 == v) with
    | none =>
      have hall := find?_eq_none.mp hfind _ (mem_map_of_mem hmem)
      simp at hall
    | some found =>
      obtain ⟨w, -, rfl⟩ := mem_map.mp (mem_of_find?_eq_some hfind)
      rfl
  · have hmem : v ∉ t.taintedTargets := fun h => hv ((mem_taintedTargets_iff t v).mp h)
    rw [if_neg hv]
    cases t.assignedSource? with
    | none => rfl
    | some call =>
      have hfind : (t.taintedTargets.map fun v => (v, ({ line := t.line, call } : Sighting))).find?
          (·.1 == v) = none := by
        rw [find?_eq_none]
        intro entry hentry
        obtain ⟨w, hw, rfl⟩ := mem_map.mp hentry
        simp only [beq_iff_eq]
        rintro rfl
        exact hmem hw
      unfold Taints.source?
      rw [find?_append, hfind]
      rfl

lemma lastAssigning?_concat (nodes : List Tree) (t : Tree) (v : String) :
    lastAssigning? (nodes ++ [t]) v = if t.assigns v then some t else lastAssigning? nodes v := by
  unfold lastAssigning?
  rw [filter_append]
  by_cases hv : t.assigns v
  · rw [if_pos hv, filter_cons_of_pos hv, filter_nil, getLast?_concat]
  · rw [if_neg hv, filter_cons_of_neg hv, filter_nil, append_nil]

/-! ## The invariant of a run -/

/-- What is found on the nodes of a list, each after those before it. -/
def foundAmong (nodes : List Tree) : List TaintFinding :=
  nodes.zipIdx.flatMap fun (c, i) => (c.partsIn .argument).filterMap (foundOn? (nodes.take i) c)

/-- A visit knows the last source of each variable in the nodes it has seen and has reported what they
dictate. -/
structure Knows (seen : List Tree) (visit : TaintVisit) : Prop where
  source : ∀ v, visit.taints.source? v
    = (lastAssigning? seen v).map fun t => { line := t.line, call := t.assignedCall }
  found : visit.latest.reverse = foundAmong seen

lemma knows_nil : Knows [] {} := ⟨fun _ => rfl, rfl⟩

lemma foundAmong_concat (nodes : List Tree) (t : Tree) :
    foundAmong (nodes ++ [t]) = foundAmong nodes ++ (t.partsIn .argument).filterMap (foundOn? nodes t) := by
  unfold foundAmong
  rw [zipIdx_append, flatMap_append]
  congr 1
  · -- the positions of the first nodes lie before the new one, so what stands before them is the same
    refine flatMap_congr fun entry hentry => ?_
    obtain ⟨c, i⟩ := entry
    have hi : i < nodes.length := by
      have := snd_lt_of_mem_zipIdx hentry
      omega
    dsimp only
    rw [take_append_of_le_length (Nat.le_of_lt hi)]
  · simp

lemma reached_eq (h : Knows seen visit) (t : Tree) :
    visit.taints.reached t = (t.partsIn .argument).filterMap (foundOn? seen t) := by
  unfold Taints.reached
  change (if t.isSinkCall = true then _ else _) = _
  by_cases hsink : t.isSinkCall
  · rw [if_pos hsink, filterMap_filterMap]
    refine filterMap_congr fun argument _ => ?_
    unfold foundOn?
    rw [if_pos hsink]
    cases hname : argument.name? with
    | none => rfl
    | some v =>
      simp only [Option.bind_some, h.source v, Option.map_map]
      rfl
  · have hnone : ∀ argument, foundOn? seen t argument = none := fun argument => by
      unfold foundOn?
      rw [if_neg hsink]
    rw [if_neg hsink, funext hnone]
    simp

/-- The invariant holds after one more node. -/
lemma Knows.see (h : Knows seen visit) (t : Tree) : Knows (seen ++ [t]) (visit.see t) := by
  refine ⟨fun v => ?_, ?_⟩
  · rw [lastAssigning?_concat]
    change (visit.taints.after t).source? v = _
    rw [source?_after, h.source v]
    split <;> rfl
  · change ((visit.taints.reached t).reverse ++ visit.latest).reverse = _
    rw [reverse_append, reverse_reverse, h.found, foundAmong_concat, reached_eq h t]

/-- The invariant holds after a run through further nodes. -/
lemma Knows.run (h : Knows seen visit) (nodes : List Tree) :
    Knows (seen ++ nodes) (nodes.foldl TaintVisit.see visit) := by
  induction nodes generalizing seen visit with
  | nil => rwa [append_nil]
  | cons t nodes ih =>
    rw [foldl_cons, ← singleton_append, ← append_assoc]
    exact ih (h.see t)

/-- The findings on a tree are those that the positions of its nodes in preorder dictate. -/
lemma taintFindings_eq : taintFindings t = foundAmong t.preorder := by
  unfold taintFindings
  rw [enter_eq_foldl]
  exact (knows_nil.run t.preorder).found

/-! ## The report on a tree -/

/-- The document for a variable that a source has tainted and that reaches a sink. -/
def taintReport (v : String) (source sink : Tree) : Record :=
  [("type", .str "taint_analysis"), ("source", .list [.tuple [.nat source.line, .str source.assignedCall]]),
   ("sink", .str sink.calleeName), ("sink_line", .nat sink.line), ("variable", .str v),
   ("trace", .list [.tuple [.nat source.line, .str source.assignedCall],
     .tuple [.nat sink.line, .str sink.calleeName]])]

/-- The document on an argument of a node at a position in preorder: the node is a call of a sink, the argument a
variable, and the last earlier node that assigns the result of an outside call to it is the source. -/
def Tree.report? (t : Tree) (i : Nat) (c argument : Tree) : Option Record :=
  if c.isSinkCall then
    argument.name?.bind fun v => (lastAssigning? (t.preorder.take i) v).map fun source => taintReport v source c
  else none

/-- The documents on a tree: its nodes in preorder, the arguments of each in order. -/
def Tree.taintReports (t : Tree) : List Record :=
  t.argumentsInOrder.filterMap fun (i, c, argument) => t.report? i c argument

lemma foundOn?_toRecord (i : Nat) (c argument : Tree) :
    (foundOn? (t.preorder.take i) c argument).map TaintFinding.toRecord = t.report? i c argument := by
  unfold foundOn? report?
  by_cases hsink : c.isSinkCall
  · rw [if_pos hsink, if_pos hsink]
    cases argument.name? with
    | none => rfl
    | some v =>
      simp only [Option.bind_some, Option.map_map]
      rfl
  · rw [if_neg hsink, if_neg hsink]
    rfl

lemma taintFindings_toRecord : (taintFindings t).map (·.toRecord) = t.taintReports := by
  rw [taintFindings_eq, foundAmong, map_flatMap]
  unfold taintReports argumentsInOrder
  rw [filterMap_flatMap]
  refine flatMap_congr fun entry _ => ?_
  obtain ⟨c, i⟩ := entry
  dsimp only
  rw [map_filterMap, filterMap_map]
  exact filterMap_congr fun argument _ => foundOn?_toRecord t i c argument

/-- **A source before a sink.** On a tree that can be visited the analysis gives, in order, one document for each
argument by position of a call of a sink that is a variable tainted earlier in preorder, and none besides; a tree deeper
than the room is refused. -/
theorem taintTree_eq (t : Tree) (room : Nat) :
    taintTree t room = if room < t.visitDepth tainting then .error .tooDeep else .ok t.taintReports := by
  unfold taintTree visitable
  rw [taintFindings_toRecord]
  split <;> rfl

/-! ### Trees that are too deep -/

def callChain : Nat → Tree
  | 0 => .node .callee (.name ⟨"a", by decide⟩) 1 1 []
  | n + 1 => .node .callee .call 1 1 [callChain n]

/-- A call of a call, 500 times, and statements after it. -/
def chainModule (rest : List Tree) : Tree :=
  .node .part .module 1 1 (.node .body .exprStmt 1 1 [(callChain 500).inRole .part] :: rest)

lemma visitDepth_inRole (v : Visitor) (role : Role) :
    ∀ t : Tree, (t.inRole role).visitDepth v = t.visitDepth v
  | .node _ _ _ _ _ => rfl

lemma le_visitDepth_callChain (hown : 2 ≤ v.own .call) (n : Nat) : 2 * n ≤ (callChain n).visitDepth v := by
  induction n with
  | zero => exact Nat.zero_le _
  | succ n ih =>
    rw [callChain, visitDepth, visitDepthAll, visitDepthAll]
    omega

lemma lt_visitDepth_chainModule (hown : 2 ≤ v.own .call) (rest : List Tree) :
    usualRoom < (chainModule rest).visitDepth v := by
  have hchain := le_visitDepth_callChain hown 500
  rw [chainModule, visitDepth, visitDepthAll, visitDepth, visitDepthAll, visitDepth_inRole]
  unfold usualRoom
  omega

/-- The reports on a tree are not given for every tree: 500 pairs of brackets are too deep. -/
theorem not_taintTree_total : ¬ ∀ t : Tree, taintTree t = .ok t.taintReports := by
  intro h
  have hchain := h (chainModule [])
  have hown : 2 ≤ tainting.own .call := by decide
  unfold taintTree visitable at hchain
  rw [if_pos (lt_visitDepth_chainModule hown [])] at hchain
  cases hchain

/-! ## Sources before a sink and sources around it -/

mutual

lemma preorder_prefix_drop : ∀ (t : Tree) {j : Nat} {a : Tree}, t.preorder[j]? = some a → a.preorder <+: t.preorder.drop j
  | .node role tag line endLine parts, 0, a, h => by
    rw [preorder, getElem?_cons_zero, Option.some.injEq] at h
    subst h
    exact prefix_rfl
  | .node role tag line endLine parts, j + 1, a, h => by
    rw [preorder, getElem?_cons_succ] at h
    rw [preorder, drop_succ_cons]
    exact preorderAll_prefix_drop parts h

lemma preorderAll_prefix_drop : ∀ (ts : List Tree) {j : Nat} {a : Tree}, (preorderAll ts)[j]? = some a →
      a.preorder <+: (preorderAll ts).drop j
  | [], j, a, h => by simp [preorderAll] at h
  | t :: ts, j, a, h => by
    rw [preorderAll] at h ⊢
    rcases Nat.lt_or_ge j t.preorder.length with hj | hj
    · rw [getElem?_append_left hj] at h
      rw [drop_append_of_le_length (Nat.le_of_lt hj)]
      exact (preorder_prefix_drop t h).trans (prefix_append _ _)
    · rw [getElem?_append_right hj] at h
      obtain ⟨k, rfl⟩ := Nat.exists_eq_add_of_le hj
      rw [Nat.add_sub_cancel_left] at h
      rw [drop_length_add_append]
      exact preorderAll_prefix_drop ts h

end

/-- A call of a sink at a position in preorder has a variable as an argument. -/
def Tree.Sinks (t : Tree) (i : Nat) (c argument : Tree) (v : String) : Prop :=
  (i, c, argument) ∈ t.argumentsInOrder ∧ c.isSinkCall ∧ argument.name? = some v

/-- All nodes of an assignment of an outside call to a variable stand before a position. -/
def Tree.TaintedBefore (t : Tree) (i : Nat) (v : String) : Prop :=
  ∃ j a, t.preorder[j]? = some a ∧ a.assigns v ∧ j + a.preorder.length ≤ i

/-- The node at a position is a part of an assignment of an outside call to a variable. -/
def Tree.TaintedAround (t : Tree) (i : Nat) (c : Tree) (v : String) : Prop :=
  ∃ j k a, t.preorder[j]? = some a ∧ a.assigns v ∧ a.preorder[k + 1]? = some c ∧ j + (k + 1) = i

lemma Tree.length_preorder_pos : ∀ t : Tree, 0 < t.preorder.length
  | .node _ _ _ _ _ => Nat.succ_pos _

lemma isSome_lastAssigning?_iff : (lastAssigning? nodes v).isSome ↔ ∃ a ∈ nodes, a.assigns v := by
  unfold lastAssigning?
  rw [getLast?_isSome, ne_eq, filter_eq_nil_iff]
  simp

/-- An argument of a sink is reported exactly if an assignment before the call or around it taints it. -/
lemma Tree.Sinks.isSome_report?_iff {t c argument : Tree} (h : t.Sinks i c argument v) :
    (t.report? i c argument).isSome ↔ t.TaintedBefore i v ∨ t.TaintedAround i c v := by
  obtain ⟨hargument, hsink, hname⟩ := h
  have hcall : t.preorder[i]? = some c := by
    obtain ⟨⟨c', i'⟩, hmem, hentry⟩ := mem_flatMap.mp hargument
    obtain ⟨argument', -, heq⟩ := mem_map.mp hentry
    cases heq
    exact mem_zipIdx_iff_getElem?.mp hmem
  unfold report?
  rw [if_pos hsink, hname, bind_some, isSome_map, isSome_lastAssigning?_iff]
  constructor
  · rintro ⟨a, hmem, hassigns⟩
    obtain ⟨j, ha⟩ := mem_iff_getElem?.mp hmem
    rw [getElem?_take] at ha
    split at ha
    · rcases Nat.lt_or_ge i (j + a.preorder.length) with hin | hout
      · -- the call is one of the nodes of the assignment
        refine .inr ⟨j, i - j - 1, a, ha, hassigns, ?_, by omega⟩
        obtain ⟨rest, hrest⟩ := preorder_prefix_drop t ha
        have hinside : (a.preorder ++ rest)[i - j - 1 + 1]? = a.preorder[i - j - 1 + 1]? :=
          getElem?_append_left (by omega)
        rw [← hinside, hrest, getElem?_drop, ← hcall]
        congr 1
        omega
      · exact .inl ⟨j, a, ha, hassigns, hout⟩
    · cases ha
  · have hmem : ∀ {j a}, t.preorder[j]? = some a → j < i → a ∈ t.preorder.take i := fun ha hj =>
      mem_of_getElem? ((getElem?_take_of_lt hj).trans ha)
    rintro (⟨j, a, ha, hassigns, hj⟩ | ⟨j, k, a, ha, hassigns, -, hj⟩)
    · have hpositive := a.length_preorder_pos
      exact ⟨a, hmem ha (by omega), hassigns⟩
    · exact ⟨a, hmem ha (by omega), hassigns⟩

/-- **A finding and its source.** An argument of a sink is reported exactly if its variable is tainted by an assignment
that is complete before the call or that the call is a part of. So each finding has a complete source exactly if every
variable tainted around a call of a sink is tainted before it as well. -/
theorem complete_sources_iff (t : Tree) {room : Nat} (hdepth : t.visitDepth tainting ≤ room) :
    taintTree t room = .ok (t.argumentsInOrder.filterMap fun (i, c, argument) => t.report? i c argument) ∧
    (∀ i c argument v, t.Sinks i c argument v →
      ((t.report? i c argument).isSome ↔ t.TaintedBefore i v ∨ t.TaintedAround i c v)) ∧
    ((∀ i c argument v, t.Sinks i c argument v → (t.report? i c argument).isSome → t.TaintedBefore i v) ↔
      ∀ i c argument v, t.Sinks i c argument v → t.TaintedAround i c v → t.TaintedBefore i v) := by
  refine ⟨?_, fun i c argument v h => h.isSome_report?_iff, ?_⟩
  · unfold taintTree visitable
    rw [if_neg (Nat.not_lt.mpr hdepth), taintFindings_toRecord]
    rfl
  · refine forall₄_congr fun i c argument v => forall_congr' fun h => ?_
    rw [h.isSome_report?_iff, or_imp, and_iff_right id]

def readingX : Tree := .node .value .call 1 1
  [.node .callee (.name ⟨"input", by decide⟩) 1 1 [], .node .argument (.name ⟨"x", by decide⟩) 1 1 []]

def selfRead : Tree := .node .part .module 1 1
  [.node .body .assign 1 1 [.node .target (.name ⟨"x", by decide⟩) 1 1 [], readingX]]

theorem selfRead_source_incomplete : selfRead.visitDepth tainting ≤ usualRoom ∧
    ∃ argument, selfRead.Sinks 3 readingX argument "x" ∧ (selfRead.report? 3 readingX argument).isSome ∧
      ¬ selfRead.TaintedBefore 3 "x" := by
  have hdepth : selfRead.visitDepth tainting ≤ usualRoom := by decide
  have hsinks : selfRead.Sinks 3 readingX (.node .argument (.name ⟨"x", by decide⟩) 1 1 []) "x" :=
    ⟨mem_singleton_self _, by decide +kernel, rfl⟩
  refine ⟨hdepth, _, hsinks, ?_, ?_⟩
  · exact ((complete_sources_iff selfRead hdepth).2.1 _ _ _ _ hsinks).mpr
      (.inr ⟨1, 1, _, rfl, by decide +kernel, rfl, rfl⟩)
  · rintro ⟨j, a, ha, hassigns, hj⟩
    rcases j with _ | _ | _ | j
    · cases ha
      exact absurd hassigns (by decide)
    · cases ha
      exact absurd hj (by decide)
    · cases ha
      exact absurd hassigns (by decide)
    · have hpositive := a.length_preorder_pos
      omega

end CodeAudit.Python

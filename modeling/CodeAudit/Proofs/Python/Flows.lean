import CodeAudit.Proofs.Python.FlowIndex
import Mathlib.Logic.Relation

/-!
# Which flows are reported

A function leaks if it assigns the result of an outside call to a variable and hands it to a sink. A leak is reported
exactly when the index still has it: when the last function under the key leaks the same variable into the same sink on
the same line. Calls lead from stage to stage (`Follows`) and make the chain longer, so what is reported with a chain
of one function comes from the stage at which the search starts.
-/

namespace CodeAudit.Python

open Proofs List Value

variable {s : FlowStage} {x : FlowFinding} {t : Tree} {v function sink : String} {chain : List String} {line : Nat}

/-! ## Leaks -/

/-- A tree hands a variable to a sink: it has a call of the sink on the line, with the variable as an argument by
position. -/
def Tree.HandsOver (t : Tree) (sink : String) (line : Nat) (v : String) : Prop :=
  ∃ c ∈ t.preorder, c.isCall ∧ flowSinks.contains c.calleeName ∧ c.calleeName = sink ∧ c.line = line ∧
    ∃ argument ∈ c.partsIn .argument, argument.name? = some v

/-- A tree leaks a variable: it assigns the result of an outside call to it, and it hands it to a sink. -/
def Tree.Leaks (t : Tree) (sink : String) (line : Nat) (v : String) : Prop :=
  (∃ a ∈ t.preorder, a.assigns v) ∧ t.HandsOver sink line v

instance (t : Tree) (sink : String) (line : Nat) (v : String) : Decidable (t.HandsOver sink line v) :=
  inferInstanceAs (Decidable (∃ c ∈ t.preorder, _))

instance (t : Tree) (sink : String) (line : Nat) (v : String) : Decidable (t.Leaks sink line v) :=
  inferInstanceAs (Decidable (_ ∧ _))

lemma mem_flowSources_iff : v ∈ flowSources t ↔ ∃ a ∈ t.preorder, a.assigns v := by
  unfold flowSources
  rw [Text.mem_sortedSet, mem_flatMap]
  simp only [Tree.mem_levelOrder_iff, mem_taintedTargets_iff]

lemma mem_sinkCalls_iff : c ∈ sinkCalls t ↔ c ∈ t.preorder ∧ c.isCall ∧ flowSinks.contains c.calleeName := by
  unfold sinkCalls Tree.calls
  rw [mem_filter, mem_filter, Tree.mem_levelOrder_iff, and_assoc]

lemma mem_findings_iff :
    x ∈ s.findings f ↔ f.tree.HandsOver x.sink x.line x.var ∧ x.var ∈ s.tainted ∧ x.source = s.chain.headD "" ∧
      x.function = s.key ∧ x.chain = s.chain ∧ x.trace = s.trace := by
  unfold FlowStage.findings
  rw [mem_flatMap]
  constructor
  · rintro ⟨c, hc, hx⟩
    obtain ⟨v, hv, rfl⟩ := mem_map.mp hx
    obtain ⟨hargument, htainted⟩ := mem_filter.mp hv
    obtain ⟨hnode, hcall, hsink⟩ := mem_sinkCalls_iff.mp hc
    exact ⟨⟨c, hnode, hcall, hsink, rfl, rfl, mem_filterMap.mp hargument⟩, contains_iff_mem.mp htainted, rfl,
      rfl, rfl, rfl⟩
  · rintro ⟨⟨c, hnode, hcall, hsink, hname, hline, hargument⟩, htainted, hsource, hfunction, hchain, htrace⟩
    refine ⟨c, mem_sinkCalls_iff.mpr ⟨hnode, hcall, hsink⟩, mem_map.mpr ⟨x.var, ?_, ?_⟩⟩
    · exact mem_filter.mpr ⟨mem_filterMap.mpr hargument, contains_iff_mem.mpr htainted⟩
    · obtain ⟨source, function, sink, line, chain, v, trace⟩ := x
      subst hname hline hsource hfunction hchain htrace
      rfl

/-! ## Stages that calls lead to -/

section Search

variable {index : List IndexedFunction}
  {t : FlowStage} {visited : List (String × List String)} {stages : List FlowStage}

/-- A stage follows another one: the function of that one calls its function with a tainted variable. -/
def Follows (index : List IndexedFunction) (s t : FlowStage) : Prop :=
  ∃ f, lookUp index s.key = some f ∧ t ∈ s.next index f

lemma Follows.length_chain (h : Follows index s t) : t.chain.length = s.chain.length + 1 := by
  obtain ⟨f, -, hnext⟩ := h
  obtain ⟨call, -, hcall⟩ := mem_filterMap.mp hnext
  split at hcall
  · dsimp only at hcall
    split at hcall
    · cases hcall
    · cases hcall
      exact length_append
  · cases hcall

lemma length_chain_of_reached (h : Relation.ReflTransGen (Follows index) s t) :
    t = s ∨ s.chain.length < t.chain.length := by
  induction h with
  | refl => exact .inl rfl
  | tail _ hstep ih =>
    have hlonger := hstep.length_chain
    rcases ih with rfl | hlt
    · exact .inr (by omega)
    · exact .inr (by omega)

/-- A level gives the findings of its stages and the stages that follow them. -/
lemma visitStages_mem :
    (∀ x ∈ (visitStages index visited stages).1, ∃ s ∈ stages, ∃ f, lookUp index s.key = some f ∧ x ∈ s.findings f) ∧
      ∀ t ∈ (visitStages index visited stages).2.1, ∃ s ∈ stages, Follows index s t := by
  induction stages generalizing visited with
  | nil => exact ⟨nofun, nofun⟩
  | cons s stages ih =>
    -- Whether the first stage is visited or passed over, the rest gives what it gives.
    have hrest : ∀ visited, (∀ x ∈ (visitStages index visited stages).1, ∃ s' ∈ s :: stages, ∃ f,
          lookUp index s'.key = some f ∧ x ∈ s'.findings f) ∧
        ∀ t ∈ (visitStages index visited stages).2.1, ∃ s' ∈ s :: stages, Follows index s' t := by
      intro visited
      refine ⟨fun x hx => ?_, fun t ht => ?_⟩
      · obtain ⟨s', hs', hfound⟩ := ih.1 x hx
        exact ⟨s', mem_cons_of_mem _ hs', hfound⟩
      · obtain ⟨s', hs', hfollows⟩ := ih.2 t ht
        exact ⟨s', mem_cons_of_mem _ hs', hfollows⟩
    rw [visitStages]
    split
    · exact hrest visited
    · next f hf =>
      split
      · exact hrest visited
      · dsimp only
        obtain ⟨hfound, hnext⟩ := hrest ((s.key, s.tainted) :: visited)
        refine ⟨fun x hx => ?_, fun t ht => ?_⟩
        · rcases mem_append.mp hx with hx | hx
          · exact ⟨s, mem_cons_self, f, hf, hx⟩
          · exact hfound x hx
        · rcases mem_append.mp ht with ht | ht
          · exact ⟨s, mem_cons_self, f, hf, ht⟩
          · exact hnext t ht

lemma exists_stage_of_mem (h : x ∈ flowLevels index n visited stages) :
    ∃ s ∈ stages, ∃ t, Relation.ReflTransGen (Follows index) s t ∧
      ∃ f, lookUp index t.key = some f ∧ x ∈ t.findings f := by
  induction n generalizing visited stages with
  | zero => cases h
  | succ n ih =>
    rw [flowLevels] at h
    split at h
    · cases h
    · dsimp only at h
      rcases mem_append.mp h with hfound | hlater
      · obtain ⟨s, hs, f, hf, hx⟩ := visitStages_mem.1 x hfound
        exact ⟨s, hs, s, .refl, f, hf, hx⟩
      · -- A later level starts at the stages that follow those of this one.
        obtain ⟨s', hs', t, hreached, hx⟩ := ih hlater
        obtain ⟨s, hs, hfollows⟩ := visitStages_mem.2 s' hs'
        exact ⟨s, hs, t, .head hfollows hreached, hx⟩

lemma findings_subset_flowLevels (hf : lookUp index s.key = some f) :
    s.findings f ⊆ flowLevels index (n + 1) [] [s] := by
  intro x hx
  rw [flowLevels, if_neg (by simp)]
  refine mem_append_left _ ?_
  rw [visitStages, hf]
  simpa using Or.inl hx

end Search

/-! ## The findings on an index -/

section Findings

variable {ds : List Definition} {maxDepth : Int} {key sink v : String} {line : Nat}

def startStage (f : IndexedFunction) : FlowStage :=
  { key := f.key, tainted := flowSources f.tree, chain := [f.key], trace := [flowSources f.tree] }

lemma mem_flowFindings (h : x ∈ flowFindings (indexOf ds) maxDepth) :
    ∃ d, lastDefinition? ds d.key = some d ∧ ∃ t, Relation.ReflTransGen (Follows (indexOf ds)) (startStage d.entry.2) t ∧
      ∃ d', lastDefinition? ds t.key = some d' ∧ x ∈ t.findings d'.entry.2 := by
  obtain ⟨f, hf, hx⟩ := mem_flatMap.mp h
  obtain ⟨d, hd, rfl⟩ := mem_indexOf_iff.mp hf
  unfold flowsFrom at hx
  dsimp only at hx
  split at hx
  · cases hx
  · obtain ⟨s, hs, t, hreached, g, hg, hx⟩ := exists_stage_of_mem hx
    cases mem_singleton.mp hs
    rw [lookUp_indexOf, Option.map_eq_some_iff] at hg
    obtain ⟨d', hd', rfl⟩ := hg
    exact ⟨d, hd, t, hreached, d', hd', hx⟩

/-- Whatever is reported in a function is a variable that the last definition under its key hands to a sink. -/
lemma handsOver_of_mem_flowFindings (h : x ∈ flowFindings (indexOf ds) maxDepth) :
    ∃ d, lastDefinition? ds x.function = some d ∧ d.tree.HandsOver x.sink x.line x.var := by
  obtain ⟨-, -, t, -, d', hd', hx⟩ := mem_flowFindings h
  obtain ⟨hhands, -, -, hfunction, -⟩ := mem_findings_iff.mp hx
  exact ⟨d', hfunction ▸ hd', hhands⟩

/-- What a function is reported for by itself are the leaks of the last definition under its key. -/
lemma own_mem_flowFindings_iff (hdepth : 0 ≤ maxDepth) :
    (∃ x ∈ flowFindings (indexOf ds) maxDepth,
        x.chain = [key] ∧ x.function = key ∧ x.sink = sink ∧ x.line = line ∧ x.var = v) ↔
      ∃ d, lastDefinition? ds key = some d ∧ d.tree.Leaks sink line v := by
  constructor
  · rintro ⟨x, hx, hchain, rfl, rfl, rfl, rfl⟩
    obtain ⟨d, hd, t, hreached, d', hd', hx⟩ := mem_flowFindings hx
    obtain ⟨hhands, htainted, -, hfunction, hchain', -⟩ := mem_findings_iff.mp hx
    rcases length_chain_of_reached hreached with rfl | hlonger
    · -- At the start the tainted variables are the function's own.
      have hsame : lastDefinition? ds d.key = some d' := hd'
      rw [hd] at hsame
      cases hsame
      exact ⟨d, hfunction ▸ hd, mem_flowSources_iff.mp htainted, hhands⟩
    · -- After a call the chain has more than one function.
      rw [← hchain', hchain] at hlonger
      exact absurd hlonger (by simp [startStage])
  · rintro ⟨d, hd, hsource, hhands⟩
    obtain rfl := key_of_lastDefinition? hd
    have hv : v ∈ flowSources d.tree := mem_flowSources_iff.mpr hsource
    have hlook : lookUp (indexOf ds) (startStage d.entry.2).key = some d.entry.2 := by
      rw [lookUp_indexOf]
      exact congrArg (Option.map fun d : Definition => d.entry.2) hd
    -- The search is not given up before its first level, since there is a variable to follow and room for a level.
    have hlevels : (maxDepth + 1).toNat = maxDepth.toNat + 1 := by omega
    have hstart : flowsFrom (indexOf ds) (maxDepth + 1).toNat d.entry.2 =
        flowLevels (indexOf ds) (maxDepth.toNat + 1) [] [startStage d.entry.2] := by
      unfold flowsFrom
      rw [hlevels]
      exact if_neg fun hempty => ne_nil_of_mem hv (isEmpty_iff.mp hempty)
    let x : FlowFinding :=
      { source := d.key, function := d.key, sink, line, chain := [d.key], var := v, trace := [flowSources d.tree] }
    refine ⟨x, mem_flatMap.mpr ⟨d.entry.2, mem_indexOf_iff.mpr ⟨d, hd, rfl⟩, ?_⟩, rfl, rfl, rfl, rfl, rfl⟩
    rw [hstart]
    exact findings_subset_flowLevels hlook (mem_findings_iff.mpr ⟨hhands, hv, rfl, rfl, rfl, rfl⟩)

end Findings

/-! ## The report on a project -/

/-- A document reports that a variable reaches a sink on a line of a function, at the end of a chain of calls. -/
def IsFlowOf (r : Record) (chain : List String) (function sink : String) (line : Nat) (v : String) : Prop :=
  r.get? "type" = some (.str "interprocedural_taint") ∧ r.get? "call_chain" = some (.texts chain) ∧
    r.get? "sink_func" = some (.str function) ∧ r.get? "sink" = some (.str sink) ∧
    r.get? "sink_line" = some (.nat line) ∧ r.get? "tainted_var" = some (.str v)

lemma isFlowOf_toRecord_iff : IsFlowOf x.toRecord chain function sink line v ↔
      x.chain = chain ∧ x.function = function ∧ x.sink = sink ∧ x.line = line ∧ x.var = v := by
  have htexts : texts x.chain = texts chain ↔ x.chain = chain := by
    unfold texts
    rw [list.injEq]
    exact (map_injective_iff.mpr fun _ _ => str.inj).eq_iff
  have hline : nat x.line = nat line ↔ x.line = line := by
    unfold nat
    rw [int.injEq, Int.natCast_inj]
  unfold IsFlowOf FlowFinding.toRecord
  simp [htexts, hline]

/-- The analysis of a project gives such a report. -/
def ReportsFlow (files : FileTree) (path : String) (maxDepth : Int) (room : Nat) (chain : List String)
    (function sink : String) (line : Nat) (v : String) : Prop :=
  ∃ found, analyzeFlows files path maxDepth room = .ok found ∧ ∃ r ∈ found, IsFlowOf r chain function sink line v

lemma reportsFlow_iff :
    ReportsFlow files path maxDepth room chain function sink line v ↔ Indexable room files path ∧
      ∃ x ∈ flowFindings (indexOf (definitions files path)) maxDepth,
        x.chain = chain ∧ x.function = function ∧ x.sink = sink ∧ x.line = line ∧ x.var = v := by
  unfold ReportsFlow analyzeFlows
  constructor
  · rintro ⟨found, hfound, r, hr, hflow⟩
    obtain ⟨index, hindex, hfound⟩ := of_bind hfound
    cases hfound
    obtain ⟨hindexable, rfl⟩ := indexProject_eq_ok_iff.mp hindex
    obtain ⟨x, hx, rfl⟩ := mem_map.mp hr
    exact ⟨hindexable, x, hx, isFlowOf_toRecord_iff.mp hflow⟩
  · rintro ⟨hindexable, x, hx, hflow⟩
    refine ⟨_, bind_eq_ok_iff.mpr ⟨_, indexProject_eq_ok_iff.mpr ⟨hindexable, rfl⟩, rfl⟩, x.toRecord, ?_, ?_⟩
    · exact mem_map.mpr ⟨x, hx, rfl⟩
    · exact isFlowOf_toRecord_iff.mpr hflow

/-- **A leak is reported exactly when the index still has it.** For every function of a project there is a last one
under its key. The leaks reported on the key are those of that last function, provided that the project can be indexed;
and whatever chain of calls leads there, only what it hands to a sink is reported. -/
theorem leak_reported_iff {files : FileTree} {path file name : String} {t f : Tree} {maxDepth : Int} {room : Nat}
    (hfile : file ∈ Audit.pythonFiles files path) (ht : treeOfFile files file = .ok t) (hf : f ∈ t.preorder)
    (hname : f.functionName? = some name) (hdepth : 0 ≤ maxDepth) :
    ∃ last, lastDefinition? (definitions files path) (Path.relative file path files.home ++ "::" ++ name) = some last ∧
      ∀ sink line v, (ReportsFlow files path maxDepth room [last.key] last.key sink line v ↔
          Indexable room files path ∧ last.tree.Leaks sink line v) ∧
        ∀ chain, ReportsFlow files path maxDepth room chain last.key sink line v →
          Indexable room files path ∧ last.tree.HandsOver sink line v := by
  obtain ⟨last, hlast⟩ := exists_lastDefinition? (mem_definitions hfile ht hf hname)
  obtain hkey := key_of_lastDefinition? hlast
  refine ⟨last, hlast, fun sink line v => ⟨?_, fun chain hreports => ?_⟩⟩
  · rw [reportsFlow_iff, own_mem_flowFindings_iff hdepth, hkey, hlast]
    simp
  · obtain ⟨hindexable, x, hx, -, hfunction, rfl, rfl, rfl⟩ := reportsFlow_iff.mp hreports
    obtain ⟨d, hd, hhands⟩ := handsOver_of_mem_flowFindings hx
    rw [hfunction, hkey, hlast] at hd
    cases hd
    exact ⟨hindexable, hhands⟩

/-- Two classes with a method `run`: the first one evaluates what it has read, the second one does nothing. -/
def twoRuns : FileTree :=
  FileTree.empty.put ["p", "a.py"] (.file (.text
    "class A:\n def run(s):\n  x = input()\n  eval(x)\nclass B:\n def run(s): 0\n"))

/-- The method that does nothing hides the leak of the other one. -/
theorem twoRuns_leak_hidden :
    (∃ t f, treeOfFile twoRuns "p/a.py" = .ok t ∧ f ∈ t.preorder ∧ f.functionName? = some "run" ∧
        f.Leaks "eval" 4 "x") ∧
      Indexable usualRoom twoRuns "p" ∧
      ∀ chain, ¬ ReportsFlow twoRuns "p" 10 usualRoom chain "a.py::run" "eval" 4 "x" := by
  have hleak : (treeOfFile twoRuns "p/a.py").toOption.any (fun t => t.preorder.any fun f =>
      decide (f.functionName? = some "run" ∧ f.Leaks "eval" 4 "x")) = true := by decide +kernel
  obtain ⟨t, ht, hany⟩ := (Option.any_eq_true _ _).mp hleak
  obtain ⟨f, hf, hdecided⟩ := any_eq_true.mp hany
  obtain ⟨hname, hleaks⟩ := of_decide_eq_true hdecided
  have htree := toOption_eq_some_iff.mp ht
  have hindexed : (indexProject twoRuns "p").isOk = true := by decide +kernel
  obtain ⟨index, hindex⟩ := isOk_iff.mp hindexed
  have hindexable := (indexProject_eq_ok_iff.mp hindex).1
  refine ⟨⟨t, f, htree, hf, hname, hleaks⟩, hindexable, fun chain hreports => ?_⟩
  -- The last method under the key hands nothing over.
  have hidle : (lastDefinition? (definitions twoRuns "p") "a.py::run").all (fun d =>
      decide (d.key = "a.py::run" ∧ ¬ d.tree.HandsOver "eval" 4 "x")) = true := by decide +kernel
  have hfile : "p/a.py" ∈ Audit.pythonFiles twoRuns "p" := by decide +kernel
  have hdepth : (0 : Int) ≤ 10 := by decide
  obtain ⟨last, hlast, hreported⟩ := leak_reported_iff hfile htree hf hname hdepth
  have hkey : Path.relative "p/a.py" "p" twoRuns.home ++ "::" ++ "run" = "a.py::run" := by decide +kernel
  rw [hkey] at hlast
  rw [hlast] at hidle
  obtain ⟨hsame, hnone⟩ := of_decide_eq_true hidle
  exact hnone ((hreported "eval" 4 "x").2 chain (hsame ▸ hreports)).2

end CodeAudit.Python

import CodeAudit.Proofs.Python.Flows

/-!
# No flow crosses a function boundary

The search follows a call when the name called is a key of the index. A key joins a path and a name by two colons, and
no name of a program has a colon, as written or in its common form. So no call leads anywhere, and a bound on the depth
changes nothing unless it is negative. What the search gives is a double loop over the index (`analyzeFlows_eq`), and
nothing where there is no index, also where a function nests too deep to be visited (`deepProject_not_analyzed`).
-/

namespace CodeAudit.Python

open Proofs List String Tree

/-! ## What a call names -/

lemma colon_not_mem_identifier (name : Identifier) : ':' ∉ name.text.toList := by
  intro hcolon
  have hcontinues := all_eq_true.mp name.continues ':' hcolon
  exact absurd hcontinues (by decide)

lemma colon_not_mem_dottedName (t : Tree) : ':' ∉ t.dottedName.toList := by
  fun_induction dottedName t with
  | case1 _ id => exact colon_not_mem_identifier id
  | case2 _ attr _ _ owner _ ih =>
    rw [toList_append, toList_append, mem_append, mem_append]
    rintro ((howner | hpoint) | hattr)
    · exact ih howner
    · exact absurd hpoint (by decide)
    · exact colon_not_mem_identifier attr hattr
  | case3 => decide

lemma colon_not_mem_calleeName (t : Tree) : ':' ∉ t.calleeName.toList := by
  unfold calleeName
  cases (t.partsIn .callee).head? with
  | none => decide
  | some callee => exact colon_not_mem_dottedName callee

/-! ## Calls lead nowhere -/

section Index

variable {files : FileTree} {path : String}

lemma colon_mem_key (h : d ∈ definitions files path) : ':' ∈ d.key.toList := by
  obtain ⟨file, -, hd⟩ := mem_flatMap.mp h
  unfold definitionsOfFile at hd
  split at hd
  · obtain ⟨named, -, rfl⟩ := mem_map.mp hd
    have hcolons : ':' ∈ "::".toList := by decide
    simp only [toList_append, mem_append, hcolons, or_true, true_or]
  · cases hd

lemma lookUp_eq_none (h : ':' ∉ name.toList) : lookUp (indexOf (definitions files path)) name = none := by
  rw [lookUp_indexOf, Option.map_eq_none_iff, Option.eq_none_iff_forall_not_mem]
  intro d hd
  have hmem : d ∈ definitions files path := (mem_filter.mp (mem_of_getLast? hd)).1
  have hcolon := colon_mem_key hmem
  rw [key_of_lastDefinition? hd] at hcolon
  exact h hcolon

lemma next_eq_nil (s : FlowStage) (hf : f ∈ indexOf (definitions files path)) :
    s.next (indexOf (definitions files path)) f = [] := by
  obtain ⟨d, -, rfl⟩ := mem_indexOf_iff.mp hf
  unfold FlowStage.next
  rw [filterMap_eq_nil_iff]
  intro call hcall
  obtain ⟨c, -, rfl⟩ := mem_map.mp hcall
  have hnone : lookUp (indexOf (definitions files path)) (flowCall d.tree.parameterNames c).callee = none :=
    lookUp_eq_none (colon_not_mem_calleeName c)
  rw [hnone]
  rfl

end Index

/-! ## One level of a search -/

section Level

variable {index : List IndexedFunction} {s : FlowStage} {f : IndexedFunction}

lemma flowLevels_nil (n : Nat) (visited : List (String × List String)) : flowLevels index n visited [] = [] := by
  cases n <;> rfl

/-- A search that no call leads on ends with its first stage, however many levels it may have. -/
lemma flowLevels_of_next_eq_nil (hf : lookUp index s.key = some f) (hnext : s.next index f = []) (n : Nat) :
    flowLevels index (n + 1) [] [s] = s.findings f := by
  have hvisit : visitStages index [] [s] = (s.findings f, [], [(s.key, s.tainted)]) := by
    rw [visitStages, hf]
    simp [visitStages, hnext]
  rw [flowLevels, hvisit]
  simp [flowLevels_nil]

end Level

/-! ## The double loop -/

/-- The flows within a function: each call of a sink, level by level, with each variable among its arguments by position
that the function assigns the result of an outside call. -/
def ownFlows (f : IndexedFunction) : List FlowFinding :=
  let sources := flowSources f.tree
  let sinks := f.tree.levelOrder.filter fun c => c.isCall && flowSinks.contains c.calleeName
  sinks.flatMap fun call =>
    (((call.partsIn .argument).filterMap name?).filter (sources.contains ·)).map fun v =>
      { source := f.key, function := f.key, sink := call.calleeName, line := call.line
        chain := [f.key], var := v, trace := [sources] }

def sourceFunctions (index : List IndexedFunction) : List IndexedFunction :=
  index.filter fun f => !(flowSources f.tree).isEmpty

lemma flatMap_sourceFunctions (index : List IndexedFunction) (g : IndexedFunction → List FlowFinding) :
    (sourceFunctions index).flatMap g = index.flatMap fun f => if (flowSources f.tree).isEmpty then [] else g f := by
  unfold sourceFunctions
  induction index with
  | nil => rfl
  | cons f index ih =>
    rw [filter_cons, flatMap_cons, ← ih]
    cases (flowSources f.tree).isEmpty <;> rfl

lemma findings_startStage (f : IndexedFunction) : (startStage f).findings f = ownFlows f := by
  unfold FlowStage.findings ownFlows sinkCalls calls startStage
  rw [filter_filter]
  simp only [Bool.and_comm, headD_cons]

lemma flowsFrom_eq (n : Nat) (hf : f ∈ indexOf (definitions files path)) :
    flowsFrom (indexOf (definitions files path)) (n + 1) f =
      if (flowSources f.tree).isEmpty then [] else ownFlows f := by
  have hlook : lookUp (indexOf (definitions files path)) (startStage f).key = some f := by
    obtain ⟨d, hd, rfl⟩ := mem_indexOf_iff.mp hf
    rw [lookUp_indexOf]
    exact congrArg (Option.map fun d : Definition => d.entry.2) hd
  unfold flowsFrom
  rw [← findings_startStage, ← flowLevels_of_next_eq_nil hlook (next_eq_nil _ hf) n]
  rfl

/-- A search with no level finds nothing, and any other one finds the flows within functions. -/
lemma flowFindings_eq (files : FileTree) (path : String) (maxDepth : Int) :
    flowFindings (indexOf (definitions files path)) maxDepth =
      if maxDepth < 0 then [] else (sourceFunctions (indexOf (definitions files path))).flatMap ownFlows := by
  unfold flowFindings
  by_cases hdepth : maxDepth < 0
  · have hlevels : (maxDepth + 1).toNat = 0 := by omega
    rw [if_pos hdepth, hlevels, flatMap_eq_nil_iff]
    intro f _
    simp [flowsFrom, flowLevels]
  · have hlevels : (maxDepth + 1).toNat = maxDepth.toNat + 1 := by omega
    rw [if_neg hdepth, hlevels, flatMap_sourceFunctions]
    exact flatMap_congr fun f hf => flowsFrom_eq maxDepth.toNat hf

/-- **The search in one step.** The analysis fails exactly where the index does, which is where a Python file cannot be
read or a function cannot be visited. Elsewhere it gives nothing for a negative bound, and for any other the flows
within the functions that have a source, in the order of the index. -/
theorem analyzeFlows_eq (files : FileTree) (path : String) (maxDepth : Int) (room : Nat) :
    (analyzeFlows files path maxDepth room = (indexProject files path room).map fun index =>
        if maxDepth < 0 then [] else ((sourceFunctions index).flatMap ownFlows).map FlowFinding.toRecord) ∧
      ((∃ index, indexProject files path room = .ok index) ↔ Indexable room files path) := by
  constructor
  · unfold analyzeFlows
    cases hindex : indexProject files path room with
    | error fault => rfl
    | ok index =>
      obtain ⟨-, rfl⟩ := indexProject_eq_ok_iff.mp hindex
      rw [ok_bind, flowFindings_eq]
      split <;> rfl
  · constructor
    · rintro ⟨index, hindex⟩
      exact (indexProject_eq_ok_iff.mp hindex).1
    · intro hindexable
      exact ⟨_, indexProject_eq_ok_iff.mpr ⟨hindexable, rfl⟩⟩

/-! ### A function that is too deep -/

def calledAgain (n : Nat) : List Char :=
  "def f():\n a".toList ++ (replicate n ['(', ')']).flatten ++ ['\n']

lemma Tree.readable_of_isOk {t : Tree} (h : t.readable.isOk) : t.readable = .ok t := by
  unfold readable at h ⊢
  split
  · rw [if_pos ‹_›] at h
    cases h
  · rw [if_neg ‹_›] at h
    split
    · rw [if_pos ‹_›] at h
      cases h
    · rfl

def deepProject : FileTree :=
  FileTree.empty.put ["p", "a.py"] (.file (.text (String.ofList (calledAgain 340))))

lemma text_deepProject : deepProject.text .refuse "p/a.py" = .ok (ofList (calledAgain 340)) := by
  have hcontent : deepProject.content "p/a.py" = .ok (.text (ofList (calledAgain 340))) := rfl
  have hlines : Text.unifyLineEnds (calledAgain 340) = calledAgain 340 := by decide +kernel
  rw [FileTree.text_of_content hcontent, toList_ofList, hlines]

/-- The text is a program, and the function in it cannot be visited. -/
lemma calledAgain_too_deep : ((ofChars? (calledAgain 340)).any fun t => t.readable.isOk &&
    t.preorder.any fun f => decide (f.functionName? = some "f" ∧ usualRoom < f.visitDepth Tree.calling)) := by
  decide +kernel

lemma exists_too_deep : ∃ t f, treeOfFile deepProject "p/a.py" = .ok t ∧ f ∈ t.preorder ∧
    f.functionName? = some "f" ∧ usualRoom < f.visitDepth Tree.calling := by
  obtain ⟨t, ht, hdeep⟩ := (Option.any_eq_true _ _).mp calledAgain_too_deep
  rw [Bool.and_eq_true] at hdeep
  obtain ⟨f, hf, hdecided⟩ := any_eq_true.mp hdeep.2
  have hencodable : Text.isEncodable (ofList (calledAgain 340)) := by
    rw [Text.isEncodable, toList_ofList]
    decide +kernel
  refine ⟨t, f, ?_, hf, of_decide_eq_true hdecided⟩
  rw [treeOfFile, text_deepProject, ok_bind, ofSource, if_pos hencodable, toList_ofList, ht]
  exact readable_of_isOk hdeep.1

/-- It is not enough that all files are text: on a function of 340 calls of calls the analysis gives nothing. -/
theorem deepProject_not_analyzed :
    (∀ file ∈ Audit.pythonFiles deepProject "p", ∃ s, deepProject.text .refuse file = .ok s) ∧
      ∀ maxDepth, ¬ ∃ found, analyzeFlows deepProject "p" maxDepth = .ok found := by
  have hfiles : Audit.pythonFiles deepProject "p" = ["p/a.py"] := by decide +kernel
  rw [hfiles, forall_mem_singleton]
  refine ⟨⟨_, text_deepProject⟩, ?_⟩
  rintro maxDepth ⟨found, hfound⟩
  -- What is analysed has an index, and then every function of the file can be visited.
  obtain ⟨index, hindex, -⟩ := bind_eq_ok_iff.mp hfound
  have hindexable := (indexProject_eq_ok_iff.mp hindex).1
  obtain ⟨t, f, ht, hf, hname, hdeep⟩ := exists_too_deep
  have hfile : "p/a.py" ∈ Audit.pythonFiles deepProject "p" := by
    rw [hfiles]
    exact mem_singleton_self _
  have hvisitable := hindexable.visitable _ (mem_definitions hfile ht hf hname)
  exact absurd hvisitable (Nat.not_le.mpr hdeep)

end CodeAudit.Python

import CodeAudit.Proofs.Python.Taint

/-!
# Which functions the search for flows sees

The search for flows starts at every function of an index, which has one place for a file and a name. Methods of two
classes, nested functions and repeated definitions share a key, and the last, level by level, takes the place of the
others (`lookUp_indexOf`). There is an index exactly when no file and no function stands in the way
(`indexProject_eq_ok_iff`).
-/

namespace CodeAudit.Python

open Proofs List Except Tree

variable {ds : List Definition} {t x : Tree} {ts : List Tree}

variable {files : FileTree} {path file key : String}

/-! ## The two orders list the same nodes -/

namespace Tree

lemma preorder_eq (t : Tree) : t.preorder = t :: preorderAll t.parts := by
  cases t
  rfl

lemma height_eq (t : Tree) : t.height = heightAll t.parts + 1 := by
  cases t
  rfl

lemma heightAll_le_iff : heightAll ts ≤ n ↔ ∀ t ∈ ts, t.height ≤ n := by
  induction ts with
  | nil => simp [heightAll]
  | cons t ts ih => rw [heightAll, max_le_iff, ih, forall_mem_cons]

lemma preorderAll_append (ts us : List Tree) : preorderAll (ts ++ us) = preorderAll ts ++ preorderAll us := by
  induction ts with
  | nil => rfl
  | cons t ts ih => rw [cons_append, preorderAll, preorderAll, ih, append_assoc]

/-- The nodes of some trees are the trees themselves and the nodes of their parts. -/
lemma preorderAll_perm (ts : List Tree) : preorderAll ts ~ ts ++ preorderAll (ts.flatMap parts) := by
  induction ts with
  | nil => rfl
  | cons t ts ih =>
    rw [preorderAll, preorder_eq, flatMap_cons, preorderAll_append]
    exact (ih.append_left _).trans ((perm_append_comm_assoc _ _ _).cons t)

lemma levels_perm (h : heightAll ts ≤ n) : levels n ts ~ preorderAll ts := by
  induction n generalizing ts with
  | zero =>
    cases ts with
    | nil => rfl
    | cons t ts =>
      have hheight := heightAll_le_iff.mp h t mem_cons_self
      rw [height_eq] at hheight
      omega
  | succ n ih =>
    have hbelow : heightAll (ts.flatMap parts) ≤ n := by
      rw [heightAll_le_iff]
      intro part hpart
      obtain ⟨t, ht, hpart⟩ := mem_flatMap.mp hpart
      have hheight := heightAll_le_iff.mp h t ht
      rw [height_eq, Nat.add_le_add_iff_right] at hheight
      exact heightAll_le_iff.mp hheight part hpart
    exact ((ih hbelow).append_left ts).trans (preorderAll_perm ts).symm

lemma levelOrder_perm (t : Tree) : t.levelOrder ~ t.preorder := by
  have hheight : heightAll [t] ≤ t.height := heightAll_le_iff.mpr fun u hu => (mem_singleton.mp hu) ▸ le_rfl
  have hperm := levels_perm hheight
  rwa [preorderAll, preorderAll, append_nil] at hperm

lemma mem_levelOrder_iff : x ∈ t.levelOrder ↔ x ∈ t.preorder := (levelOrder_perm t).mem_iff

end Tree

/-! ## The definitions of a project -/

/-- A function definition of a project, with the key under which it is indexed. -/
structure Definition where
  key : String
  file : String
  tree : Tree

def Definition.entry (d : Definition) : String × IndexedFunction :=
  (d.key, IndexedFunction.ofTree d.key d.file d.tree)

/-- The function definitions of a program, level by level. -/
def definitionsIn (files : FileTree) (path file : String) (t : Tree) : List Definition :=
  (functionsOf t).map fun named =>
    { key := Path.relative file path files.home ++ "::" ++ named.1, file, tree := named.2 }

def definitionsOfFile (files : FileTree) (path file : String) : List Definition :=
  match treeOfFile files file with
  | .ok t => definitionsIn files path file t
  | .error _ => []

/-- The function definitions of a project, its Python files in the order of a walk. -/
def definitions (files : FileTree) (path : String) : List Definition :=
  (Audit.pythonFiles files path).flatMap (definitionsOfFile files path)

/-- The last definition under a key. -/
def lastDefinition? (ds : List Definition) (key : String) : Option Definition := (ds.filter (·.key == key)).getLast?

lemma mem_definitions (hfile : file ∈ Audit.pythonFiles files path) (ht : treeOfFile files file = .ok t)
    (hf : f ∈ t.preorder) (hname : f.functionName? = some name) :
    { key := Path.relative file path files.home ++ "::" ++ name, file, tree := f } ∈ definitions files path := by
  have hfunction : (name, f) ∈ functionsOf t :=
    mem_filterMap.mpr ⟨f, mem_levelOrder_iff.mpr hf, by rw [hname]; rfl⟩
  refine mem_flatMap.mpr ⟨file, hfile, ?_⟩
  unfold definitionsOfFile
  rw [ht]
  exact mem_map.mpr ⟨(name, f), hfunction, rfl⟩

/-! ## The index keeps the last definition under each key -/

lemma mem_putEntry : e ∈ putEntry entries key value ↔ e = (key, value) ∨ (e ∈ entries ∧ e.1 ≠ key) := by
  unfold putEntry
  split
  · next hany =>
    obtain ⟨old, hold, hkey⟩ := any_eq_true.mp hany
    rw [mem_map]
    constructor
    · rintro ⟨entry, hentry, rfl⟩
      by_cases h : entry.1 = key
      · exact .inl (by rw [if_pos (beq_iff_eq.mpr h)])
      · rw [if_neg (fun heq => h (beq_iff_eq.mp heq))]
        exact .inr ⟨hentry, h⟩
    · rintro (rfl | ⟨hentry, hne⟩)
      · exact ⟨old, hold, by rw [if_pos hkey]⟩
      · exact ⟨e, hentry, by rw [if_neg (fun heq => hne (beq_iff_eq.mp heq))]⟩
  · next hany =>
    rw [mem_append, mem_singleton, or_comm]
    refine or_congr_right ⟨fun hentry => ⟨hentry, fun heq => hany ?_⟩, fun h => h.1⟩
    exact any_eq_true.mpr ⟨e, hentry, beq_iff_eq.mpr heq⟩

/-- The entries that definitions leave in the index, one after the other. -/
def indexEntries (ds : List Definition) : List (String × IndexedFunction) :=
  ds.foldl (fun found d => putEntry found d.entry.1 d.entry.2) []

def indexOf (ds : List Definition) : List IndexedFunction := (indexEntries ds).map (·.2)

lemma lastDefinition?_concat (ds : List Definition) (d : Definition) (key : String) :
    lastDefinition? (ds ++ [d]) key = if d.key = key then some d else lastDefinition? ds key := by
  unfold lastDefinition?
  rw [filter_append]
  by_cases h : d.key = key
  · have hone : [d].filter (·.key == key) = [d] := by simp [h]
    rw [if_pos h, hone, getLast?_concat]
  · have hnone : [d].filter (·.key == key) = [] := by simp [h]
    rw [if_neg h, hnone, append_nil]

lemma key_of_lastDefinition? (h : lastDefinition? ds key = some d) : d.key = key :=
  beq_iff_eq.mp (mem_filter.mp (mem_of_getLast? h)).2

lemma exists_lastDefinition? (h : d ∈ ds) : ∃ last, lastDefinition? ds d.key = some last := by
  have hmem : d ∈ ds.filter (·.key == d.key) := mem_filter.mpr ⟨h, beq_self_eq_true d.key⟩
  exact ⟨_, getLast?_eq_some_getLast (ne_nil_of_mem hmem)⟩

lemma mem_indexEntries_iff : e ∈ indexEntries ds ↔ ∃ d, lastDefinition? ds e.1 = some d ∧ d.entry = e := by
  induction ds using reverseRecOn with
  | nil => simp [indexEntries, lastDefinition?]
  | append_singleton ds d ih =>
    have hlast : indexEntries (ds ++ [d]) = putEntry (indexEntries ds) d.key d.entry.2 := by
      unfold indexEntries
      rw [foldl_append]
      rfl
    rw [hlast, mem_putEntry, ih, lastDefinition?_concat]
    -- The new definition takes the place under its own key and leaves the other keys alone.
    by_cases h : d.key = e.1
    · rw [if_pos h]
      refine ⟨?_, ?_⟩
      · rintro (rfl | ⟨-, hne⟩)
        · exact ⟨d, rfl, rfl⟩
        · exact absurd h.symm hne
      · rintro ⟨d', hd', rfl⟩
        cases hd'
        exact .inl rfl
    · rw [if_neg h]
      refine ⟨?_, fun hold => .inr ⟨hold, Ne.symm h⟩⟩
      rintro (rfl | ⟨hold, -⟩)
      · exact absurd rfl h
      · exact hold

lemma mem_indexOf_iff : f ∈ indexOf ds ↔ ∃ d, lastDefinition? ds d.key = some d ∧ d.entry.2 = f := by
  unfold indexOf
  rw [mem_map]
  constructor
  · rintro ⟨e, hentry, rfl⟩
    obtain ⟨d, hd, rfl⟩ := mem_indexEntries_iff.mp hentry
    exact ⟨d, hd, rfl⟩
  · rintro ⟨d, hd, rfl⟩
    exact ⟨d.entry, mem_indexEntries_iff.mpr ⟨d, hd, rfl⟩, rfl⟩

lemma lookUp_indexOf : lookUp (indexOf ds) key = (lastDefinition? ds key).map fun d => d.entry.2 := by
  unfold lookUp
  cases hfound : (indexOf ds).find? (·.key == key) with
  | some f =>
    obtain ⟨d, hd, rfl⟩ := mem_indexOf_iff.mp (mem_of_find?_eq_some hfound)
    have hkey : d.key = key := beq_iff_eq.mp (find?_eq_some_iff_append.mp hfound).1
    rw [← hkey, hd]
    rfl
  | none =>
    cases hd : lastDefinition? ds key with
    | none => rfl
    | some d =>
      have hkey := key_of_lastDefinition? hd
      have hin : d.entry.2 ∈ indexOf ds := mem_indexOf_iff.mpr ⟨d, by rw [hkey, hd], rfl⟩
      exact absurd (beq_iff_eq.mpr hkey) (find?_eq_none.mp hfound _ hin)

/-- A project can be indexed: each of its Python files can be read, and each of its functions can be visited. -/
structure Indexable (room : Nat) (files : FileTree) (path : String) : Prop where
  readable : ∀ file ∈ Audit.pythonFiles files path, ∃ s, files.text .refuse file = .ok s
  visitable : ∀ d ∈ definitions files path, d.tree.visitDepth calling ≤ room

/-- A file does not keep its project from being indexed. -/
def IsIndexable (room : Nat) (files : FileTree) (path file : String) : Prop :=
  (∃ s, files.text .refuse file = .ok s) ∧
    ∀ d ∈ definitionsOfFile files path file, d.tree.visitDepth calling ≤ room

lemma indexable_iff :
    Indexable room files path ↔ ∀ file ∈ Audit.pythonFiles files path, IsIndexable room files path file := by
  constructor
  · intro h file hfile
    exact ⟨h.readable file hfile, fun d hd => h.visitable d (mem_flatMap.mpr ⟨file, hfile, hd⟩)⟩
  · intro h
    refine ⟨fun file hfile => (h file hfile).1, fun d hd => ?_⟩
    obtain ⟨file, hfile, hd⟩ := mem_flatMap.mp hd
    exact (h file hfile).2 d hd

lemma forM_visitable_eq_ok_iff :
    (functionsOf t).forM (fun named => named.2.visitable calling room) = .ok u ↔
      ∀ d ∈ definitionsIn files path file t, d.tree.visitDepth calling ≤ room := by
  rw [forM_eq_ok_iff]
  simp only [Audit.visitable_eq_ok_iff, definitionsIn, forall_mem_map]

/-- The entries after those of a file are added; files that are not for Python add none. -/
def entriesAfter (files : FileTree) (path : String) (found : List (String × IndexedFunction)) (file : String) :
    List (String × IndexedFunction) :=
  if Text.endsWith file ".py" then
    (definitionsOfFile files path file).foldl (fun found d => putEntry found d.entry.1 d.entry.2) found
  else found

lemma foldl_entriesAfter (files : FileTree) (path : String) :
    (files.walk path).foldl (entriesAfter files path) [] = indexEntries (definitions files path) := by
  unfold entriesAfter indexEntries definitions Audit.pythonFiles
  rw [foldl_flatMap, foldl_filter]

/-- **The index of a project** is there exactly when it can be indexed, with the last definition under each key. -/
lemma indexProject_eq_ok_iff :
    indexProject files path room = .ok index ↔ Indexable room files path ∧ index = indexOf (definitions files path) := by
  let passes := fun file => Text.endsWith file ".py" → IsIndexable room files path file
  unfold indexProject
  dsimp only
  rw [bind_eq_ok_iff, exists_congr fun entries =>
    and_congr_left' (forIn_eq_ok_iff passes (entriesAfter files path) ?_), foldl_entriesAfter]
  · have hpasses : (∀ file ∈ files.walk path, passes file) ↔ Indexable room files path := by
      rw [indexable_iff]
      simp only [passes, Audit.pythonFiles, mem_filter, and_imp]
    constructor
    · rintro ⟨entries, ⟨hall, rfl⟩, hindex⟩
      exact ⟨hpasses.mp hall, (ok.inj hindex).symm⟩
    · rintro ⟨hall, rfl⟩
      exact ⟨_, ⟨hpasses.mpr hall, rfl⟩, rfl⟩
  · -- One file: it is passed over, or read, and then no program or one whose functions are visited.
    intro file found step
    by_cases hpython : Text.endsWith file ".py"
    · have hpass : passes file ↔ IsIndexable room files path file := ⟨fun h => h hpython, fun h _ => h⟩
      rw [if_pos hpython, hpass]
      unfold entriesAfter IsIndexable definitionsOfFile treeOfFile
      rw [if_pos hpython]
      cases files.text .refuse file with
      | error fault => exact ⟨nofun, fun ⟨⟨⟨_, hread⟩, _⟩, _⟩ => nomatch hread⟩
      | ok source =>
        rw [ok_bind, ok_bind]
        cases ofSource source with
        | error fault =>
          exact ⟨fun h => ⟨⟨⟨source, rfl⟩, nofun⟩, (ok.inj h).symm⟩, fun h => congrArg ok h.2.symm⟩
        | ok t =>
          dsimp only
          rw [bind_eq_ok_iff, definitionsIn, foldl_map]
          constructor
          · rintro ⟨_, hvisit, hstep⟩
            exact ⟨⟨⟨source, rfl⟩, forM_visitable_eq_ok_iff.mp hvisit⟩, (ok.inj hstep).symm⟩
          · rintro ⟨⟨-, hvisit⟩, rfl⟩
            exact ⟨(), forM_visitable_eq_ok_iff.mpr hvisit, rfl⟩
    · have hpass : passes file := fun h => absurd h hpython
      rw [if_neg hpython, and_iff_right hpass]
      unfold entriesAfter
      rw [if_neg hpython]
      exact ⟨fun h => (ok.inj h).symm, fun h => congrArg ok h.symm⟩

end CodeAudit.Python

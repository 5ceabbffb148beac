import CodeAudit.Proofs.Model.AnalyzerFeatures
import CodeAudit.Proofs.Python.Taint
import CodeAudit.Proofs.Table.Stored

/-!
# Features of stored findings

A classifier is trained on findings that were stored as a table and read back, and scores findings as the analyses give
them. Stored lists come back as their texts (`exists_example`), so a count of elements becomes one of characters; a
list that only others have becomes a gap, which cannot be counted. So no list of findings has the same features both
ways (`training_never_sees_scoring`).
-/

namespace CodeAudit.Label

open Proofs Proofs.Steps Features String Table Python Record Value Decimal Except

variable {path name : String} {host after : Host}
  {rows findings : List Record} {r : Record} {v : Value} {t : Tree} {f : TaintFinding}

/-- The findings that a classifier is trained on: labelled, stored as a table and read back. -/
def stored (findings : List Record) : Except Fault (List Value) := do
  let rows ← findings.mapM fun r => labelled (.obj r)
  let table ← ofRecords rows
  return examples (← Table.read (join table.lines))

/-- The features that a classifier is trained on. -/
def trainingFeatures (findings : List Record) : Except Fault Table := do
  Features.table (← stored findings)

def scoringFeatures (findings : List Record) : Except Fault Table := Features.table (findings.map .obj)

lemma plainText_of_store (hplain : Archive.kind? path = none)
    (h : on (store rows path) host = (.ok (), after)) :
    ∃ table, ofRecords rows = .ok table ∧ Archive.plainText after.files path = .ok (join table.lines) := by
  unfold store at h
  obtain ⟨table, between, htable, hstore⟩ := of_on_bind h
  obtain ⟨hrecords, rfl⟩ := Action.on_ofExcept_eq_ok_iff.mp htable
  refine ⟨table, hrecords, ?_⟩
  unfold storeTable at hstore
  obtain ⟨read, between', hget, hstore⟩ := of_on_bind hstore
  cases hget
  by_cases hdirectory : (!between.files.isDirectory (Path.parent path))
  · rw [if_pos hdirectory] at hstore
    cases hstore
  · rw [if_neg hdirectory] at hstore
    obtain ⟨-, files, hwrite, rfl⟩ := Action.on_writeParts_eq_ok_iff.mp hstore
    have hcontent : files.content path = .ok (.text (join table.lines)) :=
      bind_eq_ok_iff.mpr ⟨_, FileTree.find_of_write hwrite, rfl⟩
    unfold Archive.plainText
    rw [hplain]
    exact bind_eq_ok_iff.mpr ⟨_, hcontent, rfl⟩

lemma features_of_store (hrows : findings.mapM (fun r => labelled (.obj r)) = .ok rows) (hplain : Archive.kind? path = none)
    (h : on (store rows path) host = (.ok (), after)) :
    (do table (examples (← Table.read (← Archive.plainText after.files path)))) = trainingFeatures findings := by
  obtain ⟨table, htable, htext⟩ := plainText_of_store hplain h
  unfold trainingFeatures stored
  rw [htext, hrows, ok_bind, ok_bind, htable, ok_bind]
  cases Table.read (join table.lines) <;> rfl

/-! ## Findings on functions and on taint -/

/-- A finding of the analyses of functions and of taint, or what the analyzer of Javascript syntax prints about a
function. -/
inductive IsSourceFinding : Record → Prop where
  | function {t : Tree} {f : FunctionRecord} (h : f ∈ functionRecords t) (changed : Tools.Churn) :
    IsSourceFinding (withFields f.toFinding changed.toRecord)
  | script {name : String} (h : keepsText name) (line length depth : Nat) (checks : List String) :
    IsSourceFinding (Audit.printedFunction name line length depth checks)
  | taint {t : Tree} {f : TaintFinding} (h : f ∈ taintFindings t) (changed : Tools.Churn) :
    IsSourceFinding (withFields f.toRecord changed.toRecord)

def listFields : List String :=
  CallKind.all.map (·.field) ++ ["input_validation", "embedding", "source", "trace"]

def isListed (field : String × Value) : Bool := !listFields.contains field.1 || (field.2 matches .list _)

/-- A finding that can be stored: its type comes first and is one of two, and its lists are under the names of lists. -/
structure IsStored (r : Record) : Prop where
  storable : IsStorable "type" r
  kind : r.get? "type" = some (.str "function_analysis") ∨ r.get? "type" = some (.str "taint_analysis")
  lists : r.all isListed

lemma IsStored.exists_list (h : IsStored r) (hname : name ∈ listFields)
    (hv : r.get? name = some v) : ∃ items, v = .list items := by
  have hlisted := List.all_eq_true.mp h.lists _ (mem_of_get? hv)
  unfold isListed at hlisted
  rw [List.contains_iff_mem.mpr hname, Bool.not_true, Bool.false_or] at hlisted
  split at hlisted
  · next items heq => exact ⟨items, heq⟩
  · cases hlisted

/-! ## What a line keeps of a finding -/

lemma keepsText_identifier (name : Identifier) : keepsText name.text := by
  refine List.all_eq_true.mpr fun c hc => ?_
  have hcontinues := List.all_eq_true.mp name.continues c hc
  unfold isKept
  rw [Bool.and_eq_true, bne_iff_ne, bne_iff_ne]
  constructor <;> rintro rfl <;> exact absurd hcontinues (by decide)

lemma keepsText_of_functionRecords {f : FunctionRecord} (h : f ∈ functionRecords t) : keepsText f.name := by
  obtain ⟨node, -, hnode⟩ := List.mem_filterMap.mp h
  obtain ⟨name, hname, rfl⟩ := Option.map_eq_some_iff.mp hnode
  unfold Tree.functionName? at hname
  split at hname
  · cases Option.some.inj hname
    exact keepsText_identifier _
  · cases hname

lemma keepsText_of_taintFindings (h : f ∈ taintFindings t) : keepsText f.var ∧ keepsText f.sink.call := by
  rw [taintFindings_eq] at h
  obtain ⟨⟨c, i⟩, -, h⟩ := List.mem_flatMap.mp h
  obtain ⟨argument, -, h⟩ := List.mem_filterMap.mp h
  unfold foundOn? at h
  split at h
  · next hsink =>
    obtain ⟨v, hv, h⟩ := Option.bind_eq_some_iff.mp h
    obtain ⟨source, -, rfl⟩ := Option.map_eq_some_iff.mp h
    constructor
    · unfold Tree.name? at hv
      split at hv
      · cases Option.some.inj hv
        exact keepsText_identifier _
      · cases hv
    · have hsinks : ∀ name ∈ taintSinks, keepsText name := by decide +kernel
      exact hsinks _ (List.contains_iff_mem.mp (Bool.and_eq_true_iff.mp hsink).2)
  · cases h

lemma keepsText_bool (b : Bool) : keepsText (bool b).cellText := by
  cases b <;> decide

lemma keepsText_churn (changed : Tools.Churn) (h : field ∈ changed.toRecord) : keepsText field.2.cellText := by
  revert field
  simp only [Tools.Churn.toRecord, List.forall_mem_cons]
  exact ⟨keepsText_toString _, keepsText_toString _, keepsText_toString _, by simp⟩

lemma isStored_function {f : FunctionRecord} (h : f ∈ functionRecords t)
    (changed : Tools.Churn) : IsStored (withFields f.toFinding changed.toRecord) := by
  have hfields : withFields f.toFinding changed.toRecord = f.toFinding ++ changed.toRecord := rfl
  rw [hfields]
  refine ⟨⟨⟨"function_analysis", _, rfl, by decide⟩, ?_, fun field hfield => ?_⟩, .inl rfl, rfl⟩
  · have hnames : names (f.toFinding ++ changed.toRecord) = ["type", "function", "line", "length"] ++
        CallKind.all.map (·.field) ++ ["cyclomatic_complexity", "max_nesting_depth", "input_validation",
          "sensitive_data_involved", "num_sensitive_vars", "embedding", "commit_count", "unique_authors",
          "last_modified_days"] := rfl
    rw [hnames]
    decide +kernel
  rcases List.mem_append.mp hfield with hfinding | hchurn
  · have hcalls : ∀ field ∈ f.callFields, keepsText field.2.cellText := by
      intro field hfield
      obtain ⟨kind, -, rfl⟩ := List.mem_map.mp hfield
      exact keepsText_texts _
    clear hfield
    revert field
    simp only [FunctionRecord.toFinding, FunctionRecord.measureFields, List.forall_mem_append, List.forall_mem_cons]
    refine ⟨⟨⟨⟨by decide, keepsText_of_functionRecords h, ?_, ?_, by simp⟩, hcalls⟩, ?_, ?_, keepsText_texts _,
      keepsText_bool _, ?_, by simp⟩, by decide, by simp⟩
    all_goals exact keepsText_toString _
  · exact keepsText_churn changed hchurn

lemma isStored_script (h : keepsText name) (line length depth : Nat) (checks : List String) :
    IsStored (Audit.printedFunction name line length depth checks) := by
  refine ⟨⟨⟨"function_analysis", _, rfl, by decide⟩, ?_, ?_⟩, .inl rfl, rfl⟩
  · change ∀ name ∈ ["type", "name", "line", "length", "max_nesting_depth", "input_validation", "dangerous_calls"], _
    decide
  · simp only [Audit.printedFunction, List.forall_mem_cons]
    refine ⟨by decide, h, ?_, ?_, ?_, keepsText_texts _, by decide, by simp⟩
    all_goals exact keepsText_toString _

lemma isStored_taint (h : f ∈ taintFindings t)
    (changed : Tools.Churn) : IsStored (withFields f.toRecord changed.toRecord) := by
  have hfields : withFields f.toRecord changed.toRecord = f.toRecord ++ changed.toRecord := rfl
  rw [hfields]
  refine ⟨⟨⟨"taint_analysis", _, rfl, by decide⟩, ?_, fun field hfield => ?_⟩, .inr rfl, rfl⟩
  · change ∀ name ∈ ["type", "source", "sink", "sink_line", "variable", "trace", "commit_count", "unique_authors",
      "last_modified_days"], _
    decide
  rcases List.mem_append.mp hfield with hfinding | hchurn
  · have hsightings : ∀ sightings : List Sighting, keepsText (list (sightings.map (·.toValue))).quoted := by
      intro sightings
      refine keepsText_list fun v hv => ?_
      obtain ⟨sighting, -, rfl⟩ := List.mem_map.mp hv
      exact areShown_pair _ _
    obtain ⟨hvar, hsink⟩ := keepsText_of_taintFindings h
    clear hfield
    revert field
    simp only [TaintFinding.toRecord, List.forall_mem_cons]
    exact ⟨by decide, hsightings [f.source], hsink, keepsText_toString _, hvar, hsightings [f.source, f.sink], by simp⟩
  · exact keepsText_churn changed hchurn

lemma IsSourceFinding.isStored (h : IsSourceFinding r) : IsStored r := by
  cases h with
  | function h changed => exact isStored_function h changed
  | script h line length depth checks => exact isStored_script h line length depth checks
  | taint h changed => exact isStored_taint h changed

/-! ## Labels -/

lemma IsSourceFinding.has_label (h : IsSourceFinding r) : r.has "label" = false := by
  cases h <;> rfl

lemma IsSourceFinding.labelled_eq (h : IsSourceFinding r) (hrow : labelled (.obj r) = .ok row) :
    ∃ n, row = r ++ [("label", .int n)] := by
  simp only [labelled, labelOf, bind_eq_ok_iff] at hrow
  obtain ⟨_, ⟨vulnerable, -, ⟨⟩⟩, _, ⟨⟩, ⟨⟩⟩ := hrow
  refine ⟨if vulnerable then 1 else 0, ?_⟩
  unfold put
  rw [h.has_label]
  rfl

lemma IsStored.concat_label (h : IsStored r) (n : Int) : IsStored (r ++ [("label", .int n)]) := by
  have hname : "label".isEmpty = false ∧ keepsText "label" := by decide
  refine ⟨h.storable.concat hname (keepsText_toString n), ?_, ?_⟩
  · have htype : get? (r ++ [("label", .int n)]) "type" = r.get? "type" := by
      rw [get?_append]
      exact Option.or_none
    rw [htype]
    exact h.kind
  · rw [List.all_append, h.lists]
    rfl

/-! ## What comes back -/

lemma part_of_get? {value default : Value} (h : r.get? name = some value) : (obj r).part name default = .ok value := by
  change ok ((r.get? name).getD default) = _
  rw [h]
  rfl

lemma isWord_list (items : List Value) : IsWord (list items).cellText := by
  have hquoted : (list items).cellText = "[" ++ quotedItems items ++ "]" := rfl
  have hchars : ("[" ++ quotedItems items ++ "]").toList = '[' :: ((quotedItems items).toList ++ [']']) := by
    rw [toList_append, toList_append]
    rfl
  rw [hquoted, ← ofList_toList (s := "[" ++ quotedItems items ++ "]"), hchars]
  exact isWord_bracket _

lemma isWord_kind {kind : String} (h : kind = "function_analysis" ∨ kind = "taint_analysis") : IsWord kind := by
  rcases h with rfl | rfl <;> exact ⟨by decide, fun low high => rfl, by decide, by decide, by decide⟩

/-- What comes back of a finding: its type, the text of each list, and gaps for the lists that only others have. -/
structure ComesBack (findings : List Record) (r : Record) (v : Value) : Prop where
  kind : v.part "type" = (obj r).part "type"
  lists : ∀ name ∈ listFields, (∃ other ∈ findings, ∃ list, other.get? name = some list) → ∀ default,
    v.part name default = .ok (storedCell (r.get? name))

section Stored

variable {findings : List Record} (hall : ∀ r ∈ findings, IsSourceFinding r) {read : List Value}
  (hstored : stored findings = .ok read)

include hall hstored

lemma exists_stored_table (hne : findings ≠ []) : ∃ rows table, ofRecords rows = .ok table ∧
    read = examples table.reread ∧ (∀ row ∈ rows, IsStored row) ∧
    List.Forall₂ (fun r row => ∃ n, row = r ++ [("label", int n)]) findings rows := by
  simp only [stored, bind_eq_ok_iff] at hstored
  obtain ⟨rows, hrows, table, htable, back, hback, ⟨⟩⟩ := hstored
  have hlabelled : List.Forall₂ (fun r row => IsSourceFinding r ∧ labelled (.obj r) = .ok row) findings rows :=
    (List.forall₂_and_left findings rows).mpr ⟨hall, mapM_eq_ok_iff.mp hrows⟩
  have hrow : ∀ row ∈ rows, IsStored row := by
    intro row hrow
    obtain ⟨r, -, hr, hlabel⟩ := exists_mem_of_forall₂ hlabelled hrow
    obtain ⟨n, rfl⟩ := hr.labelled_eq hlabel
    exact hr.isStored.concat_label n
  have hsome : rows ≠ [] := by
    rintro rfl
    exact hne (List.forall₂_nil_right_iff.mp hlabelled)
  have hreadable := isReadable_ofRecords (fun row hin => (hrow row hin).storable) htable hsome (by decide)
  rw [read_lines hreadable] at hback
  cases ok.inj hback
  exact ⟨rows, table, htable, rfl, hrow, hlabelled.imp fun r row h => h.1.labelled_eq h.2⟩

lemma comesBack {i : Nat} {r : Record} (hi : findings[i]? = some r) : ∃ v, read[i]? = some v ∧ ComesBack findings r v := by
  obtain ⟨rows, table, htable, rfl, hrows, hlabelled⟩ :=
    exists_stored_table hall hstored (List.ne_nil_of_mem (List.mem_of_getElem? hi))
  -- a row has the fields of its finding beside the label
  have hfield : ∀ name, name ≠ "label" → ∀ (r : Record) n, get? (r ++ [("label", .int n)]) name = r.get? name := by
    intro name hname r n
    rw [get?_append, get?_cons, if_neg hname.symm, get?_nil, Option.or_none]
  obtain ⟨row, hrow, n, rfl⟩ := exists_getElem?_of_forall₂ hlabelled hi
  obtain ⟨e, he, hback⟩ := exists_stored_record htable "label" hrow
  refine ⟨.obj e, by rw [examples, List.getElem?_map, he]; rfl, ?_, fun name hname hsome default => part_of_get? ?_⟩
  · have hkind : ∀ row ∈ rows, ∃ kind, (kind = "function_analysis" ∨ kind = "taint_analysis") ∧
        get? row "type" = some (.str kind) := by
      intro row hrow
      rcases (hrows row hrow).kind with hkind | hkind
      · exact ⟨_, .inl rfl, hkind⟩
      · exact ⟨_, .inr rfl, hkind⟩
    obtain ⟨kind, -, hown⟩ := hkind _ (List.mem_of_getElem? hrow)
    have htype : get? e "type" = some (.str kind) := by
      rw [hback "type" (by decide) ⟨_, List.mem_of_getElem? hrow, _, hown⟩, hown]
      · rfl
      · intro row hrow v hv
        obtain ⟨kind, hkind, hget⟩ := hkind row hrow
        cases Option.some.inj (hget.symm.trans hv)
        exact ⟨rfl, isWord_kind hkind⟩
    rw [hfield "type" (by decide)] at hown
    rw [part_of_get? htype, part_of_get? hown]
  · have hother : name ≠ "label" := by
      rintro rfl
      exact absurd hname (by decide)
    obtain ⟨other, hin, list, hlist⟩ := hsome
    obtain ⟨row, hrow, n, rfl⟩ := exists_mem_of_forall₂ hlabelled.flip hin
    rw [hback name hother ⟨_, hrow, list, (hfield name hother other n).trans hlist⟩, hfield name hother]
    intro row hrow v hv
    obtain ⟨items, rfl⟩ := (hrows row hrow).exists_list hname hv
    exact ⟨rfl, isWord_list items⟩

omit hall in
/-- Where there is nothing to store the table cannot be read. -/
lemma ne_nil_of_stored : findings ≠ [] := by
  rintro rfl
  cases hstored

lemma forall₂_comesBack : List.Forall₂ (ComesBack findings) findings read := by
  have hlength : findings.length = read.length := by
    obtain ⟨rows, table, htable, rfl, -, hlabelled⟩ := exists_stored_table hall hstored (ne_nil_of_stored hstored)
    unfold examples
    rw [List.length_map, records_eq, List.length_map, List.length_range, hlabelled.length_eq]
    exact (ofRecords_eq_ok.mp htable).1.symm
  rw [List.forall₂_iff_get]
  refine ⟨hlength, fun i hi hi' => ?_⟩
  obtain ⟨v, hv, hback⟩ := comesBack hall hstored (List.getElem?_eq_getElem hi)
  rw [List.getElem?_eq_getElem hi'] at hv
  cases Option.some.inj hv
  exact hback

end Stored

/-! ## Features of what comes back -/

section Features

variable {findings : List Record} {r : Record} {v : Value} (h : ComesBack findings r v) {name : String}

include h

lemma ComesBack.hasType_eq (type : String) : hasType v type = hasType (.obj r) type := by
  unfold hasType
  rw [h.kind]

/-- The elements of a text are its characters. -/
lemma ComesBack.count_eq (hname : name ∈ listFields) (hr : r ∈ findings) {list : Value}
    (hlist : r.get? name = some list) : count v name = .ok list.cellText.length := by
  have hpart := h.lists name hname ⟨r, hr, list, hlist⟩ (.list [])
  rw [hlist] at hpart
  unfold Features.count
  rw [hpart]
  change ok (List.length (list.cellText.toList.map _)) = _
  rw [List.length_map, length_toList]

/-- A gap has no elements to count. -/
lemma ComesBack.not_counted (hname : name ∈ listFields)
    (hsome : ∃ other ∈ findings, ∃ list, other.get? name = some list) (hnone : r.get? name = none) (n : Nat) :
    count v name ≠ .ok n := by
  have hpart := h.lists name hname hsome (.list [])
  rw [hnone] at hpart
  unfold Features.count
  rw [hpart]
  change error Fault.wrongKind ≠ _
  intro hcount
  cases hcount

/-- The text of an empty list has two characters, so an embedding that is empty comes back with two numbers. -/
lemma ComesBack.embedding_eq (hr : r ∈ findings) (hempty : r.get? "embedding" = some (.list [])) :
    embedding v = .ok [0.0, 0.0] := by
  have hpart := h.lists "embedding" (by decide) ⟨r, hr, _, hempty⟩ .null
  rw [hempty] at hpart
  unfold embedding
  rw [hpart]
  rfl

end Features

/-! ## Training and scoring -/

/-- A finding has an embedding, or only dangerous calls, or a trace; the first two are empty, and the trace has two
sightings. -/
lemma IsSourceFinding.lists_cases (h : IsSourceFinding r) : (r.get? "type" = some (.str "function_analysis") ∧
      ((r.get? "embedding" = some (.list []) ∧ ∃ calls, r.get? "dangerous_calls" = some calls) ∨
        (r.get? "embedding" = none ∧ r.get? "dangerous_calls" = some (.list [])))) ∨
    (r.get? "type" = some (.str "taint_analysis") ∧ r.get? "embedding" = none ∧ r.get? "dangerous_calls" = none ∧
      ∃ source sink, r.get? "trace" = some (.list [source, sink])) := by
  cases h with
  | function h changed => exact .inl ⟨rfl, .inl ⟨rfl, _, rfl⟩⟩
  | script h line length depth checks => exact .inl ⟨rfl, .inr ⟨rfl, rfl⟩⟩
  | taint h changed => exact .inr ⟨rfl, rfl, rfl, _, _, rfl⟩

lemma IsSourceFinding.isFound (h : IsSourceFinding r) : Audit.IsFound (.obj r) := by
  cases h with
  | function h changed => exact @Audit.isFound_withChurn "function_analysis" _ rfl (by decide) rfl changed
  | script h line length depth checks => exact @Audit.isFound_of_fields "function_analysis" _ rfl (by decide) rfl
  | taint h changed => exact @Audit.isFound_withChurn "taint_analysis" _ rfl (by decide) rfl changed

lemma regular_findings (hall : ∀ r ∈ findings, IsSourceFinding r) : ∀ v ∈ findings.map obj, RegularFinding v := by
  intro v hv
  obtain ⟨r, hr, rfl⟩ := List.mem_map.mp hv
  exact (hall r hr).isFound.regular

lemma eq_of_mem_columns {t : Table} (hdistinct : t.names.Nodup) {c c' : Column}
    (h : (name, c) ∈ t.columns) (h' : (name, c') ∈ t.columns) : c = c' :=
  congrArg Prod.snd (List.inj_on_of_nodup_map hdistinct h h' rfl)

lemma exists_traceLength {rest : List Value} {t : Table} (ht : table (v :: rest) = .ok t)
    (htype : hasType v "taint_analysis" = .ok true) {n : Nat} (hcount : count v "trace" = .ok n) :
    ∃ xs, ("taint_path_length", .real ((if (ofInt n).isFinite then ofInt n else 0.0) :: xs)) ∈ t.columns := by
  have hfeature : ("taint_path_length", ok (ofInt n)) ∈ doubles v := by
    have hnumber : onlyFor "taint_analysis" v (do return ofInt (← count v "trace")) = .ok (ofInt n) := by
      unfold onlyFor
      rw [htype, hcount]
      rfl
    rw [← hnumber]
    exact List.mem_of_getElem? (i := 5) rfl
  obtain ⟨x, xs, hx, hcolumn⟩ := exists_double_column ht hfeature
  cases ok.inj hx
  exact ⟨xs, hcolumn⟩

section Differ

variable {findings : List Record} (hall : ∀ r ∈ findings, IsSourceFinding r) {t : Table}
  (htraining : trainingFeatures findings = .ok t) {r : Record}

include hall htraining

omit hall in
lemma ne_nil_of_training : findings ≠ [] := by
  obtain ⟨read, hstored, -⟩ := of_bind htraining
  exact ne_nil_of_stored hstored

lemma exists_read : ∃ read, List.Forall₂ (ComesBack findings) findings read ∧ table read = .ok t := by
  obtain ⟨read, hstored, ht⟩ := of_bind htraining
  exact ⟨read, forall₂_comesBack hall hstored, ht⟩

/-- Findings on functions and on taint cannot be trained on together: the latter have gaps for the dangerous calls. -/
lemma dangerous_of_training (hr : r ∈ findings) {calls : Value}
    (hcalls : r.get? "dangerous_calls" = some calls) : ∀ other ∈ findings, other.get? "dangerous_calls" ≠ none := by
  intro other hother hnone
  obtain ⟨read, hback, ht⟩ := exists_read hall htraining
  obtain ⟨parts, hparts, -⟩ := table_eq_ok_iff.mp ht
  obtain ⟨v, hv, hcomes⟩ := exists_mem_of_forall₂ hback.flip hother
  obtain ⟨part, -, hfixed, -⟩ := exists_mem_of_forall₂ hparts.flip hv
  obtain ⟨length, -, dangerous, hcount, -⟩ := fixed_eq_ok_iff.mp hfixed
  exact hcomes.not_counted (by decide) ⟨r, hr, calls, hcalls⟩ hnone dangerous hcount

variable (hscoring : scoringFeatures findings = .ok t)

include hscoring

/-- An embedding gives training columns that scoring does not have. -/
lemma embedding_of_training (hr : r ∈ findings) : r.get? "embedding" = none := by
  obtain ⟨read, hback, ht⟩ := exists_read hall htraining
  obtain ⟨v, hv, hcomes⟩ := exists_mem_of_forall₂ hback.flip hr
  have hcases : r.get? "embedding" = some (.list []) ∨ r.get? "embedding" = none := by
    rcases (hall r hr).lists_cases with ⟨-, ⟨hempty, -⟩ | ⟨hnone, -⟩⟩ | ⟨-, hnone, -⟩
    · exact .inl hempty
    · exact .inr hnone
    · exact .inr hnone
  refine hcases.resolve_left fun hempty => ?_
  exact embedding_not_mem_names (regular_findings hall) hscoring
    (embedding_mem_names ht hv (hcomes.embedding_eq hr hempty) (List.cons_ne_nil _ _))

/-- Without embeddings the dangerous calls differ: their list is empty, and its text has two characters. -/
lemma dangerous_ne_of_training (hr : r ∈ findings) : r.get? "dangerous_calls" = none := by
  rw [← Option.not_isSome_iff_eq_none, Option.isSome_iff_exists]
  rintro ⟨calls, hcalls⟩
  have hne : findings ≠ [] := List.ne_nil_of_mem hr
  have hempty : ∀ r ∈ findings, r.get? "dangerous_calls" = some (.list []) := by
    intro other hother
    rcases (hall other hother).lists_cases with ⟨-, ⟨hembedding, -⟩ | ⟨-, hempty⟩⟩ | ⟨-, -, hnone, -⟩
    · cases (embedding_of_training hall htraining hscoring hother).symm.trans hembedding
    · exact hempty
    · exact absurd hnone (dangerous_of_training hall htraining hr hcalls other hother)
  obtain ⟨read, hback, ht⟩ := exists_read hall htraining
  have hread : read ≠ [] := by
    rintro rfl
    exact hne (List.forall₂_nil_right_iff.mp hback)
  have hzero : ∀ v ∈ findings.map obj, count v "dangerous_calls" = .ok 0 := by
    intro v hv
    obtain ⟨r, hr, rfl⟩ := List.mem_map.mp hv
    unfold Features.count
    rw [part_of_get? (hempty r hr)]
    rfl
  have htwo : ∀ v ∈ read, count v "dangerous_calls" = .ok 2 := by
    intro v hv
    obtain ⟨r, hr, hcomes⟩ := exists_mem_of_forall₂ hback hv
    exact hcomes.count_eq (by decide) hr (hempty r hr)
  have hscored := mem_columns_of_count hscoring (by simpa using hne) (by decide) (by decide +kernel) hzero
  have htrained := mem_columns_of_count ht hread (by decide) (by decide +kernel) htwo
  have hsame := Column.whole.inj (eq_of_mem_columns (nodup_names_table ht) hscored htrained)
  have hfirst := congrArg List.head? hsame
  rw [List.head?_replicate, List.head?_replicate, if_neg (by simpa using hne), if_neg (by simpa using hread)] at hfirst
  cases hfirst

end Differ

/-- The length of a trace differs: its text has more than two characters. -/
lemma trace_length_lt (source sink : Value) : 2 < (list [source, sink]).cellText.length := by
  have htext : (list [source, sink]).cellText = "[" ++ (source.quoted ++ ", " ++ sink.quoted) ++ "]" := rfl
  rw [htext]
  simp only [length_append]
  change 2 < 1 + (source.quoted.length + 2 + sink.quoted.length) + 1
  omega

lemma features_differ (hall : ∀ r ∈ findings, IsSourceFinding r) {t : Table}
    (hscoring : scoringFeatures findings = .ok t) : trainingFeatures findings ≠ .ok t := by
  intro htraining
  obtain ⟨read, hback, ht⟩ := exists_read hall htraining
  cases hback with
  | nil => exact ne_nil_of_training htraining rfl
  | @cons r v rest read hcomes hrest =>
    -- no embedding and no dangerous calls, so the first finding has a trace
    have hr : r ∈ r :: rest := List.mem_cons_self
    have hnone := dangerous_ne_of_training hall htraining hscoring hr
    obtain ⟨htype, source, sink, htrace⟩ : r.get? "type" = some (.str "taint_analysis") ∧
        ∃ source sink, r.get? "trace" = some (.list [source, sink]) := by
      rcases (hall r hr).lists_cases with ⟨-, ⟨-, calls, hcalls⟩ | ⟨-, hcalls⟩⟩ | ⟨htype, -, -, htrace⟩
      · cases hnone.symm.trans hcalls
      · cases hnone.symm.trans hcalls
      · exact ⟨htype, htrace⟩
    have hkind : hasType (.obj r) "taint_analysis" = .ok true := hasType_of_part (part_of_get? htype) "taint_analysis"
    have hcount : count (.obj r) "trace" = .ok 2 := by
      unfold Features.count
      rw [part_of_get? htrace]
      rfl
    obtain ⟨xs, hscored⟩ := exists_traceLength hscoring hkind hcount
    obtain ⟨ys, htrained⟩ := exists_traceLength ht ((hcomes.hasType_eq _).trans hkind)
      (hcomes.count_eq (by decide) hr htrace)
    have hsame := Column.real.inj (eq_of_mem_columns (nodup_names_table ht) hscored htrained)
    have hfirst := (List.cons.inj hsame).1
    have hfinite : (ofInt (2 : Nat)).isFinite := by decide +kernel
    rw [if_pos hfinite] at hfirst
    split at hfirst
    · exact ofInt_ne_two (trace_length_lt source sink) hfirst.symm
    · have hbits := congrArg Float.toBits hfirst
      revert hbits
      decide +kernel

/-- Scoring has features for findings whose counts have at most fifty-three bits. -/
lemma exists_scoringFeatures (hall : ∀ r ∈ findings, IsSourceFinding r)
    (hcounts : ∀ r ∈ findings, Audit.CountsBelow (2 ^ 53) (.obj r)) : ∃ t, scoringFeatures findings = .ok t := by
  obtain ⟨hdoubles, hcolumns⟩ := Audit.countsFit_of_countsBelow (regular_findings hall) fun v hv => by
    obtain ⟨r, hr, rfl⟩ := List.mem_map.mp hv
    exact hcounts r hr
  refine (exists_table_iff (regular_findings hall)).mpr ⟨fun v hv => ⟨hdoubles v hv, ?_⟩, hcolumns⟩
  -- neither kind of finding is on dependencies
  obtain ⟨r, hr, rfl⟩ := List.mem_map.mp hv
  obtain ⟨kind, hother, hkind⟩ : ∃ kind, kind ≠ "dependencies" ∧ get? r "type" = some (.str kind) := by
    rcases (hall r hr).isStored.kind with hkind | hkind <;> exact ⟨_, by decide, hkind⟩
  intro htype
  rw [hasType_of_part (part_of_get? hkind)] at htype
  exact absurd (beq_iff_eq.mp (ok.inj htype)) hother

/-- The features that a classifier is trained on are never those it scores, whatever findings on functions and taint are
stored: lists come back as texts whose characters are counted, and as gaps where only others have a list. With findings
of both kinds, or none, there is nothing to train on. Scoring has features for all, as long as no count has more than
fifty-three bits. What is read of the findings where they are stored has the features for training. -/
theorem training_never_sees_scoring {findings : List Record} (hall : ∀ r ∈ findings, IsSourceFinding r) :
    (∀ t, scoringFeatures findings = .ok t → trainingFeatures findings ≠ .ok t) ∧
      (findings = [] ∨ ((∃ r ∈ findings, r.get? "type" = some (.str "function_analysis")) ∧
        ∃ r ∈ findings, r.get? "type" = some (.str "taint_analysis")) → ¬ ∃ t, trainingFeatures findings = .ok t) ∧
      (∀ read, stored findings = .ok read → List.Forall₂ (ComesBack findings) findings read) ∧
      ((∀ r ∈ findings, Audit.CountsBelow (2 ^ 53) (.obj r)) → ∃ t, scoringFeatures findings = .ok t) ∧
      ∀ rows path host after, findings.mapM (fun r => labelled (.obj r)) = .ok rows → Archive.kind? path = none →
        on (store rows path) host = (.ok (), after) →
        (do table (examples (← Table.read (← Archive.plainText after.files path)))) = trainingFeatures findings := by
  refine ⟨fun t hscoring => features_differ hall hscoring, ?_, fun read hstored => forall₂_comesBack hall hstored,
    exists_scoringFeatures hall, fun _ _ _ _ => features_of_store⟩
  rintro hcases ⟨t, htraining⟩
  rcases hcases with hnil | ⟨⟨r, hr, hfunction⟩, ⟨other, hother, htaint⟩⟩
  · exact ne_nil_of_training htraining hnil
  · have hkinds : ¬ (some (str "function_analysis") = some (.str "taint_analysis")) := by
      intro heq
      exact absurd (str.inj (Option.some.inj heq)) (by decide)
    obtain ⟨calls, hcalls⟩ : ∃ calls, r.get? "dangerous_calls" = some calls := by
      rcases (hall r hr).lists_cases with ⟨-, ⟨-, hcalls⟩ | ⟨-, hcalls⟩⟩ | ⟨htype, -⟩
      · exact hcalls
      · exact ⟨_, hcalls⟩
      · exact absurd (hfunction.symm.trans htype) hkinds
    refine dangerous_of_training hall htraining hr hcalls other hother ?_
    rcases (hall other hother).lists_cases with ⟨htype, -⟩ | ⟨-, -, hnone, -⟩
    · exact absurd (htype.symm.trans htaint) hkinds
    · exact hnone

def scriptFinding : Record :=
  [("type", .str "function_analysis"), ("name", .str "f"), ("line", .nat 1), ("length", .nat 2),
   ("max_nesting_depth", .nat 1), ("input_validation", .texts []), ("dangerous_calls", .list [])]

/-- It can be scored and trained on, with features that differ. -/
theorem scriptFinding_trained_otherwise :
    (∃ t, scoringFeatures [scriptFinding] = .ok t ∧ trainingFeatures [scriptFinding] ≠ .ok t) ∧
      (trainingFeatures [scriptFinding]).isOk = true := by
  have hall : ∀ r ∈ [scriptFinding], IsSourceFinding r := by
    intro r hr
    cases List.mem_singleton.mp hr
    exact .script (by decide) 1 2 1 []
  have hscores : (scoringFeatures [scriptFinding]).isOk = true := by decide +kernel
  obtain ⟨t, hscoring⟩ := isOk_iff.mp hscores
  exact ⟨⟨t, hscoring, (training_never_sees_scoring hall).1 t hscoring⟩, by decide +kernel⟩

end CodeAudit.Label

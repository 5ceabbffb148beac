import CodeAudit.Model.Features
import CodeAudit.Proofs.Table.Columns

/-!
# Rows of features

Every finding that has features has the same ones, sixteen doubles and more between the length and the number of tainted
findings. So the table has a row for each finding, and can be made exactly when each has its features and the two
columns of whole numbers can be made. Findings of the analyses hold values of the expected kinds (`RegularFinding`);
only a whole number with no double near it and the severity of dependencies can go wrong.
-/

namespace CodeAudit.Features

open Proofs List Value Column Decimal Table Record Except

/-! ## One finding -/

def doubleNames : List String :=
  ["cyclomatic_complexity", "max_nesting_depth", "input_validation", "dependency_count", "taint_path_to_sink",
   "taint_path_length", "interprocedural_taint_path", "interprocedural_call_chain_length",
   "interprocedural_var_trace_length", "commit_count", "unique_authors", "last_modified_days",
   "num_vulnerable_dependencies", "num_outdated_dependencies", "max_dependency_severity", "sensitive_data_involved",
   "num_sensitive_vars"]

lemma names_doubles (v : Value) : (doubles v).map (·.1) = doubleNames := rfl

variable {v : Value} {row : Record} {t : Table} {part : Record × List Float} {width : Nat}

/-- The features of a finding are its length, the number of its dangerous calls and a double for each other name. -/
lemma fixed_eq_ok_iff : fixed v = .ok row ↔
    ∃ length, v.part "length" (.int 0) = .ok length ∧ ∃ dangerous, count v "dangerous_calls" = .ok dangerous ∧
      ∃ numbers, Forall₂ (fun (feature : String × Except Fault Float) (field : String × Value) =>
        ∃ x, feature.2 = .ok x ∧ (feature.1, .float x) = field) (doubles v) numbers ∧
      ("length", length) :: ("dangerous_calls", .nat dangerous) :: numbers = row := by
  unfold fixed
  simp only [bind_eq_ok_iff, mapM_eq_ok_iff, pure_eq_ok, ok.injEq]

lemma names_of_fixed (h : fixed v = .ok row) : row.names = "length" :: "dangerous_calls" :: doubleNames := by
  obtain ⟨length, -, dangerous, -, numbers, hnumbers, rfl⟩ := fixed_eq_ok_iff.mp h
  have hnames : numbers.map (·.1) = (doubles v).map (·.1) := by
    refine map_eq_of_forall₂ hnumbers ?_
    rintro feature field ⟨x, -, rfl⟩
    rfl
  exact congrArg (fun names => "length" :: "dangerous_calls" :: names) hnames

lemma isOk_fixed (v : Value) : (fixed v).isOk =
    ((v.part "length" (.int 0)).isOk && ((count v "dangerous_calls").isOk && (doubles v).all (·.2.isOk))) := by
  refine isOk_bind rfl fun length => isOk_bind rfl fun dangerous => ?_
  rw [isOk_bind_pure]
  exact isOk_mapM (fun feature => isOk_bind_pure _ _) (doubles v)

/-! ## All findings -/

def widest (parts : List (Record × List Float)) : Nat := parts.foldl (fun w p => max w p.2.length) 0

/-- The row of a finding, for the width of the embeddings and the number of tainted findings. -/
def rowOf (width tainted : Nat) (part : Record × List Float) : Record :=
  part.1 ++ embeddingFields width part.2 ++ [("taint_finding_count", .float (ofInt tainted))]

/-- The rows of all findings. -/
def rowsOf (tainted : Nat) (parts : List (Record × List Float)) : List Record :=
  parts.map (rowOf (widest parts) tainted)

/-- Their cells of one name. -/
def cellsOf (tainted : Nat) (parts : List (Record × List Float)) (name : String) : List Value :=
  (rowsOf tainted parts).map fun r => getD r name (.float gap)

/-- What is kept of a table: the columns of numbers, without what is not finite. -/
def numeric (t : Table) : Table :=
  { t with columns := (t.columns.filter (·.2.isNumeric)).map fun c => (c.1, c.2.finite) }

/-- What rows are made of: the fixed features of each finding and its embedding. -/
abbrev AreParts (findings : List Value) (parts : List (Record × List Float)) : Prop :=
  Forall₂ (fun v part => fixed v = .ok part.1 ∧ embedding v = .ok part.2) findings parts

lemma table_eq_ok_iff : table findings = .ok t ↔ ∃ parts, AreParts findings parts ∧
    ∃ tainted, findings.filterM (hasType · "taint_analysis") = .ok tainted ∧
      ∃ all, ofRecords (rowsOf tainted.length parts) = .ok all ∧ numeric all = t := by
  have hpart : ∀ (v : Value) (part : Record × List Float),
      (∃ row, fixed v = .ok row ∧ ∃ numbers, embedding v = .ok numbers ∧ (row, numbers) = part) ↔
        fixed v = .ok part.1 ∧ embedding v = .ok part.2 := by
    rintro v ⟨row, numbers⟩
    simp
  unfold table
  simp only [bind_eq_ok_iff, mapM_eq_ok_iff, pure_eq_ok, ok.injEq, hpart]
  rfl

/-- A width that no embedding exceeds is one that the widest does not exceed. -/
lemma widest_le_iff : widest parts ≤ n ↔ ∀ part ∈ parts, part.2.length ≤ n := by
  have hfold : ∀ w, parts.foldl (fun w p => max w p.2.length) w ≤ n ↔ w ≤ n ∧ ∀ part ∈ parts, part.2.length ≤ n := by
    induction parts with
    | nil => simp
    | cons first rest ih =>
      intro w
      rw [foldl_cons, ih, Nat.max_le, forall_mem_cons, and_assoc]
  unfold widest
  rw [hfold]
  exact and_iff_right n.zero_le

lemma length_le_widest (h : part ∈ parts) : part.2.length ≤ widest parts := widest_le_iff.mp le_rfl part h

def embeddingNames (width : Nat) : List String := (range width).map fun i => s!"embedding_{i}"

def rowNames (width : Nat) : List String :=
  "length" :: "dangerous_calls" :: doubleNames ++ embeddingNames width ++ ["taint_finding_count"]

lemma names_embeddingFields (h : numbers.length ≤ width) :
    (embeddingFields width numbers).names = embeddingNames width := by
  have hlength : (numbers ++ replicate (width - numbers.length) (0.0 : Float)).length = width := by
    rw [length_append, length_replicate]
    omega
  unfold embeddingFields embeddingNames Record.names
  rw [map_map]
  change ((numbers ++ replicate (width - numbers.length) (0.0 : Float)).zipIdx).map
    ((fun i : Nat => s!"embedding_{i}") ∘ Prod.snd) = _
  rw [← map_map, zipIdx_map_snd, hlength, range_eq_range']

lemma names_rowOf {tainted : Nat} (hfixed : fixed v = .ok part.1)
    (hwidth : part.2.length ≤ width) : (rowOf width tainted part).names = rowNames width := by
  unfold rowOf rowNames
  have happend : ∀ r r' : Record, names (r ++ r') = r.names ++ r'.names := fun r r' => map_append
  rw [happend, happend, names_of_fixed hfixed, names_embeddingFields hwidth]
  rfl

/-! ## Cells of a row -/

lemma exists_get?_of_mem_names {r : Record} (h : name ∈ r.names) :
    ∃ value, r.get? name = some value ∧ (name, value) ∈ r := by
  induction r with
  | nil => cases h
  | cons field r ih =>
    rw [get?_cons]
    by_cases hname : field.1 = name
    · refine ⟨field.2, if_pos hname, ?_⟩
      rw [← hname]
      exact mem_cons_self
    · have hrest : name ∈ names r := (mem_cons.mp h).resolve_left fun heq => hname heq.symm
      obtain ⟨value, hvalue, hmem⟩ := ih hrest
      exact ⟨value, (if_neg hname).trans hvalue, mem_cons_of_mem _ hmem⟩

section Cells

variable {v : Value} {width tainted : Nat} {part : Record × List Float} (hfixed : fixed v = .ok part.1)

include hfixed

lemma getD_length_rowOf : v.part "length" (.int 0) = .ok (getD (rowOf width tainted part) "length" (.float gap)) := by
  obtain ⟨length, hlength, dangerous, -, numbers, -, hrow⟩ := fixed_eq_ok_iff.mp hfixed
  unfold rowOf
  rw [hlength, ← hrow]
  rfl

lemma getD_dangerous_rowOf : ∃ dangerous, count v "dangerous_calls" = .ok dangerous ∧
    .nat dangerous = getD (rowOf width tainted part) "dangerous_calls" (.float gap) := by
  obtain ⟨length, -, dangerous, hdangerous, numbers, -, hrow⟩ := fixed_eq_ok_iff.mp hfixed
  refine ⟨dangerous, hdangerous, ?_⟩
  unfold rowOf
  rw [← hrow]
  rfl

lemma exists_getD_rowOf (hwidth : part.2.length ≤ width) (hname : name ∈ rowNames width) (hlength : name ≠ "length")
    (hdangerous : name ≠ "dangerous_calls") : ∃ x, .float x = getD (rowOf width tainted part) name (.float gap) := by
  rw [← @names_rowOf v part width tainted hfixed hwidth] at hname
  obtain ⟨value, hvalue, hmem⟩ := exists_get?_of_mem_names hname
  obtain ⟨length, -, dangerous, -, numbers, hnumbers, hrow⟩ := fixed_eq_ok_iff.mp hfixed
  have hfloat : ∃ x, value = .float x := by
    unfold rowOf at hmem
    rw [← hrow, mem_append, mem_append, mem_cons, mem_cons] at hmem
    rcases hmem with ((hfirst | hsecond | hnumber) | hembedded) | hlast
    · exact absurd (congrArg Prod.fst hfirst) hlength
    · exact absurd (congrArg Prod.fst hsecond) hdangerous
    · obtain ⟨feature, -, x, -, hfield⟩ := exists_mem_of_forall₂ hnumbers hnumber
      exact ⟨x, (congrArg Prod.snd hfield).symm⟩
    · obtain ⟨⟨x, i⟩, -, hfield⟩ := mem_map.mp hembedded
      exact ⟨x, (congrArg Prod.snd hfield).symm⟩
    · exact ⟨_, congrArg Prod.snd (mem_singleton.mp hlast)⟩
  obtain ⟨x, rfl⟩ := hfloat
  exact ⟨x, by rw [Record.getD, hvalue]; rfl⟩

end Cells

/-! ## Columns of the table -/

def lengthColumn (findings : List Value) : Except Fault Column := do
  ofCells (← findings.mapM (·.part "length" (.int 0)))

def dangerousColumn (findings : List Value) : Except Fault Column := do
  ofCells ((← findings.mapM (count · "dangerous_calls")).map .nat)

section Rows

variable {findings : List Value} {parts : List (Record × List Float)} {tainted : Nat} (hparts : AreParts findings parts)

include hparts

lemma forall₂_cellsOf
    (h : ∀ v part, fixed v = .ok part.1 → R v (getD (rowOf (widest parts) tainted part) name (.float gap))) :
    Forall₂ R findings (cellsOf tainted parts name) := by
  unfold cellsOf rowsOf
  rw [map_map, forall₂_map_right_iff]
  exact hparts.imp fun v part hpart => h v part hpart.1

lemma lengthColumn_eq : lengthColumn findings = ofCells (cellsOf tainted parts "length") := by
  have hlengths : findings.mapM (·.part "length" (.int 0)) = .ok (cellsOf tainted parts "length") :=
    mapM_eq_ok_iff.mpr (forall₂_cellsOf hparts fun _ _ => getD_length_rowOf)
  unfold lengthColumn
  rw [hlengths, ok_bind]

lemma forall₂_dangerous : Forall₂ (fun v cell => ∃ n, count v "dangerous_calls" = .ok n ∧ .nat n = cell) findings
    (cellsOf tainted parts "dangerous_calls") :=
  forall₂_cellsOf hparts fun _ _ => getD_dangerous_rowOf

lemma dangerousColumn_eq : dangerousColumn findings = ofCells (cellsOf tainted parts "dangerous_calls") := by
  have hcells := @forall₂_dangerous _ _ tainted hparts
  have hcounts : ∃ counts, findings.mapM (count · "dangerous_calls") = .ok counts ∧
      counts.map nat = cellsOf tainted parts "dangerous_calls" := by
    simp only [mapM_eq_ok_iff]
    generalize cellsOf tainted parts "dangerous_calls" = cells at hcells
    clear hparts
    induction hcells with
    | nil => exact ⟨[], .nil, rfl⟩
    | cons hfirst _ ih =>
      obtain ⟨n, hn, rfl⟩ := hfirst
      obtain ⟨ns, hns, rfl⟩ := ih
      exact ⟨n :: ns, .cons hn hns, rfl⟩
  obtain ⟨counts, hcounts, hsame⟩ := hcounts
  unfold dangerousColumn
  rw [hcounts, ok_bind, hsame]

lemma names_rows (hr : r ∈ rowsOf tainted parts) : r.names = rowNames (widest parts) := by
  obtain ⟨part, hpart, rfl⟩ := mem_map.mp hr
  obtain ⟨v, -, hfixed, -⟩ := exists_mem_of_forall₂ hparts hpart
  exact names_rowOf hfixed (length_le_widest hpart)

variable (hne : findings ≠ [])

include hne

lemma rowsOf_ne_nil : rowsOf tainted parts ≠ [] := by
  intro hnil
  cases map_eq_nil_iff.mp hnil
  exact hne (forall₂_nil_right_iff.mp hparts)

lemma exists_ofCells_rows {name : String} (hname : name ∈ rowNames (widest parts)) (hlength : name ≠ "length")
    (hdangerous : name ≠ "dangerous_calls") :
    ∃ xs : List Float, xs.map .float = cellsOf tainted parts name ∧
      ofCells (cellsOf tainted parts name) = .ok (.real xs) := by
  obtain ⟨xs, hxs⟩ : ∃ xs : List Float, xs.map float = cellsOf tainted parts name := by
    refine (Set.range_list_map float).ge fun cell hcell => ?_
    obtain ⟨r, hr, rfl⟩ := mem_map.mp hcell
    obtain ⟨part, hpart, rfl⟩ := mem_map.mp hr
    obtain ⟨v, -, hfixed, -⟩ := exists_mem_of_forall₂ hparts hpart
    exact exists_getD_rowOf hfixed (length_le_widest hpart) hname hlength hdangerous
  refine ⟨xs, hxs, ?_⟩
  rw [← hxs, ofCells_floats]
  rintro rfl
  exact rowsOf_ne_nil hparts hne (map_eq_nil_iff.mp hxs.symm)

/-- The rows make a table exactly when the two columns of whole numbers can be made. -/
lemma exists_ofRecords_rows_iff (hnodup : (rowNames (widest parts)).Nodup) :
    (∃ all, ofRecords (rowsOf tainted parts) = .ok all) ↔
      (∃ c, lengthColumn findings = .ok c) ∧ ∃ c, dangerousColumn findings = .ok c := by
  rw [exists_ofRecords_iff (rowsOf_ne_nil hparts hne) (fun r hr => names_rows hparts hr) hnodup,
    @lengthColumn_eq _ _ tainted hparts, @dangerousColumn_eq _ _ tainted hparts]
  constructor
  · intro h
    exact ⟨h "length" (by simp [rowNames]), h "dangerous_calls" (by simp [rowNames])⟩
  · rintro ⟨hlength, hcalls⟩ name hname
    by_cases hfirst : name = "length"
    · rw [hfirst]
      exact hlength
    by_cases hsecond : name = "dangerous_calls"
    · rw [hsecond]
      exact hcalls
    obtain ⟨xs, -, hxs⟩ := @exists_ofCells_rows _ _ tainted hparts hne name hname hfirst hsecond
    exact ⟨_, hxs⟩

/-- A column of numbers that the rows have stands in the table of features. -/
lemma mem_columns_numeric {all : Table} (hall : ofRecords (rowsOf tainted parts) = .ok all)
    (hname : name ∈ rowNames (widest parts)) (hc : ofCells (cellsOf tainted parts name) = .ok c)
    (hnumeric : c.isNumeric) : (name, c.finite) ∈ (numeric all).columns := by
  obtain ⟨r, hr⟩ := exists_mem_of_ne_nil _ (@rowsOf_ne_nil _ _ tainted hparts hne)
  have hmem := mem_columns_ofRecords hall hr (names_rows hparts hr ▸ hname) hc
  exact mem_map.mpr ⟨_, mem_filter.mpr ⟨hmem, hnumeric⟩, rfl⟩

end Rows

/-! ## Columns that are kept -/

lemma names_numeric_sublist (all : Table) : (numeric all).names.Sublist all.names := by
  unfold numeric Table.names
  rw [map_map]
  exact filter_sublist.map _

section Kept

variable {findings : List Value} {t : Table} (ht : table findings = .ok t)

include ht

lemma nodup_names_table : t.names.Nodup := by
  obtain ⟨parts, -, tainted, -, all, hall, rfl⟩ := table_eq_ok_iff.mp ht
  exact (nodup_names_ofRecords hall).sublist (names_numeric_sublist all)

lemma embedding_mem_names (hv : v ∈ findings) (hembedding : embedding v = .ok numbers)
    (hsome : numbers ≠ []) : "embedding_0" ∈ t.names := by
  obtain ⟨parts, hparts, tainted, -, all, hall, rfl⟩ := table_eq_ok_iff.mp ht
  obtain ⟨part, hpart, -, hnumbers⟩ := exists_mem_of_forall₂ hparts.flip hv
  cases ok.inj (hembedding.symm.trans hnumbers)
  have hwidth : 0 < widest parts := (length_pos_of_ne_nil hsome).trans_le (length_le_widest hpart)
  have hname : "embedding_0" ∈ rowNames (widest parts) := by
    unfold rowNames embeddingNames
    rw [mem_append, mem_append]
    exact .inl (.inr (mem_map.mpr ⟨0, mem_range.mpr hwidth, by decide⟩))
  obtain ⟨xs, -, hcolumn⟩ := exists_ofCells_rows hparts (ne_nil_of_mem hv) hname (by decide) (by decide)
  exact mem_map.mpr ⟨_, mem_columns_numeric hparts (ne_nil_of_mem hv) hall hname hcolumn rfl, rfl⟩

lemma mem_columns_of_count (hne : findings ≠ []) {k : Nat} (hk : k < 2 ^ 63)
    (hdouble : (Number.whole k).hasDouble) (hcount : ∀ v ∈ findings, count v "dangerous_calls" = .ok k) :
    ("dangerous_calls", .whole (replicate findings.length (k : Int))) ∈ t.columns := by
  obtain ⟨parts, hparts, tainted, -, all, hall, rfl⟩ := table_eq_ok_iff.mp ht
  have hcells : cellsOf tainted.length parts "dangerous_calls" = (replicate findings.length (k : Int)).map .int := by
    have hall := @forall₂_dangerous _ _ tainted.length hparts
    rw [map_replicate, eq_replicate_iff]
    refine ⟨hall.length_eq.symm, fun cell hcell => ?_⟩
    obtain ⟨v, hv, dangerous, hdangerous, rfl⟩ := exists_mem_of_forall₂ hall hcell
    cases ok.inj ((hcount v hv).symm.trans hdangerous)
    rfl
  have hcolumn : ofCells (cellsOf tainted.length parts "dangerous_calls") =
      .ok (.whole (replicate findings.length (k : Int))) := by
    rw [hcells]
    refine ofCells_small ?_ fun n hn => ?_
    · intro hnil
      rw [replicate_eq_nil_iff] at hnil
      exact hne (length_eq_zero_iff.mp hnil)
    · rw [eq_of_mem_replicate hn]
      exact ⟨by omega, hdouble⟩
  exact mem_columns_numeric hparts hne hall (mem_cons_of_mem _ mem_cons_self) hcolumn rfl

end Kept

lemma exists_double_column (ht : table (v :: rest) = .ok t) (hfeature : feature ∈ doubles v) :
    ∃ x xs, feature.2 = .ok x ∧ (feature.1, .real ((if x.isFinite then x else 0.0) :: xs)) ∈ t.columns := by
  obtain ⟨parts, hparts, tainted, -, all, hall, rfl⟩ := table_eq_ok_iff.mp ht
  obtain ⟨part, parts, ⟨hfixed, -⟩, -, rfl⟩ := forall₂_cons_left_iff.mp hparts
  have hin : feature.1 ∈ doubleNames := names_doubles v ▸ mem_map_of_mem hfeature
  have hother : ∀ name ∈ doubleNames, "length" ≠ name ∧ "dangerous_calls" ≠ name := by decide
  obtain ⟨hlength, hdangerous⟩ := hother feature.1 hin
  obtain ⟨length, -, dangerous, -, numbers, hnumbers, hrow⟩ := fixed_eq_ok_iff.mp hfixed
  obtain ⟨field, hfield, x, hx, rfl⟩ := exists_mem_of_forall₂ hnumbers.flip hfeature
  have hnames : names numbers = doubleNames := by
    have hall := names_of_fixed hfixed
    rw [← hrow] at hall
    exact (cons.inj (cons.inj hall).2).2
  have hcell : ∀ width count, getD (rowOf width count part) feature.1 (.float gap) = .float x := by
    intro width count
    have hnumber : get? numbers feature.1 = some (.float x) :=
      get?_of_mem (hnames.symm ▸ by decide) hfield
    unfold Record.getD rowOf
    rw [← hrow, get?_append, get?_append, get?_cons, if_neg hlength, get?_cons, if_neg hdangerous, hnumber]
    rfl
  have hname : feature.1 ∈ rowNames (widest (part :: parts)) := by
    unfold rowNames
    rw [mem_append, mem_append]
    exact .inl (.inl (mem_cons_of_mem _ (mem_cons_of_mem _ hin)))
  obtain ⟨xs, hxs, hcolumn⟩ := exists_ofCells_rows hparts (cons_ne_nil _ _) hname hlength.symm hdangerous.symm
  rw [cellsOf, rowsOf, map_cons, map_cons, hcell, map_eq_cons_iff] at hxs
  obtain ⟨first, more, rfl, hfirst, -⟩ := hxs
  cases float.inj hfirst
  exact ⟨x, more.map fun x : Float => if x.isFinite then x else 0.0, hx,
    mem_columns_numeric hparts (cons_ne_nil _ _) hall hname hcolumn rfl⟩

/-! ## Regular findings -/

def measureNames : List String :=
  ["cyclomatic_complexity", "max_nesting_depth", "commit_count", "unique_authors", "last_modified_days",
   "num_sensitive_vars"]

def dependencyNames : List String := ["num_vulnerable_dependencies", "num_outdated_dependencies"]

def listNames : List String :=
  ["dangerous_calls", "input_validation", "dependencies", "trace", "call_chain", "var_trace"]

/-- A finding that holds what the features expect: a text for its type, whole numbers, lists, a truth value, no
embedding. -/
structure RegularFinding (v : Value) : Prop where
  kind : ∃ kind, v.part "type" = .ok (.str kind)
  whole : ∀ name ∈ "length" :: measureNames ++ dependencyNames, ∃ n, v.part name (.int 0) = .ok (.int n)
  listed : ∀ name ∈ listNames, ∃ items, v.part name (.list []) = .ok (.list items)
  sensitive : ∃ b, v.part "sensitive_data_involved" (.bool false) = .ok (.bool b)
  plain : ∃ given, v.part "embedding" = .ok given ∧ given.truthy = false

/-- The counts of a finding have doubles near them. -/
def HasDoubles (v : Value) : Prop :=
  (∀ name ∈ measureNames, ∀ n, v.part name (.int 0) = .ok (.int n) → (Number.whole n).hasDouble) ∧
    (hasType v "dependencies" = .ok true → ∀ name ∈ dependencyNames, ∀ n,
      v.part name (.int 0) = .ok (.int n) → (Number.whole n).hasDouble)

/-- The severity of a finding on dependencies is a number, or a text that writes one. -/
def HasSeverity (v : Value) : Prop :=
  hasType v "dependencies" = .ok true →
    ∃ severity x, v.part "max_dependency_severity" (.int 0) = .ok severity ∧ severity.readDouble = .ok x

section Regular

variable {v : Value} {name kind : String}

lemma isOk_readDouble_int (n : Int) : (int n).readDouble.isOk = (Number.whole n).hasDouble :=
  isOk_toFloat? (v := .int n) (n := .whole n) rfl

lemma isOk_measure (h : v.part name (.int 0) = .ok (.int n)) : (measure v name).isOk = (Number.whole n).hasDouble := by
  have hsame : (int n).orElse (.int 0) = .int n := by
    unfold orElse
    split
    · rfl
    · next hzero =>
      have hn : n = 0 := by simpa [truthy] using hzero
      rw [hn]
  unfold measure
  rw [h, ok_bind, hsame, isOk_readDouble_int]

lemma isOk_count (h : v.part name (.list []) = .ok (.list items)) : (count v name).isOk := by
  unfold count
  rw [h]
  rfl

lemma hasType_of_part (h : v.part "type" = .ok (.str kind)) (type : String) : hasType v type = .ok (kind == type) := by
  unfold hasType
  rw [h]
  change ok ([type].contains kind) = _
  rw [contains_cons, contains_nil, Bool.or_false]

lemma isOk_onlyFor (h : v.part "type" = .ok (.str kind)) (type : String)
    (number : Except Fault Float) : (onlyFor type v number).isOk = (!(kind == type) || number.isOk) := by
  unfold onlyFor
  rw [hasType_of_part h, ok_bind]
  cases kind == type <;> rfl

lemma RegularFinding.embedding (h : RegularFinding v) : embedding v = .ok [] := by
  obtain ⟨given, hgiven, hfalse⟩ := h.plain
  unfold Features.embedding
  rw [hgiven, ok_bind, hfalse]
  rfl

lemma isOk_given (h : v.part name (.int 0) = .ok (.int n)) :
    (do (← v.part name (.int 0)).readDouble).isOk = (Number.whole n).hasDouble := by
  rw [h, ok_bind, isOk_readDouble_int]

/-- The counts of a regular finding have doubles near them exactly when they can be read as doubles. -/
lemma RegularFinding.hasDoubles_iff (h : RegularFinding v) : HasDoubles v ↔
    (∀ name ∈ measureNames, (measure v name).isOk) ∧ (hasType v "dependencies" = .ok true →
      ∀ name ∈ dependencyNames, (do (← v.part name (.int 0)).readDouble).isOk) := by
  refine and_congr (forall₂_congr fun name hname => ?_)
    (imp_congr_right fun _ => forall₂_congr fun name hname => ?_)
  · obtain ⟨n, hn⟩ := h.whole name (mem_append_left _ (mem_cons_of_mem _ hname))
    rw [isOk_measure hn, hn]
    simp
  · obtain ⟨n, hn⟩ := h.whole name (mem_append_right _ hname)
    rw [isOk_given hn, hn]
    simp

lemma hasSeverity_iff : HasSeverity v ↔ (hasType v "dependencies" = .ok true →
    (do (← v.part "max_dependency_severity" (.int 0)).readDouble).isOk) := by
  simp only [isOk_iff, bind_eq_ok_iff]
  refine imp_congr_right fun _ => ⟨?_, ?_⟩
  · rintro ⟨severity, x, h⟩
    exact ⟨x, severity, h⟩
  · rintro ⟨x, severity, h⟩
    exact ⟨severity, x, h⟩

/-- A regular finding has its features exactly when its counts have doubles near them and its severity is a number. -/
lemma RegularFinding.isOk_fixed_iff (h : RegularFinding v) : (fixed v).isOk ↔ HasDoubles v ∧ HasSeverity v := by
  obtain ⟨kind, hkind⟩ := h.kind
  obtain ⟨b, hb⟩ := h.sensitive
  obtain ⟨length, hlength⟩ := h.whole "length" (by decide)
  have hlisted : ∀ name ∈ listNames, (count v name).isOk := by
    intro name hname
    obtain ⟨items, hitems⟩ := h.listed name hname
    exact isOk_count hitems
  have hsensitive : (do
      toFloat? (.int (← (← v.part "sensitive_data_involved" (.bool false)).readWhole))).isOk := by
    rw [hb, ok_bind]
    cases b <;> decide +kernel
  have hone : (ok 1.0 : Except Fault Float).isOk := rfl
  have hdoubles : (doubles v).all (·.2.isOk) ↔ HasDoubles v ∧ HasSeverity v := by
    rw [h.hasDoubles_iff, hasSeverity_iff, hasType_of_part hkind]
    unfold doubles measureNames dependencyNames
    simp only [all_cons, all_nil, forall_mem_cons, isOk_bind_pure, isOk_onlyFor hkind, hsensitive, hone,
      hlisted "input_validation" (by decide), hlisted "dependencies" (by decide), hlisted "trace" (by decide),
      hlisted "call_chain" (by decide), hlisted "var_trace" (by decide), ok.injEq, beq_iff_eq, Bool.or_true,
      Bool.true_and, Bool.and_true, Bool.and_eq_true, Bool.or_eq_true, Bool.not_eq_true', beq_eq_false_iff_ne, ne_eq,
      ← imp_iff_not_or]
    constructor
    · rintro ⟨h1, h2, h3, h4, h5, h6, h7, h8, h9⟩
      exact ⟨⟨⟨h1, h2, h3, h4, h5, h9, by simp⟩, fun hd => ⟨h6 hd, h7 hd, by simp⟩⟩, h8⟩
    · rintro ⟨⟨⟨h1, h2, h3, h4, h5, h9, -⟩, hcounts⟩, h8⟩
      exact ⟨h1, h2, h3, h4, h5, fun hd => (hcounts hd).1, fun hd => (hcounts hd).2.1, h8, h9⟩
  rw [isOk_fixed, hlength, hlisted "dangerous_calls" (by decide)]
  change (true && (true && _)) ↔ _
  rw [Bool.true_and, Bool.true_and, hdoubles]

/-! ## The table of regular findings -/

section Table

variable {findings : List Value} (hregular : ∀ v ∈ findings, RegularFinding v)
  {parts : List (Record × List Float)} {t : Table}

include hregular

lemma widest_eq_zero (hparts : AreParts findings parts) : widest parts = 0 := by
  refine Nat.le_zero.mp (widest_le_iff.mpr fun part hpart => ?_)
  obtain ⟨v, hv, -, hembedding⟩ := exists_mem_of_forall₂ hparts hpart
  rw [(hregular v hv).embedding] at hembedding
  rw [← ok.inj hembedding, length_nil]

lemma nodup_rowNames (hparts : AreParts findings parts) : (rowNames (widest parts)).Nodup := by
  rw [widest_eq_zero hregular hparts]
  decide

lemma embedding_not_mem_names (ht : table findings = .ok t) : "embedding_0" ∉ t.names := by
  obtain ⟨parts, hparts, tainted, -, all, hall, rfl⟩ := table_eq_ok_iff.mp ht
  intro hname
  have hin := (names_numeric_sublist all).subset hname
  rw [names_ofRecords hall, mem_eraseDups] at hin
  obtain ⟨r, hr, hin⟩ := mem_flatMap.mp hin
  rw [names_rows hparts hr, widest_eq_zero hregular hparts] at hin
  exact absurd hin (by decide)

/-- The table can be made exactly when each finding has its features and the two columns of whole numbers can be made.
-/
lemma exists_table_iff : (∃ t, table findings = .ok t) ↔
    (∀ v ∈ findings, HasDoubles v ∧ HasSeverity v) ∧ (∃ c, lengthColumn findings = .ok c) ∧
      ∃ c, dangerousColumn findings = .ok c := by
  by_cases hne : findings = []
  · subst hne
    exact iff_of_true ⟨_, rfl⟩ ⟨by simp, ⟨_, rfl⟩, _, rfl⟩
  constructor
  · rintro ⟨t, ht⟩
    obtain ⟨parts, hparts, tainted, -, all, hall, -⟩ := table_eq_ok_iff.mp ht
    refine ⟨fun v hv => ?_, (exists_ofRecords_rows_iff hparts hne (nodup_rowNames hregular hparts)).mp ⟨all, hall⟩⟩
    obtain ⟨part, -, hfixed, -⟩ := exists_mem_of_forall₂ hparts.flip hv
    exact (hregular v hv).isOk_fixed_iff.mp (isOk_iff.mpr ⟨part.1, hfixed⟩)
  · rintro ⟨hfeatures, hcolumns⟩
    have hpart : ∀ v ∈ findings, ∃ part : Record × List Float, fixed v = .ok part.1 ∧ embedding v = .ok part.2 := by
      intro v hv
      obtain ⟨row, hrow⟩ := isOk_iff.mp ((hregular v hv).isOk_fixed_iff.mpr (hfeatures v hv))
      exact ⟨(row, []), hrow, (hregular v hv).embedding⟩
    have htype : ∀ v ∈ findings, ∃ b, hasType v "taint_analysis" = .ok b := by
      intro v hv
      obtain ⟨kind, hkind⟩ := (hregular v hv).kind
      exact ⟨_, hasType_of_part hkind "taint_analysis"⟩
    obtain ⟨parts, hparts⟩ := exists_forall₂ hpart
    obtain ⟨all, hall⟩ := (exists_ofRecords_rows_iff hparts hne (nodup_rowNames hregular hparts)).mpr hcolumns
    exact ⟨_, table_eq_ok_iff.mpr ⟨parts, hparts, _, filterM_eq_ok htype, all, hall, rfl⟩⟩

lemma exists_lengthColumn_eq : ∃ ns : List Int, lengthColumn findings = ofCells (ns.map .int) ∧
    Forall₂ (fun v n => v.part "length" (.int 0) = .ok (.int n)) findings ns := by
  obtain ⟨ns, hns⟩ := exists_forall₂ fun v hv => (hregular v hv).whole "length" (by decide)
  refine ⟨ns, ?_, hns⟩
  unfold lengthColumn
  rw [mapM_eq_ok_iff.mpr (forall₂_map_right_iff.mpr hns), ok_bind]

lemma exists_dangerousColumn_eq : ∃ ns : List Nat, dangerousColumn findings = ofCells ((ns.map Int.ofNat).map .int) ∧
    Forall₂ (fun v n => count v "dangerous_calls" = .ok n) findings ns := by
  have hcount : ∀ v ∈ findings, ∃ n, count v "dangerous_calls" = .ok n := by
    intro v hv
    obtain ⟨items, hitems⟩ := (hregular v hv).listed "dangerous_calls" (by decide)
    exact isOk_iff.mp (isOk_count hitems)
  obtain ⟨ns, hns⟩ := exists_mapM_eq_ok hcount
  refine ⟨ns, ?_, mapM_eq_ok_iff.mp hns⟩
  unfold dangerousColumn
  rw [hns, ok_bind, map_map]
  rfl

/-- The table has a row for each finding: its height is their number, and so is that of every column. -/
lemma table_isRectangular (ht : table findings = .ok t) :
    t.height = findings.length ∧ ∀ column ∈ t.columns, column.2.cells.length = findings.length := by
  by_cases hne : findings = []
  · subst hne
    cases ok.inj ht
    exact ⟨rfl, by simp⟩
  obtain ⟨parts, hparts, tainted, -, all, hall, rfl⟩ := table_eq_ok_iff.mp ht
  have hlength : (rowsOf tainted.length parts).length = findings.length := by
    rw [rowsOf, length_map, hparts.length_eq]
  obtain ⟨hheight, hcolumns⟩ :=
    (ofRecords_eq_ok_iff (rowsOf_ne_nil hparts hne) (fun r hr => names_rows hparts hr)
      (nodup_rowNames hregular hparts)).mp hall
  refine ⟨?_, fun column hcolumn => ?_⟩
  · exact hheight.trans hlength
  -- a column that is kept is one of the whole table, with as many cells
  obtain ⟨kept, hkept, rfl⟩ := mem_map.mp hcolumn
  have hmem : kept ∈ all.columns := (mem_filter.mp hkept).1
  obtain ⟨name, hname, hnamed, hcells⟩ := exists_mem_of_forall₂ hcolumns hmem
  rw [length_cells_finite, length_ofCells hcells, length_map, hlength]

end Table

end Regular

end CodeAudit.Features

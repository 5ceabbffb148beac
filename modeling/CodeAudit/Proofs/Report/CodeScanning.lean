import CodeAudit.Proofs.Baseline.Reloaded
import CodeAudit.Report.Sarif

/-!
# References and regions in the SARIF report

A result refers to its rule by its place in a list that depends on all findings; it refers to a rule that is there and
has its id (`references_of_write`). A location shows the lines around a finding. The first is counted from the first
line of the file on, but the last is two lines below also where the file ends before (`region_within_iff`).
-/

namespace CodeAudit.SarifReport

open CodeAudit.Proofs Json Value List Record

/-! ## Places of rules -/

lemma get?_placesOf (listed : List ReportRule) (id : String) :
    get? (placesOf listed) id = (listed.findIdx? (·.id == id)).map .nat := by
  have hfrom : ∀ start, get? ((listed.zip (range' start listed.length)).map fun placed =>
      (placed.1.id, .nat placed.2)) id = (listed.findIdx? (·.id == id)).map fun place => .nat (start + place) := by
    induction listed with
    | nil => exact fun start => rfl
    | cons r listed ih =>
      intro start
      rw [length_cons, range'_succ, zip_cons_cons, map_cons, get?_cons, findIdx?_cons, ih (start + 1)]
      by_cases hid : r.id = id
      · simp [hid]
      · rw [if_neg hid, if_neg (by simpa using hid), Option.map_map]
        congr 1
        funext place
        exact congrArg nat (Nat.succ_add_eq_add_succ start place)
  unfold placesOf
  rw [range_eq_range', hfrom 0]
  simp only [Nat.zero_add]

variable {id : String} {f scanPath : Value} {files : FileTree} {lines : List (List Char)} {number : Nat}

/-- A rule that is listed is given its place there. -/
lemma placeOf_placesOf (h : id ∈ listed.map (·.id)) :
    ∃ place rule, placeOf (.obj (placesOf listed)) id = .ok (.nat place) ∧ listed[place]? = some rule ∧ rule.id = id := by
  obtain ⟨r, hr, hid⟩ := mem_map.mp h
  obtain ⟨place, hplace⟩ : ∃ place, listed.findIdx? (·.id == id) = some place := by
    rw [← Option.isSome_iff_exists, findIdx?_isSome, any_eq_true]
    exact ⟨r, hr, beq_iff_eq.mpr hid⟩
  have hget : get? (placesOf listed) id = some (.nat place) := by rw [get?_placesOf, hplace, Option.map_some]
  have hmem := mem_of_get? hget
  have htruthy : (obj (placesOf listed)).truthy := by
    cases hplaces : placesOf listed with
    | nil =>
      rw [hplaces] at hmem
      cases hmem
    | cons => rfl
  have hmember : (str id).member (.obj (placesOf listed)) = .ok true := by
    have hone : (str id).isOneOf ((placesOf listed).map fun f => .str f.1) :=
      any_eq_true.mpr ⟨.str id, mem_map_of_mem (f := fun f => str f.1) hmem, by simp [same]⟩
    simp only [member, hashable, if_true, hone]
  have hneed : (obj (placesOf listed)).need id = .ok (.nat place) := by
    simp only [need, namedFields, hget]
  obtain ⟨hlt, hrule, -⟩ := findIdx?_eq_some_iff_getElem.mp hplace
  refine ⟨place, listed[place], ?_, getElem?_eq_getElem hlt, beq_iff_eq.mp hrule⟩
  unfold placeOf
  rw [if_pos htruthy, hmember, ok_bind, if_pos rfl, hneed]

/-- Every finding has a rule of the table. -/
lemma ruleId_mem_rules (h : (do ruleOf (← f.fields)) = .ok id) : id ∈ rules.map (·.id) := by
  have htype : ∀ kind, ruleOfType kind ∈ rules.map (·.id) := by
    intro kind
    unfold ruleOfType
    split <;> decide
  obtain ⟨fields, -, h⟩ := of_bind h
  unfold ruleOf at h
  split at h
  · cases h
    exact htype _
  · split at h
    · cases h
      exact htype ""
    · cases h

lemma mem_usedRules : r ∈ usedRules ids ↔ r ∈ rules ∧ r.id ∈ ids := by
  unfold usedRules
  rw [mem_filter, contains_iff_mem]

/-! ## Results -/

lemma need_toRecord (r : Result) :
    (carried (.obj r.toRecord)).need "ruleId" = .ok (carried (.str r.ruleId)) ∧
      (carried (.obj r.toRecord)).need "ruleIndex" = .ok (carried r.ruleIndex) := by
  constructor <;> refine need_carried (arePlain_of_all (by decide)) ?_ <;> unfold Result.toRecord <;> split <;> rfl

lemma carried_id (h : id ∈ rules.map (·.id)) : carried (.str id) = .str id := by
  have hplain : ∀ id ∈ rules.map (·.id), Text.isEncodable id := by decide
  exact carried_of_isEncodable (hplain id h)

/-- The rules and the results that a reader finds in a report. -/
def Lists (text : String) (rules results : List Value) : Prop :=
  ∃ report run, read text = .ok report ∧ report.need "runs" = .ok (.list [run]) ∧
    (do (← (← run.need "tool").need "driver").need "rules") = .ok (.list rules) ∧
    run.need "results" = .ok (.list results)

lemma lists_of_document {text : String}
    (hd : document files scanPath findings = .ok d) (hread : read text = .ok (carried d)) :
    ∃ used results, run files scanPath findings = .ok (used, results) ∧
      Lists text (used.map fun r => carried r.toValue) (results.map fun r => carried (.obj r.toRecord)) := by
  obtain ⟨⟨used, results⟩, hrun, hd⟩ := of_bind hd
  cases hd
  have hruns : ∀ schema version run, (carried (.obj [("$schema", schema), ("version", version),
      ("runs", .list [run])])).need "runs" = .ok (.list [carried run]) := by
    intro schema version run
    rw [need_carried (arePlain_of_all (by decide)) rfl, carried, carriedAll, carriedAll]
  refine ⟨used, results, hrun, _, _, hread, hruns _ _ _, ?_, ?_⟩
  · rw [need_carried (arePlain_of_all (by decide)) rfl, ok_bind, need_carried (arePlain_of_all (by decide)) rfl, ok_bind,
      need_carried (arePlain_of_all (by decide)) rfl, carried, carriedAll_eq_map, map_map]
    rfl
  · rw [need_carried (arePlain_of_all (by decide)) rfl, carried, carriedAll_eq_map, map_map]
    rfl

lemma ruleId_of_result (h : result files scanPath places f = .ok r) :
    (do ruleOf (← f.fields)) = .ok r.ruleId ∧ placeOf places r.ruleId = .ok r.ruleIndex := by
  obtain ⟨fields, hfields, h⟩ := of_bind h
  obtain ⟨id, hid, h⟩ := of_bind h
  obtain ⟨index, hindex, h⟩ := of_bind h
  obtain ⟨level, -, h⟩ := of_bind h
  obtain ⟨text, -, h⟩ := of_bind h
  obtain ⟨place, -, h⟩ := of_bind h
  cases h
  exact ⟨bind_eq_ok_iff.mpr ⟨fields, hfields, hid⟩, hindex⟩

/-- **Every result refers to a rule of the report, and every rule is referred to.** A reader of a report finds one
result for each finding, in order; its place of a rule is within the list, and the rule there has the id that the result
gives. The rules are some of the table, in its order and with different ids, and each belongs to some result. -/
theorem references_of_write {files : FileTree} {scanPath : Value} {findings : List Value} {text : String}
    (h : write files scanPath findings = .ok text) :
    ∃ listed shown used, Lists text listed shown ∧
      Forall₂ (fun f v => ∃ r place rule, result files scanPath (.obj (placesOf used)) f = .ok r ∧
        v = carried (.obj r.toRecord) ∧ v.need "ruleId" = .ok (.str r.ruleId) ∧ v.need "ruleIndex" = .ok (.nat place) ∧
        listed[place]? = some rule ∧ rule.need "id" = .ok (.str r.ruleId)) findings shown ∧
      used.Sublist rules ∧ (used.map (·.id)).Nodup ∧ listed.mapM (·.need "id") = .ok (used.map (.str ·.id)) ∧
      ∀ rule ∈ listed, ∃ v ∈ shown, v.need "ruleId" = rule.need "id" := by
  obtain ⟨d, hd, hwritten⟩ := bind_eq_ok_iff.mp h
  obtain ⟨used, results, hrun, hlists⟩ := lists_of_document hd (read_of_writeWithin Layout.isSound_pretty hwritten)
  obtain ⟨ids, hids, hrun⟩ := bind_eq_ok_iff.mp hrun
  obtain ⟨results, hresults, hrun⟩ := bind_eq_ok_iff.mp hrun
  cases hrun
  have hid : ∀ r ∈ usedRules ids, (carried r.toValue).need "id" = .ok (.str r.id) := by
    intro r hr
    unfold ReportRule.toValue
    rw [need_carried (arePlain_of_all (by decide)) rfl, carried_id (mem_map_of_mem (mem_usedRules.mp hr).1)]
  refine ⟨_, _, usedRules ids, hlists, ?_, filter_sublist, ?_, ?_, ?_⟩
  · -- The rule of a finding is used, since it is the rule of this finding, and so it is listed.
    rw [forall₂_map_right_iff]
    refine ((forall₂_and_left _ _).mpr ⟨fun f hf => hf, mapM_eq_ok_iff.mp hresults⟩).imp fun f r ⟨hf, hr⟩ => ?_
    obtain ⟨hof, hindex⟩ := ruleId_of_result hr
    obtain ⟨id, hused, hof'⟩ := exists_result_of_mapM hids hf
    cases hof.symm.trans hof'
    have hrules := ruleId_mem_rules hof
    obtain ⟨rule, hrule, hruleId⟩ := mem_map.mp hrules
    obtain ⟨place, listed, hplace, hlisted, heq⟩ := placeOf_placesOf (mem_map_of_mem (f := (·.id))
      (mem_usedRules.mpr ⟨hrule, hruleId ▸ hused⟩))
    rw [hruleId] at hplace heq
    obtain ⟨hshown, hshownIndex⟩ := need_toRecord r
    rw [carried_id hrules] at hshown
    rw [Except.ok.inj (hindex.symm.trans hplace)] at hshownIndex
    refine ⟨r, place, carried listed.toValue, hr, rfl, hshown, hshownIndex, ?_, ?_⟩
    · rw [getElem?_map, hlisted, Option.map_some]
    · rw [hid listed (mem_of_getElem? hlisted), heq]
  · have hnodup : (rules.map (·.id)).Nodup := by decide
    exact hnodup.sublist (filter_sublist.map _)
  · rw [mapM_eq_ok_iff, forall₂_map_left_iff, forall₂_map_right_iff, forall₂_same]
    exact hid
  · intro v hv
    obtain ⟨rule, hrule, rfl⟩ := mem_map.mp hv
    obtain ⟨f, hf, hof⟩ := exists_mem_of_mapM hids (mem_usedRules.mp hrule).2
    obtain ⟨r, hr, hresult⟩ := exists_result_of_mapM hresults hf
    have hsame := (ruleId_of_result hresult).1
    refine ⟨_, mem_map_of_mem hr, ?_⟩
    rw [(need_toRecord r).1, carried_id (ruleId_mem_rules hsame), hid rule hrule, Except.ok.inj (hof.symm.trans hsame)]

/-- The rule of a script is the sixth of the table and the second of the report. -/
theorem references_of_twoFindings : ∃ text listed shown,
    write .empty (.str "") [.obj [("type", .str "js_vulnerability")], .obj []] = .ok text ∧ Lists text listed shown ∧
      shown.length = 2 ∧ ∀ rule ∈ listed, ∃ v ∈ shown, v.need "ruleId" = rule.need "id" := by
  have hwritten : (write .empty (.str "") [.obj [("type", .str "js_vulnerability")], .obj []]).isOk = true := by
    decide +kernel
  obtain ⟨text, htext⟩ := isOk_iff.mp hwritten
  obtain ⟨listed, shown, used, hlists, hpairs, -, -, -, hall⟩ := references_of_write htext
  exact ⟨text, listed, shown, htext, hlists, hpairs.length_eq.symm, hall⟩

/-! ## Regions -/

def linesOf? (files : FileTree) (file : String) : Option (List (List Char)) :=
  if files.isFile file then (files.text .mark file).toOption.map fun text => Chars.keptLines text.toList else none

def joinedPath (scanPath path : String) : String := if scanPath.isEmpty then path else Path.join scanPath path

def linesBetween (first last : Int) (lines : List (List Char)) : String :=
  String.ofList ((lines.drop (first - 1).toNat).take (last + 1 - first).toNat).flatten

/-- A region is within a file, around a line of it, and its text is that of its lines. -/
def IsWithin (region : Value) (number : Nat) (lines : List (List Char)) : Prop :=
  ∃ first last, region.need "startLine" = .ok (.int first) ∧ region.need "endLine" = .ok (.int last) ∧
    1 ≤ first ∧ first ≤ number ∧ number ≤ last ∧ last ≤ lines.length ∧
    (do (← region.need "snippet").need "text") = .ok (.str (linesBetween first last lines))

lemma snippetOfFile?_eq (files : FileTree) (file : String) (number : Nat) :
    snippetOfFile? files file number = (linesOf? files file).bind (snippetAt? · number) := by
  unfold snippetOfFile? linesOf?
  split
  · cases files.text .mark file <;> rfl
  · rfl

lemma snippetAt?_eq (hfirst : 1 ≤ number) (hlast : number ≤ lines.length) :
    ∃ line, snippetAt? lines number =
      some ⟨line, linesBetween (max 1 (number - 2)) (min (number + 2) lines.length) lines⟩ := by
  have hcontext : linesBetween (max 1 (number - 2)) (min (number + 2) lines.length) lines =
      String.ofList ((lines.drop (number - 3)).take (number + 2 - (number - 3))).flatten := by
    have hdrop : (max 1 ((number : Int) - 2) - 1).toNat = number - 3 := by omega
    unfold linesBetween
    rw [hdrop]
    congr 2
    rw [take_eq_take_iff, length_drop]
    omega
  unfold snippetAt?
  rw [if_neg (by omega), getElem?_eq_getElem (by omega), hcontext]
  exact ⟨_, rfl⟩

lemma snippetAt?_of_short (h : lines.length < number) : snippetAt? lines number = none := by
  unfold snippetAt?
  rw [if_neg (by omega), getElem?_eq_none (by omega)]

/-- **A location shows the lines around its line, but its end may be below the file.** For every readable file and
every finding on a line of it, the region starts two lines before it, or at the first line, with the text up to two
lines after it, or the last line. This text is that of the region, and the region is within the file, exactly when two
more lines follow. -/
theorem region_within_iff {files : FileTree} {finding : Record} {scanned : Value} {scanPath path file : String}
    {lines : List (List Char)} {number : Nat} (hscanned : scanPathOf scanned = .ok scanPath)
    (hpath : pathOf finding scanPath files.home = .ok path)
    (hnumber : Report.firstOf finding ["line", "sink_line"] (.int 1) = .nat number)
    (hfile : file = joinedPath scanPath path ∨
      file = path ∧ ∀ others, linesOf? files (joinedPath scanPath path) = some others → others.length < number)
    (hlines : linesOf? files file = some lines) (hfirst : 1 ≤ number) (hlast : number ≤ lines.length) :
    ∃ place region, location files finding scanned = .ok place ∧
      (do (← place.need "physicalLocation").need "contextRegion") = .ok region ∧
      region = .obj [("startLine", .int (max 1 (number - 2))), ("endLine", .int (number + 2)), ("snippet", .obj [("text",
        .str (linesBetween (max 1 (number - 2)) (min (number + 2) lines.length) lines))])] ∧
      (IsWithin region number lines ↔ number + 2 ≤ lines.length) := by
  obtain ⟨line, hsnippet⟩ := snippetAt?_eq hfirst hlast
  have hfound : snippet? files scanPath path number =
      some ⟨line, linesBetween (max 1 (number - 2)) (min (number + 2) lines.length) lines⟩ := by
    unfold snippet?
    change Option.orElse (snippetOfFile? files (joinedPath scanPath path) number) _ = _
    rw [snippetOfFile?_eq, snippetOfFile?_eq, ← hsnippet]
    rcases hfile with rfl | ⟨rfl, hother⟩
    · rw [hlines, Option.bind_some, hsnippet]
      rfl
    · rw [hlines]
      cases hbelow : linesOf? files (joinedPath scanPath file) with
      | none => rfl
      | some others => rw [Option.bind_some, snippetAt?_of_short (hother others hbelow)]; rfl
  have hline : lineOf finding = .nat number := by
    unfold lineOf
    rw [hnumber]
    exact if_neg (by omega)
  obtain ⟨artifact, shown, hlocation⟩ : ∃ artifact shown, location files finding scanned = .ok (.obj [("physicalLocation",
      .obj [("artifactLocation", artifact), ("region", shown), ("contextRegion", contextRegion number
        ⟨line, linesBetween (max 1 (number - 2)) (min (number + 2) lines.length) lines⟩)])]) := by
    unfold location
    rw [hscanned, ok_bind, hpath, ok_bind, hline]
    dsimp only [nat]
    rw [Int.toNat_natCast, hfound]
    exact ⟨_, _, rfl⟩
  refine ⟨_, _, hlocation, rfl, rfl, ?_⟩
  constructor
  · rintro ⟨first, last, -, hend, -, -, -, hwithin, -⟩
    cases hend
    omega
  · intro hmore
    refine ⟨_, _, rfl, rfl, by omega, by omega, by omega, by omega, ?_⟩
    rw [min_eq_left (by omega)]
    rfl

/-- The region of a finding in a file of one line ends with a line that the file does not have. -/
theorem oneLine_region_beyond : ∃ place region,
    location (FileTree.empty.put ["a.py"] (.file (.text "eval(x)"))) [("file", .str "a.py"), ("line", .int 1)] (.str "") =
        .ok place ∧ (do (← place.need "physicalLocation").need "contextRegion") = .ok region ∧
      region.need "endLine" = .ok (.int 3) ∧ ¬ IsWithin region 1 ["eval(x)".toList] := by
  have hlines : linesOf? (FileTree.empty.put ["a.py"] (.file (.text "eval(x)"))) "a.py" = some ["eval(x)".toList] := by
    decide +kernel
  obtain ⟨place, region, hplace, hregion, rfl, hwithin⟩ := @region_within_iff _ [("file", .str "a.py"), ("line", .int 1)]
    (.str "") "" "a.py" "a.py" _ 1 rfl rfl rfl (.inl rfl) hlines (by decide) (by decide)
  exact ⟨place, _, hplace, hregion, rfl, fun h => absurd (hwithin.mp h) (by decide)⟩

end CodeAudit.SarifReport

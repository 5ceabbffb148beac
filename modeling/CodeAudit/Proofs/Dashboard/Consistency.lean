import CodeAudit.Findings.Classification
import CodeAudit.Proofs.Dashboard.WholeReports
import CodeAudit.Proofs.Json.Scalars
import CodeAudit.Proofs.Text.SortedSet

/-!
# A store agrees with itself

A scan is stored with its counts, the findings apart, and a severity may change its kind on the way. Still the numbers
stay those of the stored findings, the statistics add up, and what is done to one scan shows on no other.

The rows of one report agree (`agrees_of_rowsOf`): no number is written like one of the four counted words. Agreement
with distinct identifiers is kept by making and removing a scan, so it holds after any history (`sound_after`).
-/

namespace CodeAudit

open Proofs List Cell Decimal Text Json Nat SeverityCounts

variable {scan : StoredScan} {s : String} {cs : List Char}

/-! ## What is counted -/

/-- The word under which findings of a severity are counted. -/
def Severity.countedWord : Severity → String
  | .low => "low"
  | .medium => "medium"
  | .high => "high"
  | .critical => "critical"

def SeverityCounts.of (c : SeverityCounts) : Severity → Nat
  | .low => c.low
  | .medium => c.medium
  | .high => c.high
  | .critical => c.critical

/-- Whether the severity of a stored finding is exactly a word. -/
def StoredFinding.hasSeverity (f : StoredFinding) (word : String) : Bool := f.severity.holds (.text word)

variable (c : SeverityCounts)

lemma SeverityCounts.of_add (v : Value) (severity : Severity) :
    (c.add v).of severity = c.of severity + if v.isWordOf [severity.countedWord] then 1 else 0 := by
  unfold add
  split
  iterate 4 · cases severity <;> rfl
  · next hcritical hhigh hmedium hlow =>
    have hother : v.isWordOf [severity.countedWord] = false := by
      cases v with
      | str word => cases severity <;> simp_all [Value.isWordOf, Severity.countedWord]
      | _ => rfl
    rw [hother]
    rfl

variable (severities : List Value)

lemma SeverityCounts.of_foldl (severity : Severity) : (severities.foldl add c).of severity =
      c.of severity + severities.countP (·.isWordOf [severity.countedWord]) := by
  induction severities generalizing c with
  | nil => rfl
  | cons v severities ih =>
    rw [foldl_cons, ih, of_add, countP_cons]
    omega

/-! ## Numbers are written unlike the counted words -/

/-- Whether a character can stand in a stored number. -/
def isOfNumber (c : Char) : Bool := isAsciiDigit c || ['.', 'e', '+', '-', 'I', 'n', 'f'].contains c

lemma Severity.exists_not_isOfNumber (severity : Severity) :
    ∃ c ∈ severity.countedWord.toList, isOfNumber c = false := by
  cases severity with
  | low => exact ⟨'l', by decide, by decide⟩
  | medium => exact ⟨'m', by decide, by decide⟩
  | high => exact ⟨'h', by decide, by decide⟩
  | critical => exact ⟨'c', by decide, by decide⟩

/-- All characters of a text can stand in a number. -/
def IsNumberText (s : String) : Prop := ∀ c ∈ s.toList, isOfNumber c

lemma IsNumberText.append (hs : IsNumberText s) (ht : IsNumberText t) : IsNumberText (s ++ t) := by
  intro c hc
  rw [String.toList_append] at hc
  exact (mem_append.mp hc).elim (hs c) (ht c)

lemma isNumberText_of_all (h : s.toList.all isOfNumber) : IsNumberText s :=
  all_eq_true.mp h

lemma areOfNumber (h : AreDigits cs) : ∀ c ∈ cs, isOfNumber c := by
  intro c hc
  unfold isOfNumber
  rw [h c hc, Bool.true_or]

lemma isNumberText_ofList (h : ∀ c ∈ cs, isOfNumber c) : IsNumberText (String.ofList cs) := by
  rw [IsNumberText, String.toList_ofList]
  exact h

lemma areDigits_toString (n : Nat) : AreDigits (toString n).toList := by
  rw [toString_eq_repr, toList_repr]
  exact areDigits_toDigits n

lemma isNumberText_nat (n : Nat) : IsNumberText (toString n) := areOfNumber (areDigits_toString n)

lemma isNumberText_int (n : Int) : IsNumberText (toString n) := by
  rw [Int.toString_eq_repr, Int.repr_eq_if, ← toString_eq_repr, ← toString_eq_repr]
  split
  · exact isNumberText_nat _
  · exact (isNumberText_of_all (by decide)).append (isNumberText_nat _)

lemma isNumberText_positional (d : Digits) : IsNumberText (positional d) := by
  have hzeros : ∀ k, IsNumberText (String.ofList (replicate k '0')) := fun k =>
    isNumberText_ofList (areOfNumber (areDigits_zeros k))
  unfold positional
  dsimp only
  split
  · exact ((isNumberText_of_all (by decide)).append (hzeros _)).append (isNumberText_nat _)
  · split
    · exact ((isNumberText_nat _).append (hzeros _)).append (isNumberText_of_all (by decide))
    · have hbefore := (areDigits_toString d.digits).sublist (take_sublist d.point.toNat _)
      have hafter := (areDigits_toString d.digits).sublist (drop_sublist d.point.toNat _)
      exact ((isNumberText_ofList (areOfNumber hbefore)).append (isNumberText_of_all (by decide))).append
        (isNumberText_ofList (areOfNumber hafter))

lemma isNumberText_scientific (d : Digits) : IsNumberText (scientific d) := by
  have hdigits := areOfNumber (areDigits_toString d.digits)
  unfold scientific
  dsimp only
  refine ((IsNumberText.append ?_ (isNumberText_of_all (by decide))).append ?_).append ?_
  · split
    · exact isNumberText_of_all (by decide)
    · next c hcs => exact isNumberText_ofList (hcs ▸ hdigits)
    · next c rest _ hcs =>
      rw [hcs, forall_mem_cons] at hdigits
      exact isNumberText_ofList (forall_mem_cons.mpr ⟨hdigits.1, forall_mem_cons.mpr ⟨by decide, hdigits.2⟩⟩)
  · split <;> exact isNumberText_of_all (by decide)
  · split
    · exact (isNumberText_of_all (by decide)).append (isNumberText_nat _)
    · exact isNumberText_nat _

lemma isNumberText_fifteenDigits (x : Float) : IsNumberText (fifteenDigits x) := by
  have hsign : ∀ negative : Bool, IsNumberText (if negative then "-" else "") := by
    rintro (_ | _) <;> exact isNumberText_of_all (by decide)
  unfold fifteenDigits
  split
  · exact isNumberText_of_all (by decide)
  · split <;> exact isNumberText_of_all (by decide)
  · next negative m _ _ =>
    dsimp only
    split
    · exact isNumberText_of_all (by decide)
    · split
      · exact (hsign negative).append (isNumberText_positional _)
      · exact (hsign negative).append (isNumberText_scientific _)

lemma IsNumberText.ne_countedWord (h : IsNumberText s) (severity : Severity) : s ≠ severity.countedWord := by
  rintro rfl
  obtain ⟨c, hc, hnot⟩ := severity.exists_not_isOfNumber
  rw [h c hc] at hnot
  cases hnot

/-- A stored severity is a counted word exactly when the value it was made of is. -/
lemma Cell.holds_countedWord (h : ofValue v = .ok cell) (severity : Severity) :
    cell.inTextColumn.holds (.text severity.countedWord) = v.isWordOf [severity.countedWord] := by
  have hnumber : ∀ s : String, IsNumberText s → (Cell.text s).holds (.text severity.countedWord) = false :=
    fun s hs => beq_eq_false_iff_ne.mpr (hs.ne_countedWord severity)
  cases v with
  | null =>
    cases h
    rfl
  | bool b =>
    cases h
    exact hnumber _ (isNumberText_int _)
  | int n =>
    simp only [ofValue] at h
    split at h
    · cases h
      exact hnumber _ (isNumberText_int n)
    · cases h
  | float x | estimate x =>
    unfold ofValue at h
    cases h
    split
    · rfl
    · exact hnumber _ (isNumberText_fifteenDigits x)
  | str s =>
    simp only [ofValue] at h
    split at h
    · cases h
      by_cases hword : s = severity.countedWord <;> simp [inTextColumn, holds, Value.isWordOf, hword]
    · cases h
  | _ => cases h

namespace Store

/-! ## The rows of a report -/

/-- A scan says of its findings how many there are, in all and of each severity. -/
structure Agrees (scan : StoredScan) (rows : List StoredFinding) : Prop where
  total : scan.total = rows.length
  counts : ∀ severity : Severity, scan.counts.of severity = rows.countP (·.hasSeverity severity.countedWord)

/-- The severity of a finding in a report is the word. -/
def statesWord (word : String) (finding : Value) : Bool :=
  match finding.part "severity" (.str "low") with
  | .ok v => v.isWordOf [word]
  | .error _ => false

variable {finding v : Value} {stamp : Stamp} {report : ScanReport} {numbered : Nat} {rows : List StoredFinding} {α : Type}

lemma severityOf_eq_ok (h : severityOf finding = .ok v) : finding.part "severity" (.str "low") = .ok v := by
  obtain ⟨v', hpart, h⟩ := of_bind h
  split at h
  · cases h
    exact hpart
  · cases h

/-- What is known of a stored finding: its scan, and that its severity is the text of the one in the report. -/
lemma findingOf_eq_ok {scan : String} {id place : Nat} (h : findingOf scan id place finding = .ok row) :
    row.scan = scan ∧ ∃ v cell, finding.part "severity" (.str "low") = .ok v ∧ ofValue v = .ok cell ∧
      cell.isNull = false ∧ row.severity = cell.inTextColumn := by
  simp only [findingOf, bind_eq_ok_iff] at h
  obtain ⟨fields, hfields, details, -, findingId, -, type, -, severity, hseverity, file, -, line, -, message, -, rule, -,
    weakness, -, _, -, _, -, kept, hkept, ⟨⟩⟩ := h
  unfold required at hkept
  split at hkept
  · cases hkept
  · next hnull =>
    cases hkept
    refine ⟨rfl, _, severity, ?_, hseverity, eq_false_of_ne_true hnull, rfl⟩
    exact bind_eq_ok_iff.mpr ⟨fields, hfields, rfl⟩

lemma exists_text_of_not_isNull {cell : Cell} (h : cell.isNull = false) : ∃ word, cell.inTextColumn = .text word := by
  cases cell with
  | null => cases h
  | _ => exact ⟨_, rfl⟩

lemma scanOf_eq_ok (h : scanOf stamp report total counts = .ok scan) :
    scan.id = stamp.id ∧ scan.total = total ∧ scan.counts = counts := by
  -- With metadata or without, the rest of the steps is the same.
  unfold scanOf at h
  dsimp only at h
  split at h
  all_goals
    simp only [bind_eq_ok_iff] at h
    obtain ⟨metadata, -, path, -, files, -, duration, -, _, -, ⟨⟩⟩ := h
    exact ⟨rfl, rfl, rfl⟩

lemma map_hasSeverity_of_mapM {scan : String} {findings severities : List Value}
    (hseverities : findings.mapM severityOf = .ok severities)
    (hrows : findings.zipIdx.mapM (fun entry => findingOf scan (numbered + entry.2 + 1) entry.2 entry.1) = .ok rows)
    (severity : Severity) :
    severities.map (·.isWordOf [severity.countedWord]) = rows.map (·.hasSeverity severity.countedWord) := by
  have hstated : severities.map (·.isWordOf [severity.countedWord]) = findings.map (statesWord severity.countedWord) :=
    map_eq_of_mapM hseverities fun finding v hv => by
      unfold statesWord
      rw [severityOf_eq_ok hv]
  have hstored : rows.map (·.hasSeverity severity.countedWord) =
      findings.zipIdx.map fun entry => statesWord severity.countedWord entry.1 :=
    map_eq_of_mapM hrows fun entry row hrow => by
      obtain ⟨-, v, cell, hpart, hcell, -, hseverity⟩ := findingOf_eq_ok hrow
      unfold StoredFinding.hasSeverity statesWord
      rw [hseverity, holds_countedWord hcell, hpart]
  have hfirst := congrArg (map (statesWord severity.countedWord)) (zipIdx_map_fst 0 findings)
  rw [map_map] at hfirst
  rw [hstored, hstated, ← hfirst]
  rfl

lemma countP_eq_of_map_eq {β : Type} {p : α → Bool} {q : β → Bool} {xs : List α} {ys : List β}
    (h : xs.map p = ys.map q) : xs.countP p = ys.countP q := by
  have hcount := congrArg (countP id) h
  rw [countP_map, countP_map] at hcount
  exact hcount

/-- The rows of a report belong to its scan, their severities are texts, and the scan agrees with them. -/
lemma agrees_of_rowsOf (h : rowsOf stamp numbered report = .ok (scan, rows)) :
    scan.id = stamp.id ∧ (∀ row ∈ rows, row.scan = scan.id ∧ ∃ word, row.severity = .text word) ∧ Agrees scan rows := by
  simp only [rowsOf, countsOf, bind_eq_ok_iff] at h
  obtain ⟨findings, -, _, ⟨severities, hseverities, ⟨⟩⟩, _, hscan, _, hrows, ⟨⟩⟩ := h
  obtain ⟨hid, htotal, hcount⟩ := scanOf_eq_ok hscan
  refine ⟨hid, fun row hrow => ?_, ?_, fun severity => ?_⟩
  · obtain ⟨⟨finding, i⟩, -, hrow⟩ := exists_mem_of_mapM hrows hrow
    obtain ⟨hrowScan, v, cell, -, -, hnull, hseverity⟩ := findingOf_eq_ok hrow
    exact ⟨hrowScan, hseverity ▸ exists_text_of_not_isNull hnull⟩
  · have hlength := (mapM_eq_ok_iff.mp hrows).length_eq
    rw [length_zipIdx] at hlength
    exact htotal.trans hlength
  · rw [hcount, of_foldl, countP_eq_of_map_eq (map_hasSeverity_of_mapM hseverities hrows severity)]
    cases severity <;> exact zero_add _

def findingsOf (s : Store) (id : String) : List StoredFinding := s.findings.filter (·.scan == id)

/-- What removing a scan does: there is none of that name and nothing changes, or it goes with its findings. -/
lemma delete_cases (s : Store) (id : Value) :
    (s.delete id).2 = s ∨ ∃ scan, s.scan? id = .ok (some scan) ∧ (s.delete id).2 = { s with
            scans := s.scans.filter (·.id != scan.id)
            findings := s.findings.filter (·.scan != scan.id) } := by
  unfold delete
  cases hfound : s.scan? id with
  | error fault => exact .inl rfl
  | ok found =>
    cases found with
    | none => exact .inl rfl
    | some scan => exact .inr ⟨scan, rfl, rfl⟩

/-! ## What every call keeps -/

/-- Scans have identifiers of their own; findings belong to scans and are what their scans say of them. -/
structure Sound (s : Store) : Prop where
  distinct : (s.scans.map (·.id)).Nodup
  refers : ∀ f ∈ s.findings, ∃ scan ∈ s.scans, scan.id = f.scan
  worded : ∀ f ∈ s.findings, ∃ word, f.severity = .text word
  agrees : ∀ scan ∈ s.scans, Agrees scan (s.findingsOf scan.id)

lemma sound_empty : Sound {} := by
  refine ⟨nodup_nil, ?_, ?_, ?_⟩ <;> exact fun _ hmem => absurd hmem not_mem_nil

variable {s : Store}

lemma filter_append_of_none {old new : List α} (h : ∀ a ∈ new, ¬ chosen a) :
    (old ++ new).filter chosen = old.filter chosen := by
  rw [filter_append, filter_eq_nil_iff.mpr h, append_nil]

lemma Sound.create (h : Sound s) (stamp : Stamp) (report : ScanReport) : Sound (s.create stamp report).2 := by
  rcases create_cases s stamp report with ⟨fault, hfailed⟩ | ⟨scan, rows, hrows, hnew, hmade⟩
  · rw [hfailed]
    exact h
  · obtain ⟨-, hown, hagrees⟩ := agrees_of_rowsOf hrows
    rw [hmade]
    -- Rows of the new scan carry a name that no older row refers to.
    have hnewName : ∀ f ∈ s.findings, f.scan ≠ scan.id := by
      intro f hf
      obtain ⟨old, hold, hof⟩ := h.refers f hf
      rw [← hof]
      exact hnew old hold
    refine ⟨?_, fun f hf => ?_, fun f hf => ?_, fun one hone => ?_⟩
    · rw [map_append, map_singleton, ← concat_eq_append, nodup_concat]
      refine ⟨fun hmem => ?_, h.distinct⟩
      obtain ⟨old, hold, hsame⟩ := mem_map.mp hmem
      exact hnew old hold hsame
    · rcases mem_append.mp hf with hold | hadded
      · obtain ⟨one, hone, hof⟩ := h.refers f hold
        exact ⟨one, mem_append_left _ hone, hof⟩
      · exact ⟨scan, mem_append_right _ (mem_singleton_self scan), (hown f hadded).1.symm⟩
    · exact (mem_append.mp hf).elim (h.worded f) fun hadded => (hown f hadded).2
    · unfold findingsOf
      rcases mem_append.mp hone with hold | hadded
      · rw [filter_append_of_none]
        · exact h.agrees one hold
        · intro row hrow
          rw [beq_iff_eq, (hown row hrow).1]
          exact (hnew one hold).symm
      · cases mem_singleton.mp hadded
        have hnone : s.findings.filter (·.scan == scan.id) = [] :=
          filter_eq_nil_iff.mpr fun f hf => mt beq_iff_eq.mp (hnewName f hf)
        have hall : rows.filter (·.scan == scan.id) = rows :=
          filter_eq_self.mpr fun row hrow => beq_iff_eq.mpr (hown row hrow).1
        rw [filter_append, hnone, hall, nil_append]
        exact hagrees

lemma filter_filter_of_imp {kept : α → Bool} (h : ∀ a, chosen a → kept a) (xs : List α) :
    (xs.filter kept).filter chosen = xs.filter chosen := by
  rw [filter_filter]
  refine filter_congr fun a _ => ?_
  by_cases hchosen : chosen a
  · rw [hchosen, h a hchosen, Bool.and_self]
  · rw [eq_false_of_ne_true hchosen, Bool.false_and]

lemma Sound.delete (h : Sound s) (id : Value) : Sound (s.delete id).2 := by
  rcases delete_cases s id with hnone | ⟨gone, -, hgone⟩
  · rw [hnone]
    exact h
  · rw [hgone]
    refine ⟨?_, fun f hf => ?_, fun f hf => ?_, fun one hone => ?_⟩
    · exact h.distinct.sublist (filter_sublist.map _)
    · obtain ⟨hold, hkept⟩ := mem_filter.mp hf
      obtain ⟨one, hone, hof⟩ := h.refers f hold
      exact ⟨one, mem_filter.mpr ⟨hone, hof ▸ hkept⟩, hof⟩
    · exact h.worded f (mem_filter.mp hf).1
    · obtain ⟨hold, hkept⟩ := mem_filter.mp hone
      have hothers : ∀ f : StoredFinding, (f.scan == one.id) → (f.scan != gone.id) :=
        fun f hf => beq_iff_eq.mp hf ▸ hkept
      unfold findingsOf
      rw [filter_filter_of_imp hothers]
      exact h.agrees one hold

lemma Sound.on (h : Sound s) (call : Call) : Sound (call.on s) := by
  cases call with
  | create stamp report => exact h.create stamp report
  | delete id => exact h.delete id

lemma sound_after (calls : List Call) : Sound (after calls) := by
  induction calls using reverseRecOn with
  | nil => exact sound_empty
  | append_singleton calls call ih =>
    unfold after
    rw [foldl_append]
    exact ih.on call

/-! ## Statistics -/

/-- All findings are counted once by the scans that they belong to. -/
lemma Sound.sum_total (h : Sound s) : (s.scans.map (·.total)).sum = s.findings.length := by
  have hcount : ∀ scan ∈ s.scans, scan.total = (s.findings.map (·.scan)).count scan.id := by
    intro scan hscan
    rw [(h.agrees scan hscan).total, findingsOf, ← countP_eq_length_filter, List.count, countP_map]
    rfl
  have hrefers : ∀ id ∈ s.findings.map (·.scan), id ∈ s.scans.map (·.id) := by
    intro id hid
    obtain ⟨f, hf, rfl⟩ := mem_map.mp hid
    obtain ⟨scan, hscan, hof⟩ := h.refers f hf
    exact mem_map.mpr ⟨scan, hscan, hof⟩
  have hsum := sum_count_of_nodup h.distinct hrefers
  rw [map_map, length_map] at hsum
  rw [map_congr_left hcount]
  exact hsum

/-- The tally of texts counts each of them once. -/
lemma sum_frequencies (h : ∀ c ∈ cells, ∃ word, c = .text word) :
    ((frequencies cells).map (·.2)).sum = cells.length := by
  have htexts : ∀ words : List String, frequencies (words.map .text) =
      (sortedSet words).map fun s => (s, words.count s) := by
    intro words
    unfold frequencies
    dsimp only
    rw [filterMap_map, show _ ∘ Cell.text = some from rfl, filterMap_some]
  obtain ⟨words, rfl⟩ := (Set.range_list_map Cell.text).ge fun c hc => (h c hc).imp fun _ => Eq.symm
  rw [htexts, map_map, length_map]
  exact sum_count_sortedSet words

lemma nodup_frequencies (cells : List Cell) : ((frequencies cells).map (·.1)).Nodup := by
  unfold frequencies
  rw [map_map]
  exact (nodup_sortedSet _).map fun _ _ h => h

/-! ## Other scans -/

def Names (v : Value) (id : String) : Prop := ∃ cell, ofValue v = .ok cell ∧ (Cell.text id).holds cell

/-- Whether a value names a scan that a call makes or removes. -/
def Call.Concerns (v : Value) : Call → Prop
  | .create stamp _ => Names v stamp.id
  | .delete id => ∃ gone, Names id gone ∧ Names v gone

section LookUps

variable {t : Store} {v : Value}

def scansNamed (s : Store) (cell : Cell) : List StoredScan := s.scans.filter fun scan => (Cell.text scan.id).holds cell

def findingsNamed (s : Store) (cell : Cell) : List StoredFinding :=
  s.findings.filter fun f => (Cell.text f.scan).holds cell

lemma scan?_eq (s : Store) (v : Value) : s.scan? v = (ofValue v).map fun cell => (s.scansNamed cell).head? := by
  unfold scan? scansNamed
  cases ofValue v with
  | error fault => rfl
  | ok cell =>
    simp only [ok_bind, pure_eq_ok, Except.map, head?_filter]

lemma matching_eq (s : Store) (v : Value) (filter : Filter) :
    s.matching v filter = (do
      let cell ← ofValue v
      let bySeverity ← cellFilter filter.severity
      let byType ← cellFilter filter.type
      return (s.findingsNamed cell).filter fun f => bySeverity f.severity && byType f.type) := by
  unfold matching findingsNamed
  refine bind_congr fun cell => bind_congr fun bySeverity => bind_congr fun byType => ?_
  rw [filter_filter]
  congr 2
  funext f
  rw [Bool.and_assoc, Bool.and_comm]

/-- Look-ups by a name see only the scans that have it, and their findings. -/
lemma lookUps_eq (hscans : ∀ cell, ofValue v = .ok cell → t.scansNamed cell = s.scansNamed cell)
    (hfindings : ∀ cell, ofValue v = .ok cell → t.findingsNamed cell = s.findingsNamed cell) :
    t.scan? v = s.scan? v ∧
      ∀ filter number size, t.findingPage v filter number size = s.findingPage v filter number size := by
  have hmatching : ∀ filter, t.matching v filter = s.matching v filter := by
    intro filter
    rw [matching_eq, matching_eq]
    cases hcell : ofValue v with
    | error fault => rfl
    | ok cell => rw [ok_bind, ok_bind, hfindings cell hcell]
  refine ⟨?_, fun filter number size => ?_⟩
  · rw [scan?_eq, scan?_eq]
    cases hcell : ofValue v with
    | error fault => rfl
    | ok cell => rw [Except.map, Except.map, hscans cell hcell]
  · unfold findingPage
    rw [hmatching]

end LookUps

/-- A call shows on no scan but the one that it makes or removes. -/
lemma lookUps_on (s : Store) (call : Call) (hother : ¬ call.Concerns v) : (call.on s).scan? v = s.scan? v ∧
      ∀ filter number size, (call.on s).findingPage v filter number size = s.findingPage v filter number size := by
  cases call with
  | create stamp report =>
    dsimp only [Call.on]
    rcases create_cases s stamp report with ⟨fault, hfailed⟩ | ⟨scan, rows, hrows, -, hmade⟩
    · rw [hfailed]
      exact ⟨rfl, fun _ _ _ => rfl⟩
    · obtain ⟨hid, hown, -⟩ := agrees_of_rowsOf hrows
      have hunnamed : ∀ cell, ofValue v = .ok cell → ¬ (Cell.text scan.id).holds cell :=
        fun cell hcell hholds => hother ⟨cell, hcell, hid ▸ hholds⟩
      rw [hmade]
      refine lookUps_eq (fun cell hcell => ?_) fun cell hcell => ?_
      · exact filter_append_of_none (forall_mem_singleton.mpr (hunnamed cell hcell))
      · refine filter_append_of_none fun row hrow => ?_
        rw [(hown row hrow).1]
        exact hunnamed cell hcell
  | delete id =>
    dsimp only [Call.on]
    rcases delete_cases s id with hnone | ⟨gone, hgone, hremoved⟩
    · rw [hnone]
      exact ⟨rfl, fun _ _ _ => rfl⟩
    · have hnamed : Names id gone.id := by
        obtain ⟨wanted, hwanted, hfind⟩ := of_bind hgone
        have hholds := find?_some (Except.ok.inj hfind)
        exact ⟨wanted, hwanted, hholds⟩
      -- What has the wanted name has another one than the scan that is gone.
      have hkept : ∀ cell, ofValue v = .ok cell → ∀ name : String, (Cell.text name).holds cell → (name != gone.id) := by
        intro cell hcell name hholds
        rw [bne_iff_ne]
        rintro rfl
        exact hother ⟨gone.id, hnamed, cell, hcell, hholds⟩
      rw [hremoved]
      refine lookUps_eq (fun cell hcell => ?_) fun cell hcell => ?_
      · exact filter_filter_of_imp (fun scan => hkept cell hcell scan.id) s.scans
      · exact filter_filter_of_imp (fun f => hkept cell hcell f.scan) s.findings

/-! ## The store after any history -/

/-- A store agrees with itself. -/
structure Consistent (s : Store) : Prop where
  /-- Every finding belongs to a scan. -/
  refers : ∀ f ∈ s.findings, ∃ scan ∈ s.scans, scan.id = f.scan
  /-- Every scan says how many findings it has, in all and of each severity. -/
  agrees : ∀ scan ∈ s.scans, Agrees scan (s.findingsOf scan.id)
  /-- The statistics show the sum over all scans. -/
  total : s.statistics.get? "total_findings" = some (.nat (s.scans.map (·.total)).sum)
  /-- They part that sum by severities, each named once. -/
  distribution : ∃ tally : List (String × Nat),
    s.statistics.get? "severity_distribution" = some (.obj (tally.map fun entry => (entry.1, .nat entry.2))) ∧
      (tally.map (·.1)).Nodup ∧ (tally.map (·.2)).sum = (s.scans.map (·.total)).sum

lemma Sound.consistent (h : Sound s) : Consistent s where
  refers := h.refers
  agrees := h.agrees
  total := by
    rw [h.sum_total]
    rfl
  distribution := by
    refine ⟨frequencies (s.findings.map (·.severity)), rfl, nodup_frequencies _, ?_⟩
    rw [h.sum_total, sum_frequencies, length_map]
    intro cell hcell
    obtain ⟨f, hf, rfl⟩ := mem_map.mp hcell
    exact h.worded f hf

/-- **A store agrees with itself after any calls**, whatever identifiers and times the scans are given, and a call shows
on no scan but the one that it makes or removes. -/
theorem consistent_after (calls : List Call) :
    Consistent (after calls) ∧ ∀ (call : Call) (other : Value), ¬ call.Concerns other →
        (call.on (after calls)).scan? other = (after calls).scan? other ∧
          ∀ filter number size, (call.on (after calls)).findingPage other filter number size =
            (after calls).findingPage other filter number size :=
  ⟨(sound_after calls).consistent, fun call _ hother => lookUps_on (after calls) call hother⟩

/-! ### Calls of which two fail -/

/-- Two scans are made, one of them with a severity that is a number. A report without a type fails, and so does one
under an identifier that is taken. -/
def mixedCalls : List Call :=
  [.create ⟨"a", "t1"⟩ { path := .str "p", findings := .list [.obj [("severity", .str "high")], .obj []] },
   .create ⟨"b", "t2"⟩ { path := .str "q", findings := .list [.obj [("severity", .int 3)]] },
   .create ⟨"c", "t3"⟩ { path := .str "r", findings := .list [.obj [("severity", .str "low")], .obj [("type", .null)]] },
   .create ⟨"a", "t4"⟩ { path := .str "s", findings := .list [.obj []] }]

lemma Names.eq_of_str {name id : String} (h : Names (.str name) id) : id = name := by
  obtain ⟨cell, hcell, hholds⟩ := h
  simp only [ofValue] at hcell
  split at hcell
  · cases hcell
    exact beq_iff_eq.mp hholds
  · cases hcell

theorem consistent_after_mixedCalls :
    (after mixedCalls).scans.map (fun scan => (scan.id, scan.total, scan.counts.of .high, scan.counts.of .low)) =
        [("a", 2, 1, 1), ("b", 1, 0, 0)] ∧ Consistent (after mixedCalls) ∧
      ((Call.delete (.str "a")).on (after mixedCalls)).findings.length = 1 ∧
      ((Call.delete (.str "a")).on (after mixedCalls)).scan? (.str "b") = (after mixedCalls).scan? (.str "b") := by
  have hother : ¬ (Call.delete (.str "a")).Concerns (.str "b") := by
    rintro ⟨gone, hgone, hnamed⟩
    exact absurd (hgone.eq_of_str.symm.trans hnamed.eq_of_str) (by decide)
  obtain ⟨hconsistent, hframe⟩ := consistent_after mixedCalls
  exact ⟨by decide +kernel, hconsistent, by decide +kernel, (hframe _ _ hother).1⟩

end Store

end CodeAudit

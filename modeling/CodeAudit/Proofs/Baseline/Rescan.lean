import CodeAudit.Proofs.Actions
import CodeAudit.Proofs.Json.Document
import CodeAudit.Python.Taint
import CodeAudit.Suppression.Baseline
import CodeAudit.Suppression.Saving

/-!
# What a saved baseline has of a finding

A baseline is compared with findings by six fields. The saved report does not keep them as they are: places may come
from other fields, some messages are composed anew, ids of rules and descriptions are left out, and JSON mends texts and
rounds numbers. `saved` says what is left of a finding, and `exists_saved_of_document` that a report holds this once
written and read again.
-/

namespace CodeAudit

open Proofs List JsonReport Record Value Json

/-! ## Fields with plain names -/

namespace Json

lemma not_isPlain_of_pairChar? (h : pairChar? c d = some joined) : isPlain joined = false := by
  obtain ⟨high, low, -, -, hhigh, hlow, hjoined⟩ := pairChar?_eq_some h
  simp only [Text.isHighSurrogate, Text.isLowSurrogate, Bool.and_eq_true, decide_eq_true_eq] at hhigh hlow
  have hrange : Text.joinSurrogates high low < 0x110000 ∧ 0x10000 ≤ Text.joinSurrogates high low := by
    unfold Text.joinSurrogates
    omega
  have hnat : joined.toNat = Text.joinSurrogates high low := by
    rw [hjoined]
    exact toNat_charOfNat (by omega)
  unfold isPlain
  rw [Bool.or_eq_false_iff, beq_eq_false_iff_ne, hnat]
  refine ⟨fun heq => ?_, ?_⟩
  · rw [heq] at hnat
    have hten : '\n'.toNat = 10 := rfl
    omega
  · rw [Bool.and_eq_false_iff, decide_eq_false_iff_not, decide_eq_false_iff_not]
    omega

/-- Mending leads to a plain text only from the text itself. -/
lemma mended_eq_iff (h : ArePlain ds) (cs : List Char) : mended cs = ds ↔ cs = ds := by
  fun_induction mended cs generalizing ds with
  | case1 c d cs joined hjoined ih =>
    constructor
    · rintro rfl
      have hplain := h joined mem_cons_self
      rw [not_isPlain_of_pairChar? hjoined] at hplain
      cases hplain
    · rintro rfl
      rw [pairChar?_of_left (surrogate?_of_isPlain (h c mem_cons_self))] at hjoined
      cases hjoined
  | case2 c d cs hnone ih =>
    cases ds with
    | nil => exact iff_of_false (cons_ne_nil _ _) (cons_ne_nil _ _)
    | cons e es => rw [cons.injEq, cons.injEq, ih fun x hx => h x (mem_cons_of_mem _ hx)]
  | case3 cs hshort => exact Iff.rfl

variable {name : String}

lemma mendedText_eq_iff (h : ArePlain name.toList) (s : String) : mendedText s = name ↔ s = name := by
  unfold mendedText
  rw [← String.toList_inj, String.toList_ofList, mended_eq_iff h, String.toList_inj]

lemma get?_carriedFields (h : ArePlain name.toList) (fields : Record) :
    get? (carriedFields fields) name = (get? fields name).map carried := by
  induction fields with
  | nil => rfl
  | cons field fields ih =>
    rw [carriedFields, get?_cons, get?_cons, ih]
    by_cases hname : field.1 = name
    · rw [if_pos hname, if_pos ((mendedText_eq_iff h _).mpr hname)]
      rfl
    · rw [if_neg hname, if_neg fun heq => hname ((mendedText_eq_iff h _).mp heq)]

lemma carriedFields_append (a b : Record) : carriedFields (a ++ b) = carriedFields a ++ carriedFields b := by
  induction a with
  | nil => rfl
  | cons field a ih => rw [cons_append, carriedFields, carriedFields, ih, cons_append]

lemma carriedFields_reverse (fields : Record) : (carriedFields fields).reverse = carriedFields fields.reverse := by
  induction fields with
  | nil => rfl
  | cons field fields ih =>
    rw [carriedFields, reverse_cons, reverse_cons, carriedFields_append, ih]
    rfl

lemma get?_carried (h : ArePlain name.toList) (fields : Record) :
    get? (ofFields (carriedFields fields)) name = (get? fields.reverse name).map carried := by
  rw [get?_ofFields, carriedFields_reverse, get?_carriedFields h]

/-- A field of a document, as it is found once the document has been written and read. -/
lemma need_carried (h : ArePlain name.toList) {fields : Record}
    (hget : get? fields.reverse name = some v) : (carried (.obj fields)).need name = .ok (carried v) := by
  simp only [carried, need, namedFields]
  rw [get?_carried h, hget]
  rfl

lemma carriedAll_eq_map (items : List Value) : carriedAll items = items.map carried := by
  induction items with
  | nil => rfl
  | cons v vs ih => rw [carriedAll, map_cons, ih]

end Json

namespace Baseline

variable {name : String} {a b fields g : Record}
  {number : Nat} {findings : List Record} {facts : Report.Facts} {d : Value}

/-! ## The fields that are compared -/

/-- The fields by which findings are compared. -/
def compared : List String := ["file", "line", "rule_id", "type", "message", "description"]

/-- Two findings are the same to a comparison. -/
def Agree (a b : Record) : Prop := ∀ name ∈ compared, a.get? name = b.get? name

lemma arePlain_of_mem_compared (h : name ∈ compared) : ArePlain name.toList := by
  have hall : (compared.all fun name => name.toList.all isPlain) := by decide
  exact arePlain_of_all (all_eq_true.mp hall name h)

lemma Agree.getD_eq (h : Agree a b) (name : String) (hname : name ∈ compared) (default : Value) :
    a.getD name default = b.getD name default := by
  unfold Record.getD
  rw [h name hname]

lemma Agree.printOf_eq (h : Agree a b) : printOf (.obj a) = printOf (.obj b) := by
  have hrule : ruleOf a = ruleOf b := by
    unfold ruleOf
    rw [h.getD_eq "type" (by decide), h.getD_eq "rule_id" (by decide)]
  have hmessage : messageOf a = messageOf b := by
    unfold messageOf
    rw [h.getD_eq "description" (by decide), h.getD_eq "message" (by decide)]
  simp only [printOf, fields, namedFields, ok_bind]
  rw [h.getD_eq "file" (by decide), h.getD_eq "line" (by decide), hrule, hmessage]

def given (name : String) (v : Option Value) : Record := (v.map (name, ·)).toList

def reportFile (g : Record) : Option Value := (g.get? "filename").or (g.get? "file")

def reportLine (g : Record) : Option Value := (g.get? "line").or (g.get? "sink_line")

def reportType (g : Record) : Value := g.getD "type" (.str "unknown")

def reportMessage (g : Record) : Value := getD (message g (reportType g)) "message" .null

/-- A finding as a saved baseline lets it be compared. -/
def saved (g : Record) : Record :=
  carriedFields (given "file" (reportFile g) ++ given "line" (reportLine g) ++
    [("type", reportType g), ("message", reportMessage g)])

/-! ## Reports -/

/-- The fields of an entry in a report that are compared, its id and its severity. -/
def identifying : List String := compared ++ ["id", "severity"]

/-- None of some fields identifies an entry. -/
def Apart (fields : Record) : Prop := ∀ field ∈ fields, field.1 ∉ identifying

lemma apart_nil : Apart [] := nofun

lemma Apart.cons {v : Value} (hname : name ∉ identifying) (h : Apart fields) : Apart ((name, v) :: fields) :=
  forall_mem_cons.mpr ⟨hname, h⟩

lemma Apart.append (ha : Apart a) (hb : Apart b) : Apart (a ++ b) :=
  forall_mem_append.mpr ⟨ha, hb⟩

lemma apart_copied (hnew : newName ∉ identifying) : Apart (copied g name newName) := by
  unfold copied
  split
  · exact apart_nil.cons hnew
  · exact apart_nil

lemma Apart.get?_reverse (h : Apart fields) (hname : name ∈ identifying) : get? fields.reverse name = none := by
  refine get?_eq_none fun field hfield heq => ?_
  exact h field (mem_reverse.mp hfield) (heq ▸ hname)

lemma message_eq_cons (g : Record) (kind : Value) :
    ∃ text more, message g kind = ("message", text) :: more ∧ Apart more := by
  unfold message
  split <;> refine ⟨_, _, rfl, ?_⟩
  · -- a tainted variable: its sink and name, and the trace
    have hfixed : ∀ sink var, Apart [("sink", sink), ("variable", var)] := fun _ _ =>
      (apart_nil.cons (by decide)).cons (by decide)
    exact (hfixed _ _).append (apart_copied (by decide))
  · -- a flow between functions: its sink and variable, the calls, and both functions
    have hfixed : ∀ sink var, Apart [("sink", sink), ("variable", var)] := fun _ _ =>
      (apart_nil.cons (by decide)).cons (by decide)
    exact (((hfixed _ _).append (apart_copied (by decide))).append (apart_copied (by decide))).append
      (apart_copied (by decide))
  · exact apart_nil.cons (by decide)
  · exact apart_nil.cons (by decide)
  · exact apart_nil.cons (by decide)
  · exact apart_nil

lemma get?_given (field : String) (v : Option Value) (name : String) :
    get? (given field v) name = if field = name then v else none := by
  cases v with
  | none => exact (ite_self none).symm
  | some v => exact get?_cons (field, v) [] name

lemma reverse_given (field : String) (v : Option Value) : (given field v).reverse = given field v := by
  cases v <;> rfl

lemma location_eq (g : Record) : location g = given "file" (reportFile g) ++ given "line" (reportLine g) := by
  unfold location copied reportFile reportLine
  congr 1
  · cases g.get? "filename" with
    | some v => rfl
    | none => cases g.get? "file" <;> rfl
  · cases g.get? "line" with
    | some v => rfl
    | none => cases g.get? "sink_line" <;> rfl

/-- What an entry tells of its finding. -/
lemma get?_toRecord (h : entry number f = .ok e) :
    e.number = number ∧ ∃ g, f.fields = .ok g ∧ levelOf g = .ok e.level ∧ ∀ name ∈ identifying,
      get? e.toRecord.reverse name = get? (given "file" (reportFile g) ++ given "line" (reportLine g) ++
        [("type", reportType g), ("message", reportMessage g), ("id", .str e.id),
          ("severity", .str e.level.word)]) name := by
  unfold entry at h
  obtain ⟨g, hfields, h⟩ := of_bind h
  obtain ⟨level, hlevel, h⟩ := of_bind h
  cases h
  refine ⟨rfl, g, hfields, hlevel, fun name hname => ?_⟩
  obtain ⟨text, more, hmessage, hmore⟩ := message_eq_cons g (reportType g)
  have htext : reportMessage g = text := by
    unfold reportMessage Record.getD
    rw [hmessage, get?_cons, if_pos rfl]
    rfl
  have hscore : Apart (copied g "vuln_score" "confidence") := apart_copied (by decide)
  change get? (([("id", _), ("type", reportType g), ("severity", _)] : Record) ++ (location g ++
    message g (reportType g) ++ copied g "vuln_score" "confidence")).reverse name = _
  rw [hmessage, htext, location_eq]
  simp only [reverse_append, reverse_cons, nil_append, cons_append, get?_append,
    hscore.get?_reverse hname, hmore.get?_reverse hname, reverse_given, get?_given, get?_cons, Option.none_or]
  -- each of these fields stands at most once in an entry
  simp only [identifying, compared, cons_append, nil_append, mem_cons, not_mem_nil, or_false] at hname
  rcases hname with rfl | rfl | rfl | rfl | rfl | rfl | rfl | rfl <;> simp

lemma forall₂_of_entriesFrom (h : entriesFrom number (findings.map .obj) = .ok entries) :
    Forall₂ (fun g e => ∃ number, entry number (.obj g) = .ok e) findings entries := by
  induction findings generalizing number entries with
  | nil =>
    cases h
    exact .nil
  | cons g findings ih =>
    obtain ⟨e, he, h⟩ := of_bind h
    obtain ⟨rest, hrest, h⟩ := of_bind h
    cases h
    exact .cons ⟨number, he⟩ (ih hrest)

/-- The findings in a report that has come back are its entries as they are carried. -/
lemma part_carried_of_document {findings : List Value} (h : document facts findings = .ok d) :
    ∃ entries, entriesFrom 1 findings = .ok entries ∧ (carried d).part "findings" (.list []) =
      .ok (.list (entries.map fun e => carried (.obj e.toRecord))) := by
  obtain ⟨entries, hentries, h⟩ := of_bind h
  obtain ⟨metadata, -, h⟩ := of_bind h
  cases h
  refine ⟨entries, hentries, ?_⟩
  have hplain : Json.ArePlain "findings".toList := arePlain_of_all (by decide)
  simp only [carried, part, fields, namedFields, ok_bind, pure_eq_ok, Record.getD]
  rw [get?_carried hplain]
  simp only [reverse_cons, nil_append, cons_append, Record.get?_cons, if_true, Option.map_some,
    Option.getD_some, carried, carriedAll_eq_map, map_map, reverse_nil]
  rfl

/-- **What comes back of a report of findings** is, to a comparison, what is saved of each. -/
lemma exists_saved_of_document (h : document facts (findings.map .obj) = .ok d) :
    ∃ records : List Record, (carried d).part "findings" (.list []) = .ok (.list (records.map .obj)) ∧
      Forall₂ Agree records (findings.map saved) := by
  obtain ⟨entries, hentries, hpart⟩ := part_carried_of_document h
  refine ⟨entries.map fun e => ofFields (carriedFields e.toRecord), ?_, ?_⟩
  · simp only [hpart, carried, map_map]
    rfl
  · rw [forall₂_map_left_iff, forall₂_map_right_iff]
    refine (forall₂_of_entriesFrom hentries).flip.imp fun e g ⟨number, he⟩ name hname => ?_
    have hplain := arePlain_of_mem_compared hname
    obtain ⟨-, g', hfields, -, htold⟩ := get?_toRecord he
    cases hfields
    rw [get?_carried hplain, htold name (mem_append_left _ hname), saved, get?_carriedFields hplain]
    simp only [compared, mem_cons, not_mem_nil, or_false] at hname
    rcases hname with rfl | rfl | rfl | rfl | rfl | rfl <;> simp

lemma get?_saved (hname : name ∈ compared) (g : Record) : (saved g).get? name =
    (get? (given "file" (reportFile g) ++ given "line" (reportLine g) ++
      [("type", reportType g), ("message", reportMessage g)]) name).map carried :=
  get?_carriedFields (arePlain_of_mem_compared hname) _

lemma printOf_saved (h : printOf (.obj (saved g)) = .ok q) :
    joinable (carried (reportType g)) = .ok q.key.rule ∧ joinable (carried (reportMessage g)) = .ok q.key.message := by
  have hrule : ruleOf (saved g) = carried (reportType g) := by
    unfold ruleOf Record.getD
    rw [get?_saved (by decide), get?_saved (by decide)]
    simp [get?_given]
  have hmessage : messageOf (saved g) = carried (reportMessage g) := by
    unfold messageOf Record.getD
    rw [get?_saved (by decide), get?_saved (by decide)]
    simp [get?_given]
  unfold printOf at h
  obtain ⟨fields, hfields, h⟩ := of_bind h
  cases hfields
  rw [hrule, hmessage] at h
  obtain ⟨file, -, h⟩ := of_bind h
  obtain ⟨rule, hrule, h⟩ := of_bind h
  obtain ⟨message, hmessage, h⟩ := of_bind h
  cases h
  exact ⟨hrule, hmessage⟩

end Baseline

end CodeAudit

/-!
## Scanning again against a saved baseline

Compared with the baseline that it has saved itself, a scan of unchanged code should have nothing new to report;
`rescan` saves, loads and compares. What is compared is what is `saved` of the findings. All are known again exactly
when each is recognised among what is saved of all, as it is or on a line not far off (`rescan_eq_nil_iff`). A finding
that a report keeps as it is always is (`recognised_of_agree`), a tainted variable never (`taint_not_recognised`).
-/

namespace CodeAudit.Baseline

open Proofs Proofs.Steps List Json Value Action Except

variable {files : FileTree}

/-- Saves findings as a baseline, and compares the same findings with it. -/
def rescan (path : String) (facts : Report.Facts) (findings : List Value) : Action (List Value × List Value) := do
  save path facts findings
  let baseline ← reading (load · path)
  Action.ofExcept (split baseline findings)

/-! ## What is recognised -/

def comparedLine (r : Record) : Value := r.getD "line" (.int 0)

def Comparable (r : Record) : Prop := (∃ p, printOf (.obj r) = .ok p) ∧ (comparedLine r).hashable

def HasKey (r : Record) (key : Key) : Prop := ∃ p, printOf (.obj r) = .ok p ∧ p.key = key

lemma atLeast_int (a b : Int) : (int a).atLeast (.int b) = .ok (decide (b ≤ a)) := by
  simp only [atLeast, order, number?, Number.compare?, ok_bind]
  rcases lt_trichotomy a b with h | h | h
  · rw [compare_lt_iff_lt.mpr h, decide_eq_false (by omega)]
    rfl
  · rw [compare_eq_iff_eq.mpr h, decide_eq_true (by omega)]
    rfl
  · rw [compare_gt_iff_gt.mpr h, decide_eq_true (by omega)]
    rfl

/-- Two lines are so close that a finding may have moved from one to the other. -/
def Near (a b : Value) : Prop := ∃ d, distance a b = .ok d ∧ standardTolerance.atLeast d = .ok true

/-- Two lines have a distance, but are not close. -/
def Far (a b : Value) : Prop := ∃ d, distance a b = .ok d ∧ standardTolerance.atLeast d = .ok false

/-- One of some records is reached past the ones before it. -/
def Reached (here past : Record → Prop) (among : List Record) : Prop :=
  ∃ earlier r later, among = earlier ++ r :: later ∧ here r ∧ ∀ e ∈ earlier, past e

/-- One of the others has the same print, or the same key and is near. All lines of the key before must have a distance.
-/
def Recognised (f : Record) (among : List Record) : Prop :=
  ∃ p, printOf (.obj f) = .ok p ∧ ((∃ r ∈ among, ∃ q, printOf (.obj r) = .ok q ∧ q.text = p.text) ∨
      Reached (fun r => HasKey r p.key ∧ Near (comparedLine f) (comparedLine r))
        (fun r => HasKey r p.key → Far (comparedLine f) (comparedLine r)) among)

lemma not_reached_nil (here past : Record → Prop) : ¬ Reached here past [] := by
  rintro ⟨earlier, r, later, h, -⟩
  exact absurd h (by simp)

lemma reached_cons : Reached here past (r :: rest) ↔ here r ∨ past r ∧ Reached here past rest := by
  constructor
  · rintro ⟨earlier, s, later, h, hs, hearlier⟩
    cases earlier with
    | nil =>
      cases h
      exact .inl hs
    | cons e earlier =>
      rw [cons_append, cons.injEq] at h
      obtain ⟨rfl, h⟩ := h
      rw [forall_mem_cons] at hearlier
      exact .inr ⟨hearlier.1, earlier, s, later, h, hs, hearlier.2⟩
  · rintro (hr | ⟨hr, earlier, s, later, rfl, hs, hearlier⟩)
    · exact ⟨[], r, rest, rfl, hr, nofun⟩
    · exact ⟨r :: earlier, s, later, rfl, hs, forall_mem_cons.mpr ⟨hr, hearlier⟩⟩

lemma isNear_cons_iff {line} :
    isNear standardTolerance line (known :: rest) = .ok true ↔
      Near line known ∨ Far line known ∧ isNear standardTolerance line rest = .ok true := by
  simp only [isNear, bind_eq_ok_iff, Near, Far]
  constructor
  · rintro ⟨d, hd, answer, hanswer, h⟩
    cases answer with
    | true => exact .inl ⟨d, hd, hanswer⟩
    | false => exact .inr ⟨⟨d, hd, hanswer⟩, h⟩
  · rintro (⟨d, hd, hanswer⟩ | ⟨⟨d, hd, hanswer⟩, h⟩)
    · exact ⟨d, hd, true, hanswer, rfl⟩
    · exact ⟨d, hd, false, hanswer, h⟩

variable {records : List Record} {prints : List Print} {findings : List Record} {g : Record} {q : Print}

def ArePrints (records : List Record) (prints : List Print) : Prop :=
  Forall₂ (fun r p => printOf (.obj r) = .ok p) records prints

lemma isNear_lines_iff (h : ArePrints records prints) (line : Value) (key : Key) :
    isNear standardTolerance line ((((prints.map (·.key)).zip (records.map comparedLine)).filter
      fun entry => entry.1 == key).map (·.2)) = .ok true ↔
        Reached (fun r => HasKey r key ∧ Near line (comparedLine r)) (fun r => HasKey r key → Far line (comparedLine r))
          records := by
  induction h with
  | nil => exact ⟨nofun, fun h => absurd h (not_reached_nil _ _)⟩
  | @cons r p rest ps hprint hrest ih =>
    have hkey : HasKey r key ↔ p.key = key := by simp [HasKey, hprint]
    rw [map_cons, map_cons, zip_cons_cons, filter_cons, reached_cons, hkey, ← ih]
    by_cases hsame : p.key = key
    · rw [if_pos (beq_iff_eq.mpr hsame), map_cons, isNear_cons_iff]
      simp only [hsame, true_and, true_implies]
    · rw [if_neg fun heq => hsame (beq_iff_eq.mp heq)]
      simp only [hsame, false_and, false_implies, true_and, false_or]

/-- What some records let a baseline know. -/
def knownOf (records : List Record) (prints : List Print) : Known where
  prints := prints.map (·.text)
  lines := (prints.map (·.key)).zip (records.map comparedLine)

lemma ofFindings_eq_ok_iff : Known.ofFindings (records.map .obj) = .ok known ↔
    (∀ r ∈ records, (comparedLine r).hashable) ∧
      ∃ prints, ArePrints records prints ∧ known = knownOf records prints := by
  have hlines : (records.map obj).mapM (fun f => f.part "line" (.int 0)) = .ok (records.map comparedLine) := by
    rw [mapM_eq_ok_iff, forall₂_map_left_iff, forall₂_map_right_iff]
    exact forall₂_same.mpr fun r _ => rfl
  unfold Known.ofFindings
  simp only [hlines, ok_bind, bind_eq_ok_iff, mapM_eq_ok_iff, forall₂_map_left_iff, pure_eq_ok, throw_eq_error]
  rw [← forall_mem_map (f := comparedLine) (P := fun line => line.hashable), ← all_eq_true]
  cases (records.map comparedLine).all hashable with
  | false => simp
  | true =>
    constructor
    · rintro ⟨prints, hprints, ⟨⟩⟩
      exact ⟨rfl, prints, hprints, rfl⟩
    · rintro ⟨-, prints, hprints, rfl⟩
      exact ⟨prints, hprints, rfl⟩

/-- A baseline of records knows a finding exactly when it is recognised among them. -/
lemma has_knownOf_iff (h : ArePrints records prints) (f : Record) :
    (knownOf records prints).has standardTolerance (.obj f) = .ok true ↔ Recognised f records := by
  unfold Known.has Recognised
  rw [bind_eq_ok_iff]
  refine exists_congr fun p => and_congr_right fun hp => ?_
  have hcontains : (prints.map (·.text)).contains p.text ↔
      ∃ r ∈ records, ∃ q, printOf (.obj r) = .ok q ∧ q.text = p.text := by
    rw [contains_iff_mem, mem_map]
    constructor
    · rintro ⟨q, hq, htext⟩
      obtain ⟨r, hr, hprint⟩ := exists_mem_of_forall₂ h hq
      exact ⟨r, hr, q, hprint, htext⟩
    · rintro ⟨r, hr, q, hprint, htext⟩
      obtain ⟨q', hq', hprint'⟩ := exists_mem_of_forall₂ h.flip hr
      cases ok.inj (hprint.symm.trans hprint')
      exact ⟨q, hq', htext⟩
  rw [← hcontains, ← isNear_lines_iff h]
  change (if (prints.map (·.text)).contains p.text = true then pure true else
    isNear standardTolerance (comparedLine f) _) = _ ↔ _
  by_cases hsame : (prints.map (·.text)).contains p.text
  · rw [if_pos hsame]
    exact ⟨fun _ => .inl hsame, fun _ => rfl⟩
  · rw [if_neg hsame]
    exact ⟨.inr, fun hor => hor.resolve_left hsame⟩

lemma split_eq_nil_iff {items findings : List Value} : split (.list items) findings = .ok ([], findings) ↔
    ∃ known, Known.ofFindings items = .ok known ∧ ∀ f ∈ findings, known.has standardTolerance f = .ok true := by
  unfold split
  simp only [elements, ok_bind, bind_eq_ok_iff, pure_eq_ok, ok.injEq, Prod.mk.injEq]
  refine exists_congr fun known => and_congr_right fun _ => ?_
  constructor
  · rintro ⟨marked, hmarked, hnew, -⟩ f hf
    obtain ⟨m, hm, hstep⟩ := exists_result_of_mapM hmarked hf
    obtain ⟨found, hfound, h⟩ := of_bind hstep
    cases h
    cases found with
    | true => exact hfound
    | false =>
      rw [map_eq_nil_iff, filter_eq_nil_iff] at hnew
      exact absurd rfl (hnew _ hm)
  · intro hknown
    refine ⟨findings.map (·, true), ?_, ?_, ?_⟩
    · rw [mapM_eq_ok_iff, forall₂_map_right_iff]
      refine forall₂_same.mpr fun f hf => ?_
      rw [hknown f hf]
      rfl
    · rw [map_eq_nil_iff, filter_eq_nil_iff]
      rintro m hm hnot
      obtain ⟨f, -, rfl⟩ := mem_map.mp hm
      cases hnot
    · rw [filter_eq_self.mpr fun m hm => by obtain ⟨f, -, rfl⟩ := mem_map.mp hm; rfl, map_map]
      exact map_id findings

lemma split_congr (h : Forall₂ Agree records others) (findings : List Value) :
    split (.list (records.map .obj)) findings = split (.list (others.map .obj)) findings := by
  have hprints : (records.map obj).mapM printOf = (others.map obj).mapM printOf := by
    refine mapM_congr_forall₂ ?_
    rw [forall₂_map_left_iff, forall₂_map_right_iff]
    exact h.imp fun _ _ hagree => hagree.printOf_eq
  have hlines : (records.map obj).mapM (fun f => f.part "line" (.int 0)) =
      (others.map obj).mapM fun f => f.part "line" (.int 0) := by
    refine mapM_congr_forall₂ ?_
    rw [forall₂_map_left_iff, forall₂_map_right_iff]
    exact h.imp fun _ _ hagree => congrArg ok (hagree.getD_eq "line" (by decide) _)
  simp only [split, elements, ok_bind, Known.ofFindings, hprints, hlines]

/-! ## Saving and loading -/

section Saving

variable {path : String} {facts : Report.Facts} {findings : List Record} {host : Host} {d : Value} {after : FileTree}

def savedText (d : Value) : String := write .pretty d ++ "\n"

lemma arePlain_savedText (d : Value) : ArePlain (savedText d).toList := by
  unfold savedText
  rw [String.toList_append]
  exact (arePlain_write Layout.isPlain_pretty d).append (.cons (by decide) arePlain_nil)

lemma read_savedText (d : Value) : read (savedText d) = kept deepest d :=
  read_write Layout.isSound_pretty d String.toList_append (all_eq_true.mp rfl)

lemma text_of_writeText (h : files.writeText path (savedText d) = .ok after) :
    after.text .refuse path = .ok (savedText d) := by
  refine FileTree.text_of_writeText h ?_ .refuse
  rintro c hc rfl
  exact absurd (arePlain_savedText d _ hc) (by decide)

/-- What is loaded of a saved report within the bounds are the findings of the report as it is carried. -/
lemma load_of_savedText (hfits : Fits deepest d) (htext : files.text .refuse path = .ok (savedText d))
    (hpart : (carried d).part "findings" (.list []) = .ok (.list items)) : load files path = .ok (.list items) := by
  have hread : (files.text .refuse path).bind read = .ok (carried d) := by
    rw [htext, ← kept_of_fits hfits, ← read_savedText]
    rfl
  unfold load
  rw [hread]
  dsimp only
  rw [hpart]
  rfl

def IsWritable (files : FileTree) (path : String) : Prop := ∃ after, files.writeText path "" = .ok after

/-- The report of findings can be made, and lies within the bounds of the reader. -/
def IsReadable (facts : Report.Facts) (findings : List Record) : Prop :=
  ∃ d, JsonReport.document facts (findings.map .obj) = .ok d ∧ Json.Fits deepest d

lemma isWritable_of_writeText (h : files.writeText path s = .ok after) : IsWritable files path := by
  obtain ⟨place, -, hwrite⟩ := FileTree.write_eq_ok h
  exact ⟨_, hwrite (.text "")⟩

lemma IsWritable.exists_writeText (h : IsWritable files path) (s : String) :
    ∃ after, files.writeText path s = .ok after := by
  obtain ⟨after, h⟩ := h
  obtain ⟨place, -, hwrite⟩ := FileTree.write_eq_ok h
  exact ⟨_, hwrite (.text s)⟩

/-- **Saving succeeds** where a report within the bounds can be made and its text be written, and does just that. -/
lemma on_save_eq_ok_iff {findings : List Value} {after : Host} :
    on (save path facts findings) host = (.ok (), after) ↔
      ∃ d files, JsonReport.document facts findings = .ok d ∧ Json.Fits deepest d ∧
        host.files.writeText path (savedText d) = .ok files ∧ after = { host with files } := by
  have hjoin : ∀ s, String.join [s] = s := fun s => by simp [String.join]
  simp only [save, Action.writeText, on_bind_eq_ok_iff, on_ofExcept_eq_ok_iff, on_writeParts_eq_ok_iff, forall_mem_singleton,
    hjoin, JsonReport.write, bind_eq_ok_iff, writeWithin_eq_ok_iff]
  constructor
  · rintro ⟨_, _, ⟨⟨d, hd, hfits, rfl⟩, rfl⟩, -, files, hfiles, rfl⟩
    exact ⟨d, files, hd, hfits, hfiles, rfl⟩
  · rintro ⟨d, files, hd, hfits, hfiles, rfl⟩
    exact ⟨_, host, ⟨⟨d, hd, hfits, rfl⟩, rfl⟩, (arePlain_savedText d).isEncodable, files, hfiles, rfl⟩

/-- **A scan against its own baseline compares the findings with what is saved of them.** -/
lemma rescan_eq_ok_iff :
    (on (rescan path facts (findings.map .obj)) host).1 = .ok result ↔
      IsWritable host.files path ∧ IsReadable facts findings ∧
        split (.list ((findings.map saved).map .obj)) (findings.map .obj) = .ok result := by
  -- once the report is written, what is loaded of it leads to the same comparison as what is saved of the findings
  have hcompare : ∀ {d files}, JsonReport.document facts (findings.map .obj) = .ok d → Json.Fits deepest d →
      host.files.writeText path (savedText d) = .ok files → on (do
          let baseline ← reading (load · path)
          Action.ofExcept (split baseline (findings.map .obj))) { host with files } =
            (split (.list ((findings.map saved).map .obj)) (findings.map .obj), { host with files }) := by
    intro d files hd hfits hfiles
    obtain ⟨records, hpart, hagree⟩ := exists_saved_of_document hd
    rw [on_bind, on_reading]
    dsimp only
    rw [load_of_savedText hfits (text_of_writeText hfiles) hpart]
    dsimp only
    rw [on_ofExcept, split_congr hagree]
  constructor
  · intro hresult
    have hrun : on (rescan path facts (findings.map .obj)) host = (.ok result, _) := Prod.ext hresult rfl
    obtain ⟨_, between, hsave, hrest⟩ := of_on_bind hrun
    obtain ⟨d, files, hd, hfits, hfiles, rfl⟩ := on_save_eq_ok_iff.mp hsave
    rw [hcompare hd hfits hfiles] at hrest
    exact ⟨isWritable_of_writeText hfiles, ⟨d, hd, hfits⟩, congrArg Prod.fst hrest⟩
  · rintro ⟨hwritable, ⟨d, hd, hfits⟩, hsplit⟩
    obtain ⟨files, hfiles⟩ := hwritable.exists_writeText (savedText d)
    have hsave := on_save_eq_ok_iff.mpr ⟨d, files, hd, hfits, hfiles, rfl⟩
    have hrest := hcompare hd hfits hfiles
    rw [hsplit] at hrest
    exact congrArg Prod.fst (on_bind_eq_ok_iff.mpr ⟨_, _, hsave, hrest⟩)

end Saving

/-! ## What is kept and what is lost -/

/-- What a report keeps as it is, is recognised. -/
lemma recognised_of_agree (hg : g ∈ findings) (h : Agree g (saved g))
    (hcomparable : Comparable (saved g)) : Recognised g (findings.map saved) := by
  obtain ⟨⟨p, hp⟩, -⟩ := hcomparable
  exact ⟨p, h.printOf_eq.trans hp, .inl ⟨saved g, mem_map_of_mem hg, p, hp, rfl⟩⟩

lemma message_ne_empty_of_taint (hkind : reportType g = .str kind)
    (h : printOf (.obj (saved g)) = .ok q) (hrule : q.key.rule = "taint_analysis") : q.key.message ≠ "" := by
  obtain ⟨hr, hm⟩ := printOf_saved h
  have htype : kind = "taint_analysis" := by
    rw [hkind, carried, joinable, ok.injEq, hrule] at hr
    exact (mendedText_eq_iff (arePlain_of_all (by decide)) kind).mp hr
  obtain ⟨text, htext, hne⟩ : ∃ text, reportMessage g = .str text ∧ text ≠ "" := by
    unfold reportMessage
    rw [hkind, htype]
    refine ⟨_, rfl, fun hempty => ?_⟩
    simp only [String.append_eq_empty_iff] at hempty
    exact absurd hempty.1.1.1.1 (by decide)
  rw [htext, carried, joinable, ok.injEq] at hm
  intro hempty
  rw [hempty, mendedText_eq_iff (by exact arePlain_nil)] at hm
  exact hne hm

lemma printOf_taint (f : Python.TaintFinding) :
    printOf (.obj f.toRecord) = .ok { key := { file := "", rule := "taint_analysis", message := "" }, line := "" } := rfl

lemma eq_nil_of_append_cons (hcs : sep ∉ cs) (h : cs ++ sep :: rest = sep :: ds) : cs = [] ∧ rest = ds := by
  cases cs with
  | nil => exact ⟨rfl, (cons.inj h).2⟩
  | cons c cs =>
    rw [cons_append, cons.injEq] at h
    exact absurd (h.1 ▸ mem_cons_self) hcs

/-- A print whose text is that of a tainted variable has its rule, and no message. -/
lemma key_of_text_eq (h : q.text = "||taint_analysis|") : q.key.rule = "taint_analysis" ∧ q.key.message = "" := by
  obtain ⟨⟨file, rule, message⟩, line⟩ := q
  have hchars : file.toList ++ '|' :: (line.toList ++ '|' :: (rule.toList ++ '|' :: message.toList)) =
      '|' :: '|' :: ("taint_analysis".toList ++ ['|']) := by
    have h' := congrArg String.toList h
    simp only [Print.text, Text.join, String.toList_intercalate, map_cons, map_nil] at h'
    simpa using h'
  -- there are three bars on both sides, so none is part of a field
  have hbars : file.toList.count '|' + (line.toList.count '|' + (rule.toList.count '|' +
      (message.toList.count '|' + 1) + 1) + 1) = 3 := by
    have hcount := congrArg (count '|') hchars
    simp only [count_append, count_cons_self] at hcount
    exact hcount
  obtain ⟨-, hchars⟩ := eq_nil_of_append_cons (count_eq_zero.mp (by omega)) hchars
  obtain ⟨-, hchars⟩ := eq_nil_of_append_cons (count_eq_zero.mp (by omega)) hchars
  rw [append_cons_inj_of_notMem (count_eq_zero.mp (by omega)) (count_eq_zero.mp (by omega))] at hchars
  exact ⟨String.toList_inj.mp hchars.1, String.toList_inj.mp hchars.2.2⟩

/-- **A tainted variable is never recognised**: it has no message of its own, and is saved with one. -/
lemma taint_not_recognised (hkinds : ∀ g ∈ findings, ∃ kind, reportType g = .str kind)
    (f : Python.TaintFinding) : ¬ Recognised f.toRecord (findings.map saved) := by
  rintro ⟨p, hp, h⟩
  cases ok.inj (hp.symm.trans (printOf_taint f))
  obtain ⟨g, hg, q, hq, hrule, hmessage⟩ : ∃ g ∈ findings, ∃ q, printOf (.obj (saved g)) = .ok q ∧
      q.key.rule = "taint_analysis" ∧ q.key.message = "" := by
    rcases h with ⟨r, hr, q, hq, htext⟩ | ⟨earlier, r, later, hsplit, ⟨⟨q, hq, hkey⟩, -⟩, -⟩
    · obtain ⟨g, hg, rfl⟩ := mem_map.mp hr
      exact ⟨g, hg, q, hq, key_of_text_eq htext⟩
    · have hr : r ∈ findings.map saved := by
        rw [hsplit]
        exact mem_append_right _ mem_cons_self
      obtain ⟨g, hg, rfl⟩ := mem_map.mp hr
      exact ⟨g, hg, q, hq, by rw [hkey], by rw [hkey]⟩
  obtain ⟨kind, hkind⟩ := hkinds g hg
  exact message_ne_empty_of_taint hkind hq hrule hmessage

/-! ## Scanning again -/

/-- **When a scan of unchanged code has nothing new to report.** The baseline is written and read without a fault, what
it holds is comparable, and every finding is recognised among what was saved. -/
theorem rescan_eq_nil_iff (path : String) (facts : Report.Facts) (findings : List Record) (host : Host) :
    (on (rescan path facts (findings.map .obj)) host).1 = .ok ([], findings.map .obj) ↔
      IsWritable host.files path ∧ IsReadable facts findings ∧ (∀ g ∈ findings, Comparable (saved g)) ∧
        ∀ f ∈ findings, Recognised f (findings.map saved) := by
  rw [rescan_eq_ok_iff, split_eq_nil_iff]
  refine and_congr_right fun _ => and_congr_right fun _ => ?_
  constructor
  · rintro ⟨known, hknown, hall⟩
    obtain ⟨hlines, prints, hprints, rfl⟩ := ofFindings_eq_ok_iff.mp hknown
    refine ⟨fun g hg => ⟨?_, hlines _ (mem_map_of_mem hg)⟩, fun f hf => ?_⟩
    · obtain ⟨p, -, hp⟩ := exists_result_of_mapM (mapM_eq_ok_iff.mpr hprints) (mem_map_of_mem hg)
      exact ⟨p, hp⟩
    · exact (has_knownOf_iff hprints f).mp (hall _ (mem_map_of_mem hf))
  · rintro ⟨hcomparable, hall⟩
    have hsaved : ∀ r ∈ findings.map saved, Comparable r := by
      intro r hr
      obtain ⟨g, hg, rfl⟩ := mem_map.mp hr
      exact hcomparable g hg
    obtain ⟨prints, hprints⟩ := exists_mapM_eq_ok fun r hr => (hsaved r hr).1
    have harePrints : ArePrints (findings.map saved) prints := mapM_eq_ok_iff.mp hprints
    refine ⟨_, ofFindings_eq_ok_iff.mpr ⟨fun r hr => (hsaved r hr).2, prints, harePrints, rfl⟩, fun v hv => ?_⟩
    obtain ⟨f, hf, rfl⟩ := mem_map.mp hv
    exact (has_knownOf_iff harePrints f).mpr (hall f hf)

def bareHost : Host := hostOf FileTree.empty

def bareFacts : Report.Facts where
  path := .str ""
  duration := .float 0.0
  fileCount := .int 0
  now := bareHost.now

def reportedFinding : Record :=
  [("type", .str "sql_injection"), ("file", .str "a.py"), ("line", .int 3), ("message", .str "Query built from input")]

/-- What reaches `eval` in the program `x = input(); eval(x)`. -/
def evaluatedInput : Python.TaintFinding where
  var := "x"
  source := { line := 1, call := "input" }
  sink := { line := 2, call := "eval" }

/-- A finding in the form of reports is known again; a tainted variable is new again. -/
theorem rescan_bareHost :
    (on (rescan "b.json" bareFacts [.obj reportedFinding]) bareHost).1 = .ok ([], [.obj reportedFinding]) ∧
      (on (rescan "b.json" bareFacts [.obj evaluatedInput.toRecord]) bareHost).1 ≠
        .ok ([], [.obj evaluatedInput.toRecord]) := by
  constructor
  · have hreadable : IsReadable bareFacts [reportedFinding] := ⟨_, rfl, by decide, by decide +kernel⟩
    have hagree : Agree reportedFinding (saved reportedFinding) := by
      intro name hname
      simp only [compared, mem_cons, not_mem_nil, or_false] at hname
      rcases hname with rfl | rfl | rfl | rfl | rfl | rfl <;> rfl
    have hcomparable : ∀ g ∈ [reportedFinding], Comparable (saved g) := by
      intro g hg
      rw [mem_singleton.mp hg]
      exact ⟨⟨_, rfl⟩, rfl⟩
    refine (rescan_eq_nil_iff "b.json" _ [reportedFinding] bareHost).mpr ⟨⟨_, rfl⟩, hreadable, hcomparable, ?_⟩
    intro f hf
    rw [mem_singleton.mp hf]
    exact recognised_of_agree mem_cons_self hagree (hcomparable _ mem_cons_self)
  · intro hknown
    have hall := ((rescan_eq_nil_iff "b.json" _ [evaluatedInput.toRecord] bareHost).mp hknown).2.2.2
    refine taint_not_recognised (fun g hg => ?_) evaluatedInput (hall _ mem_cons_self)
    rw [mem_singleton.mp hg]
    exact ⟨_, rfl⟩

end CodeAudit.Baseline

import CodeAudit.Dependencies.Advisory
import CodeAudit.Proofs.Outcome
import Mathlib.Data.List.Induction

/-!
# The shape of an advisory

Nothing is certain about an advisory but that it is a document. Reading one asks each part for its own, and is a fault
where a part is not of the expected kind. The tests here say what is expected, and an advisory can be read exactly when
it passes (`isOk_read`). A missing part is fine; a null is not.
-/

namespace CodeAudit

open Proofs List Record Decimal Except

variable {fields : Record} {n : Number}

/-- Whether a number has a double near it. -/
def Number.hasDouble : Number → Bool
  | .whole n => !(Decimal.ofInt n).isInf
  | .real _ => true

namespace Value

/-! ## Tests of parts -/

variable (v : Value)

/-- Whether a value can be run through, with elements that all pass a test. -/
def runsOver (test : Value → Bool) : Bool :=
  match v.elements with
  | .ok items => items.all test
  | .error _ => false

/-- Whether a value has fields, with one under a name, or what stands for it, that passes a test. -/
def holds (name : String) (default : Value) (test : Value → Bool) : Bool :=
  match v.namedFields with
  | some fields => test (getD fields name default)
  | none => false

def hasFields : Bool := v.namedFields.isSome

def isSequence : Value → Bool
  | .str _ | .list _ | .tuple _ => true
  | _ => false

/-- Whether a value can be asked for a word and does not have it. -/
def lacks (word : String) : Bool := ((str word).member v).toOption == some false

variable {v : Value} {β : Type} {test : Value → Bool}

lemma isOk_run {rest : List Value → Except Fault β}
    (h : ∀ items, (rest items).isOk = items.all test) : (v.elements >>= rest).isOk = v.runsOver test := by
  unfold runsOver
  cases v.elements with
  | error fault => rfl
  | ok items => exact h items

lemma isOk_asText (v : Value) : v.asText.isOk = v.isText := by
  cases v <;> rfl

lemma isOk_cut (n : Nat) (v : Value) : (v.cut n).isOk = v.isSequence := by
  cases v <;> rfl

lemma part_eq (v : Value) (name : String) (default : Value) :
    v.part name default = match v.namedFields with
      | some fields => .ok (getD fields name default)
      | none => .error .noSuchPart := by
  unfold part fields
  cases v.namedFields <;> rfl

lemma part_of_fields (h : v.namedFields = some fields) (name : String) (default : Value) :
    v.part name default = .ok (getD fields name default) := by
  rw [part_eq, h]

lemma isOk_part (v : Value) (name : String) (default : Value) : (v.part name default).isOk = v.hasFields := by
  unfold hasFields
  rw [part_eq]
  cases v.namedFields <;> rfl

lemma isOk_part_bind {name : String} {default : Value}
    {rest : Value → Except Fault β} (h : ∀ x, (rest x).isOk = test x) :
    (v.part name default >>= rest).isOk = v.holds name default test := by
  unfold holds
  rw [part_eq]
  cases v.namedFields with
  | none => rfl
  | some fields => exact h _

lemma same_str (a : String) (b : Value) : (str a).same b ↔ b = .str a := by
  cases b with
  | str b =>
    rw [same, beq_iff_eq, str.injEq, eq_comm]
  | _ => simp [same, number?]

lemma member_of_hasFields (h : v.hasFields) (word : String) : ∃ b, (str word).member v = .ok b := by
  cases v <;> first | exact ⟨_, rfl⟩ | cases h

lemma isOk_need (h : (str word).member v = .ok true) : (v.need word).isOk = v.hasFields := by
  have hnamed : ∀ fields, v.namedFields = some fields → (∃ x, (word, x) ∈ fields) → (v.need word).isOk := by
    rintro fields hfields ⟨x, hx⟩
    have hsome : (fields.find? (·.1 == word)).isSome := find?_isSome.mpr ⟨_, hx, beq_self_eq_true _⟩
    obtain ⟨found, hfound⟩ := Option.isSome_iff_exists.mp hsome
    unfold need get?
    rw [hfields]
    dsimp only
    rw [hfound]
    rfl
  cases v with
  | obj fields =>
    refine hnamed fields rfl ?_
    have hany : (str word).isOneOf (fields.map fun f => .str f.1) := ok.inj h
    obtain ⟨_, hname, hsame⟩ := any_eq_true.mp hany
    obtain ⟨f, hf, rfl⟩ := mem_map.mp hname
    cases (same_str _ _).mp hsame
    exact ⟨f.2, hf⟩
  | map entries =>
    refine hnamed _ rfl ?_
    have hany : (str word).isOneOf (entries.map (·.1)) := ok.inj h
    obtain ⟨_, hname, hsame⟩ := any_eq_true.mp hany
    obtain ⟨e, he, rfl⟩ := mem_map.mp hname
    refine ⟨e.2, mem_filterMap.mpr ⟨e, he, ?_⟩⟩
    obtain ⟨k, x⟩ := e
    cases (same_str _ _).mp hsame
    rfl
  | _ => rfl

lemma toFloat?_of_number (h : v.number? = some n) :
    v.toFloat? = if n.hasDouble then .ok n.toFloat else .error .overflow := by
  unfold toFloat?
  rw [h]
  cases n with
  | whole n =>
    show (if (ofInt n).isInf = true then _ else _) = if (!(ofInt n).isInf) = true then _ else _
    cases (ofInt n).isInf
    · rw [if_neg Bool.false_ne_true, Bool.not_false, if_pos rfl]
    · rw [if_pos rfl, Bool.not_true, if_neg Bool.false_ne_true]
  | real x => rfl

lemma isOk_toFloat? (h : v.number? = some n) : v.toFloat?.isOk = n.hasDouble := by
  rw [toFloat?_of_number h]
  cases n.hasDouble <;> rfl

end Value

namespace Advisory

open Value

/-! ## What is expected -/

def isSeverity (entry : Value) : Bool := entry.holds "type" (.str "") isText

/-- What the database adds has a score that has a double, or else a text for its severity. -/
def isOwnData (own : Value) : Bool :=
  match own.namedFields with
  | some fields =>
    match ((getD fields "cvss_score" .null).orElse (getD fields "score" .null)).number? with
    | some score => score.hasDouble
    | none => (getD fields "severity" (.str "")).isText
  | none => false

/-- An event has fields; or else it can be asked for the words, and has neither. -/
def isEvent (event : Value) : Bool := event.hasFields || (event.lacks "introduced" && event.lacks "fixed")

def isRange (range : Value) : Bool := range.holds "events" (.list []) (·.runsOver isEvent)

def isAffected (affected : Value) : Bool := affected.holds "ranges" (.list []) (·.runsOver isRange)

/-- Whether a value has the shape of an advisory. -/
def isReadable (vuln : Value) : Bool :=
  match vuln.namedFields with
  | some fields =>
    (getD fields "summary" (getD fields "details" (.str "No description available"))).isSequence &&
    (getD fields "aliases" (.list [])).runsOver isText &&
    (getD fields "severity" (.list [])).runsOver isSeverity &&
    isOwnData (getD fields "database_specific" (.obj [])) &&
    (getD fields "references" (.list [])).runsOver hasFields &&
    (getD fields "affected" (.list [])).runsOver isAffected
  | none => false

/-! ## Reading the parts -/

lemma isOk_readBound (event : Value) (name : String) (before : Value) :
    (readBound event name before).isOk = (event.hasFields || event.lacks name) := by
  unfold readBound lacks
  cases hmember : (str name).member event with
  | error fault =>
    have hnone : event.hasFields = false := by
      by_contra hfields
      obtain ⟨b, hb⟩ := member_of_hasFields (Bool.of_not_eq_false hfields) name
      rw [hmember] at hb
      cases hb
    rw [hnone]
    rfl
  | ok there =>
    rw [ok_bind]
    cases there with
    | true =>
      rw [if_pos rfl, isOk_need hmember]
      cases event.hasFields <;> rfl
    | false =>
      cases event.hasFields <;> rfl

lemma isOk_readBounds (events : List Value) : (readBounds events).isOk = events.all isEvent := by
  refine isOk_foldlM (fun range event => ?_) events _
  have hboth := isOk_bind (isOk_readBound event "introduced" range.introduced) fun introduced =>
    (isOk_bind_pure (readBound event "fixed" range.fixed) (AffectedRange.mk introduced)).trans
      (isOk_readBound event "fixed" range.fixed)
  rw [hboth, isEvent]
  cases event.hasFields <;> rfl

lemma isOk_readRange (range : Value) : (readRange range).isOk = isRange range := by
  refine isOk_part_bind fun events => isOk_run fun items => ?_
  rw [isOk_bind_pure, isOk_readBounds]

lemma isOk_readAffected (affected : Value) : (readAffected affected).isOk = isAffected affected := by
  refine isOk_part_bind fun ranges => isOk_run fun items => ?_
  rw [isOk_bind_pure, isOk_mapM isOk_readRange]

variable {vuln : Value}

lemma isOk_readRanges (h : vuln.namedFields = some fields) :
    (readRanges vuln).isOk = (getD fields "affected" (.list [])).runsOver isAffected := by
  unfold readRanges
  rw [part_of_fields h, ok_bind]
  refine isOk_run fun items => ?_
  rw [isOk_bind_pure, isOk_mapM isOk_readAffected]

lemma isOk_ofScore {score : Value} (h : score.number? = some n) : (AdvisoryLevel.ofScore score).isOk := by
  have hatLeast : ∀ x, ∃ b, score.atLeast (.float x) = .ok b := by
    intro x
    have horder : score.order (.float x) = .ok (n.compare? (.real x)) := by
      cases score <;> cases h <;> simp [order, number?]
    unfold atLeast
    rw [horder, ok_bind]
    split <;> exact ⟨_, rfl⟩
  obtain ⟨b₉, h₉⟩ := hatLeast 9.0
  obtain ⟨b₇, h₇⟩ := hatLeast 7.0
  obtain ⟨b₄, h₄⟩ := hatLeast 4.0
  unfold AdvisoryLevel.ofScore
  rw [h₉, h₇, h₄]
  cases b₉ <;> cases b₇ <;> cases b₄ <;> rfl

lemma isOk_readSeverity (entry : Value) :
    (do
      let kind ← entry.part "type" (.str "")
      let _ ← entry.part "score" (.str "")
      let _ ← kind.asText
      pure (ForInStep.yield PUnit.unit) : Except Fault (ForInStep PUnit)).isOk = isSeverity entry := by
  unfold isSeverity holds
  rw [part_eq, part_eq]
  cases entry.namedFields with
  | none => rfl
  | some fields => exact (isOk_bind_pure _ _).trans (isOk_asText _)

lemma isOk_readLevel (h : vuln.namedFields = some fields) :
    (readLevel vuln).isOk = ((getD fields "severity" (.list [])).runsOver isSeverity &&
      isOwnData (getD fields "database_specific" (.obj []))) := by
  unfold readLevel
  rw [part_of_fields h, part_of_fields h, ok_bind, ← bind_assoc]
  refine isOk_bind ?_ fun _ => ?_
  · refine isOk_run fun items => isOk_forIn isOk_readSeverity ?_ items
    intro entry step hstep
    simp only [bind_eq_ok_iff] at hstep
    obtain ⟨_, _, _, _, _, _, hstep⟩ := hstep
    exact (ok.inj hstep).symm
  · unfold isOwnData
    rw [ok_bind]
    generalize getD fields "database_specific" (.obj []) = own
    simp only [part_eq]
    cases own.namedFields with
    | none => rfl
    | some fields =>
      simp only [ok_bind]
      cases hscore : ((getD fields "cvss_score" .null).orElse (getD fields "score" .null)).number? with
      | none => exact (isOk_bind_pure _ _).trans (isOk_asText _)
      | some score =>
        exact isOk_bind (isOk_ofScore hscore) fun level => (isOk_bind_pure _ _).trans (isOk_toFloat? hscore)

/-- **An advisory can be read exactly when it has the shape of one.** -/
lemma isOk_read (vuln : Value) : (read vuln).isOk = isReadable vuln := by
  unfold read isReadable
  cases hfields : vuln.namedFields with
  | none =>
    rw [part_eq, hfields]
    rfl
  | some fields =>
    simp only [part_of_fields hfields, ok_bind, Bool.and_assoc]
    refine isOk_bind (isOk_cut _ _) fun summary => ?_
    rw [← bind_assoc]
    refine isOk_bind (isOk_run fun aliases => isOk_filterM ?_ aliases) fun cves => ?_
    · intro v
      rw [isOk_bind_pure, isOk_asText]
    rw [← Bool.and_assoc]
    refine isOk_bind (isOk_readLevel hfields) fun level => ?_
    rw [← bind_assoc]
    refine isOk_bind (isOk_run fun references => isOk_mapM (fun r => isOk_part r "url" .null) references) fun urls => ?_
    rw [isOk_bind_pure, isOk_readRanges hfields]

lemma isOk_readAll (vulns : Value) : (readAll vulns).isOk = vulns.runsOver isReadable := by
  refine isOk_run fun items => isOk_mapM (fun v => ?_) items
  rw [isOk_bind_pure, isOk_read]

end Advisory

end CodeAudit

/-!
## Intervals of affected versions

Each version that introduces a flaw starts an interval, which lasts until the next version that fixes it. Of a range
one pair of versions is kept, the last that introduces and the last that fixes. So a range is kept as its intervals
exactly when it has at most one (`intervals_kept_iff`); of several, all but the last are lost, and an open one at the
end gets the fix of the one before.
-/

namespace CodeAudit.Advisory

open Proofs List Value

structure Interval where
  introduced : String
  fixed : Option String

namespace Interval

def events (i : Interval) : List Value :=
  .obj [("introduced", .str i.introduced)] :: i.fixed.toList.map fun version => .obj [("fixed", .str version)]

def entry (i : Interval) : AffectedRange := { introduced := .str i.introduced, fixed := .optText i.fixed }

end Interval

/-- Whether a range names a version at one end at least. -/
def isBounded (r : AffectedRange) : Bool := r.introduced.truthy || r.fixed.truthy

/-- The last version that introduces a flaw and the last that fixes it. -/
def lastBounds (intervals : List Interval) : AffectedRange where
  introduced := .optText (intervals.getLast?.map (·.introduced))
  fixed := .optText (intervals.filterMap (·.fixed)).getLast?

/-- The elements of a part of a value. -/
def listed (v : Value) (name : String) : Except Fault (List Value) := do (← v.part name (.list [])).elements

/-- The ranges of an advisory, in order. -/
def rangesIn (vuln : Value) : Except Fault (List Value) := do
  return (← (← listed vuln "affected").mapM (listed · "ranges")).flatten

variable {vuln range : Value} {intervals : List Interval}

/-! ## One range -/

lemma readBound_field (name word : String) (version before : Value) :
    readBound (.obj [(name, version)]) word before = .ok (if name = word then version else before) := by
  have hmember : (str word).member (.obj [(name, version)]) = .ok (decide (name = word)) := by
    have hsame : (str word).same (.str name) = decide (name = word) := by
      rw [Bool.eq_iff_iff, same_str, str.injEq, decide_eq_true_iff]
    simp [member, isOneOf, hashable, hsame]
  unfold readBound
  rw [hmember, ok_bind]
  by_cases h : name = word
  · simp [h, need, namedFields, Record.get?]
  · simp [h]

lemma readBounds_events (intervals : List Interval) :
    readBounds (intervals.flatMap Interval.events) = .ok (lastBounds intervals) := by
  induction intervals using List.reverseRecOn with
  | nil => rfl
  | append_singleton intervals i ih =>
    unfold readBounds at ih ⊢
    rw [flatMap_append, foldlM_append, ih, ok_bind]
    obtain ⟨introduced, fixed⟩ := i
    cases fixed with
    | none =>
      have hlast : lastBounds (intervals ++ [⟨introduced, none⟩]) =
          { lastBounds intervals with introduced := .str introduced } := by simp [lastBounds, optText]
      rw [hlast]
      simp [Interval.events, readBound_field]
    | some version =>
      have hlast : lastBounds (intervals ++ [⟨introduced, some version⟩]) = ⟨.str introduced, .str version⟩ := by
        simp [lastBounds, optText]
      rw [hlast]
      simp [Interval.events, readBound_field]

lemma readRange_events (h : listed range "events" = .ok (intervals.flatMap Interval.events)) :
    readRange range = .ok ([lastBounds intervals].filter isBounded) := by
  obtain ⟨events, hevents, helements⟩ := of_bind h
  unfold readRange
  rw [hevents, ok_bind, helements, ok_bind, readBounds_events, ok_bind]
  unfold isBounded
  cases h : (lastBounds intervals).introduced.truthy || (lastBounds intervals).fixed.truthy <;> simp [h]

lemma filter_lastBounds_eq_iff (intervals : List Interval) :
    [lastBounds intervals].filter isBounded = intervals.map Interval.entry ↔
      intervals.length ≤ 1 ∧ ∀ i ∈ intervals, isBounded i.entry := by
  match intervals with
  | [] => simp [lastBounds, isBounded, optText, truthy]
  | [i] =>
    have hbounds : lastBounds [i] = i.entry := by
      cases hfixed : i.fixed <;> simp [lastBounds, Interval.entry, optText, hfixed]
    rw [hbounds]
    cases h : isBounded i.entry <;> simp [h]
  | i :: j :: rest =>
    -- no more than one pair is kept
    refine iff_of_false (fun heq => ?_) fun h => by simp at h
    have hlength := congrArg List.length heq
    have hone := length_filter_le isBounded [lastBounds (i :: j :: rest)]
    simp at hlength hone
    omega

/-! ## A whole advisory -/

variable {found : List AffectedRange}

lemma exists_of_readAffected (h : readAffected affected = .ok found) :
    ∃ ranges parts, listed affected "ranges" = .ok ranges ∧ Forall₂ (fun r part => readRange r = .ok part) ranges parts ∧
      found = parts.flatten := by
  obtain ⟨ranges, hranges, h⟩ := of_bind h
  obtain ⟨items, hitems, h⟩ := of_bind h
  obtain ⟨parts, hparts, h⟩ := of_bind h
  cases h
  exact ⟨items, parts, bind_eq_ok_iff.mpr ⟨ranges, hranges, hitems⟩, mapM_eq_ok_iff.mp hparts, rfl⟩

lemma exists_of_mapM_readAffected {items : List Value} (h : items.mapM readAffected = .ok lists) :
    ∃ groups parts, items.mapM (listed · "ranges") = .ok groups ∧
      Forall₂ (fun r part => readRange r = .ok part) groups.flatten parts ∧ lists.flatten = parts.flatten := by
  rw [mapM_eq_ok_iff] at h
  induction h with
  | nil => exact ⟨[], [], rfl, .nil, rfl⟩
  | cons hfirst _ ih =>
    obtain ⟨groups, parts, hgroups, hall, hflat⟩ := ih
    obtain ⟨ranges, found, hranges, hfound, rfl⟩ := exists_of_readAffected hfirst
    refine ⟨ranges :: groups, found ++ parts, mapM_eq_ok_iff.mpr (.cons hranges (mapM_eq_ok_iff.mp hgroups)), ?_, ?_⟩
    · exact rel_append hfound hall
    · rw [flatten_cons, flatten_append, hflat]

lemma exists_of_readRanges (h : readRanges vuln = .ok found) :
    ∃ ranges parts, rangesIn vuln = .ok ranges ∧ Forall₂ (fun r part => readRange r = .ok part) ranges parts ∧
      found = parts.flatten := by
  obtain ⟨affected, haffected, h⟩ := of_bind h
  obtain ⟨items, hitems, h⟩ := of_bind h
  obtain ⟨lists, hlists, h⟩ := of_bind h
  cases h
  obtain ⟨groups, parts, hgroups, hall, hflat⟩ := exists_of_mapM_readAffected hlists
  refine ⟨groups.flatten, parts, ?_, hall, hflat⟩
  unfold rangesIn listed
  rw [haffected, ok_bind, hitems, ok_bind]
  exact bind_eq_ok_iff.mpr ⟨groups, hgroups, rfl⟩

lemma readRanges_of_read (h : read vuln = .ok a) : readRanges vuln = .ok a.ranges := by
  simp only [read, bind_eq_ok_iff] at h
  obtain ⟨_, -, _, -, _, -, _, -, _, -, _, -, _, -, _, -, _, -, _, -, _, -, ranges, hranges, h⟩ := h
  cases h
  exact hranges

/-- **What is kept of the ranges of an advisory**: one pair of versions each, and so the intervals where there is at
most one. -/
theorem intervals_kept_iff (h : isReadable vuln = true) :
    ∃ a ranges parts, read vuln = .ok a ∧ rangesIn vuln = .ok ranges ∧ a.ranges = parts.flatten ∧
      Forall₂ (fun range part => ∀ intervals, listed range "events" = .ok (intervals.flatMap Interval.events) →
        part = [lastBounds intervals].filter isBounded ∧
        (part = intervals.map Interval.entry ↔
          intervals.length ≤ 1 ∧ ∀ i ∈ intervals, isBounded i.entry = true)) ranges parts := by
  rw [← isOk_read, isOk_iff] at h
  obtain ⟨a, ha⟩ := h
  obtain ⟨ranges, parts, hranges, hparts, hflat⟩ := exists_of_readRanges (readRanges_of_read ha)
  refine ⟨a, ranges, parts, ha, hranges, hflat, hparts.imp fun range part hpart intervals hevents => ?_⟩
  rw [readRange_events hevents] at hpart
  rw [← Except.ok.inj hpart]
  exact ⟨rfl, filter_lastBounds_eq_iff intervals⟩

/-- A flaw that was fixed and came back. -/
def relapse : List Interval := [⟨"1.0", some "1.2"⟩, ⟨"2.0", none⟩]

def relapsed : Value := .obj [("affected", .list [.obj [("ranges", .list [.obj [("events",
  .list (relapse.flatMap Interval.events))]])]])]

/-- It is kept as one that was fixed before it was introduced. -/
theorem relapse_lost : isReadable relapsed = true ∧
    ∃ a, read relapsed = .ok a ∧ a.ranges = [⟨.str "2.0", .str "1.2"⟩] ∧ a.ranges ≠ relapse.map Interval.entry := by
  have hreadable : isReadable relapsed = true := by decide +kernel
  obtain ⟨a, ranges, parts, ha, hranges, hflat, hparts⟩ := intervals_kept_iff hreadable
  cases Except.ok.inj hranges
  cases hparts with
  | @cons _ part _ _ hpart hrest =>
    cases hrest
    obtain ⟨hkept, hlost⟩ := hpart relapse rfl
    rw [flatten_singleton] at hflat
    refine ⟨hreadable, a, ha, hflat.trans hkept, fun heq => ?_⟩
    exact absurd (hlost.mp (hflat ▸ heq)).1 (by decide)

end CodeAudit.Advisory

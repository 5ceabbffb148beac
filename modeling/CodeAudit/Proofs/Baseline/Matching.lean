import CodeAudit.Proofs.Baseline.Rescan
import Std.Data.String.ToInt

/-!
# What a baseline recognises

Two findings match if they have the same file, rule and message, and lines within the tolerance. A baseline recognises
what matches an entry; but also what has the print of one, in which a bar inside a part looks like one between two.

A comparison tests each finding by itself (`split_eq`, `isKnown`). Two prints are the same exactly when the pieces
between all their bars are (`text_eq_iff`); where files and rules have no bars, only matching counts.
-/

namespace CodeAudit

open Proofs List Chars Value

namespace Baseline

/-- The pieces of a print between its bars. -/
def Print.pieces (p : Print) : List (List Char) :=
  fieldsAt '|' p.key.file.toList ++ fieldsAt '|' p.line.toList ++ fieldsAt '|' p.key.rule.toList ++
    fieldsAt '|' p.key.message.toList

lemma Print.toList_text (p : Print) : p.text.toList =
    p.key.file.toList ++ '|' :: (p.line.toList ++ '|' :: (p.key.rule.toList ++ '|' :: p.key.message.toList)) := by
  simp only [Print.text, Text.join, String.toList_intercalate, map_cons, map_nil]
  simp

/-- **Prints are the same exactly when their pieces are.** -/
lemma Print.text_eq_iff {p q : Print} : p.text = q.text ↔ p.pieces = q.pieces := by
  have hpieces : ∀ p : Print, p.pieces = fieldsAt '|' p.text.toList := by
    intro p
    rw [p.toList_text, fieldsAt_append, fieldsAt_append, fieldsAt_append]
    simp only [Print.pieces, append_assoc]
  rw [hpieces, hpieces, (fieldsAt_injective '|').eq_iff, String.toList_inj]

/-- Neither the file nor the rule of a print has a bar in it. -/
structure Print.IsPlain (p : Print) : Prop where
  file : '|' ∉ p.key.file.toList
  rule : '|' ∉ p.key.rule.toList

/-! ## Findings to be compared -/

def textFields : List String := ["file", "rule_id", "type", "message", "description"]

/-- Whether a field that is compared is of its kind: a whole number for the line, a text for the others. -/
def isOfKind (field : String × Value) : Bool :=
  if field.1 = "line" then field.2 matches .int _ else !textFields.contains field.1 || (field.2 matches .str _)

/-- What is compared of a finding are texts and, if it has one, a whole number for its line. -/
def IsTyped (r : Record) : Prop := r.all isOfKind

def keyOf (r : Record) : Key where
  file := (r.getD "file" (.str "")).text
  rule := (ruleOf r).text
  message := (messageOf r).text

def lineOf (r : Record) : Int :=
  match r.get? "line" with
  | some (.int n) => n
  | _ => 0

def printed (r : Record) : Print where
  key := keyOf r
  line := (r.getD "line" (.str "")).text

variable (tolerance : Int)

/-- Whether one finding is at most so many lines from another with its key. -/
def isBeside (f b : Record) : Bool :=
  keyOf b == keyOf f && decide ((lineOf f - lineOf b).natAbs ≤ tolerance)

/-- Whether a baseline knows a finding: one of its entries has the print of the finding, or is beside it. -/
def isKnown (baseline : List Record) (f : Record) : Bool :=
  (baseline.any fun b => (printed b).text == (printed f).text) || baseline.any (isBeside tolerance f)

section Typed

variable {r : Record} (h : IsTyped r)

include h

lemma IsTyped.exists_getD (hname : name ∈ textFields) (s : String) : ∃ t, r.getD name (.str s) = .str t := by
  unfold Record.getD
  cases hget : r.get? name with
  | none => exact ⟨s, rfl⟩
  | some v =>
    have hkind := all_eq_true.mp h _ (Record.mem_of_get? hget)
    have hline : name ≠ "line" := by
      rintro rfl
      exact absurd hname (by decide)
    unfold isOfKind at hkind
    rw [if_neg hline, contains_iff_mem.mpr hname, Bool.not_true, Bool.false_or] at hkind
    split at hkind
    · next t ht => exact ⟨t, ht⟩
    · cases hkind

lemma IsTyped.exists_int (hget : r.get? "line" = some v) : ∃ n, v = .int n := by
  have hkind := all_eq_true.mp h _ (Record.mem_of_get? hget)
  unfold isOfKind at hkind
  rw [if_pos rfl] at hkind
  split at hkind
  · next n hn => exact ⟨n, hn⟩
  · cases hkind

lemma IsTyped.printOf_eq : printOf (.obj r) = .ok (printed r) := by
  obtain ⟨file, hfile⟩ := h.exists_getD (by decide : "file" ∈ textFields) ""
  obtain ⟨kind, hkind⟩ := h.exists_getD (by decide : "type" ∈ textFields) ""
  obtain ⟨rule, hrule⟩ := h.exists_getD (by decide : "rule_id" ∈ textFields) kind
  obtain ⟨note, hnote⟩ := h.exists_getD (by decide : "description" ∈ textFields) ""
  obtain ⟨message, hmessage⟩ := h.exists_getD (by decide : "message" ∈ textFields) note
  have hfields : (obj r).fields = .ok r := rfl
  unfold printOf printed keyOf
  rw [hfields, ok_bind, ruleOf, messageOf, hfile, hkind, hrule, hnote, hmessage]
  rfl

lemma IsTyped.comparedLine_eq : comparedLine r = .int (lineOf r) := by
  unfold comparedLine lineOf Record.getD
  cases hget : r.get? "line" with
  | none => rfl
  | some v =>
    obtain ⟨n, rfl⟩ := h.exists_int hget
    rfl

end Typed

/-! ## Comparing -/

/-- Whole numbers always have a distance, so that all lines are looked at. -/
lemma isNear_ints (tolerance line : Int) (lines : List Int) :
    isNear (.int tolerance) (.int line) (lines.map .int) =
      .ok (lines.any fun known => decide ((line - known).natAbs ≤ tolerance)) := by
  induction lines with
  | nil => rfl
  | cons known rest ih =>
    have hdistance : distance (.int line) (.int known) = .ok (.int (line - known).natAbs) := rfl
    rw [map_cons, isNear, hdistance, ok_bind, atLeast_int, ok_bind, ih, any_cons]
    cases decide (((line - known).natAbs : Int) ≤ tolerance) <;> rfl

section Split

variable {findings baseline : List Record} (hfindings : ∀ f ∈ findings, IsTyped f) (hbaseline : ∀ b ∈ baseline, IsTyped b)

include hbaseline

lemma arePrints_printed : ArePrints baseline (baseline.map printed) := by
  unfold ArePrints
  rw [forall₂_map_right_iff]
  exact forall₂_same.mpr fun b hb => (hbaseline b hb).printOf_eq

lemma ofFindings_eq : Known.ofFindings (baseline.map .obj) = .ok (knownOf baseline (baseline.map printed)) := by
  refine ofFindings_eq_ok_iff.mpr ⟨fun b hb => ?_, _, arePrints_printed hbaseline, rfl⟩
  rw [(hbaseline b hb).comparedLine_eq]
  rfl

lemma lines_knownOf (key : Key) :
    (((knownOf baseline (baseline.map printed)).lines.filter fun entry => entry.1 == key).map (·.2)) =
      ((baseline.filter fun b => keyOf b == key).map lineOf).map .int := by
  have hlines : (knownOf baseline (baseline.map printed)).lines = baseline.map fun b => (keyOf b, int (lineOf b)) := by
    change ((baseline.map printed).map (·.key)).zip (baseline.map comparedLine) = _
    rw [map_map, zip_map']
    exact map_congr_left fun b hb => by rw [(hbaseline b hb).comparedLine_eq]; rfl
  rw [hlines, filter_map, map_map, map_map]
  rfl

lemma has_eq (hf : IsTyped f) (tolerance : Int) :
    (knownOf baseline (baseline.map printed)).has (.int tolerance) (.obj f) = .ok (isKnown tolerance baseline f) := by
  have hline : (obj f).part "line" (.int 0) = .ok (.int (lineOf f)) := congrArg Except.ok hf.comparedLine_eq
  have hprints : (knownOf baseline (baseline.map printed)).prints.contains (printed f).text =
      baseline.any fun b => (printed b).text == (printed f).text := by
    unfold knownOf
    rw [map_map, contains_eq_any_beq, any_map]
    exact congrArg (baseline.any ·) (funext fun b => Bool.beq_comm)
  have hnear : ((baseline.filter fun b => keyOf b == keyOf f).map lineOf).any (fun known =>
      decide ((lineOf f - known).natAbs ≤ tolerance)) = baseline.any (isBeside tolerance f) := by
    rw [any_map, any_filter]
    rfl
  unfold Known.has
  rw [hf.printOf_eq, ok_bind, hline, hprints]
  dsimp only
  rw [ok_bind, lines_knownOf hbaseline, isNear_ints]
  unfold isKnown
  rw [← hnear]
  cases baseline.any fun b => (printed b).text == (printed f).text <;> rfl

include hfindings

/-- **A comparison tests each finding by itself.** -/
lemma split_eq (tolerance : Int) : split (.list (baseline.map .obj)) (findings.map .obj) (.int tolerance) =
    .ok ((findings.filter fun f => !isKnown tolerance baseline f).map .obj,
      (findings.filter (isKnown tolerance baseline)).map .obj) := by
  have hmarked : (findings.map obj).mapM (fun f => do
      return (f, ← (knownOf baseline (baseline.map printed)).has (.int tolerance) f)) =
        .ok (findings.map fun f => (obj f, isKnown tolerance baseline f)) := by
    rw [mapM_eq_ok_iff, forall₂_map_left_iff, forall₂_map_right_iff]
    refine forall₂_same.mpr fun f hf => ?_
    rw [has_eq hbaseline (hfindings f hf)]
    rfl
  have helements : (list (baseline.map .obj)).elements = .ok (baseline.map .obj) := rfl
  unfold split
  rw [helements, ok_bind, ofFindings_eq hbaseline, ok_bind, hmarked, ok_bind, filter_map, filter_map, map_map, map_map]
  rfl

end Split

/-! ## Matching -/

/-- Two findings match: they have the same file, rule and message, and their lines are not too far apart. -/
def Matches (f b : Record) : Prop :=
  keyOf b = keyOf f ∧ (lineOf f - lineOf b).natAbs ≤ tolerance

variable {tolerance : Int} {f b : Record}

lemma isBeside_iff : isBeside tolerance f b ↔ Matches tolerance f b := by
  unfold isBeside Matches
  rw [Bool.and_eq_true, beq_iff_eq, decide_eq_true_eq]

lemma isKnown_iff : isKnown tolerance baseline f ↔
    ∃ b ∈ baseline, (printed b).text = (printed f).text ∨ Matches tolerance f b := by
  simp only [isKnown, Bool.or_eq_true, any_eq_true, beq_iff_eq, isBeside_iff, and_or_left, exists_or]

def IsLocated (r : Record) : Prop := ∃ n, r.get? "line" = some (.int n)

lemma IsLocated.line_printed (h : IsLocated r) : (printed r).line = toString (lineOf r) := by
  obtain ⟨n, hn⟩ := h
  unfold printed lineOf Record.getD
  rw [hn]
  rfl

lemma bar_notMem_toString (n : Int) : '|' ∉ (toString n).toList := by
  have hdigits : ∀ k : Nat, '|' ∉ (Nat.repr k).toList := by
    intro k hbar
    rw [Nat.toList_repr] at hbar
    exact absurd (Json.areDigits_toDigits k _ hbar) (by decide)
  rw [Int.toString_eq_repr, Int.repr_eq_if]
  split
  · exact hdigits _
  · rw [String.toList_append, mem_append, not_or]
    exact ⟨by decide, hdigits _⟩

/-- Without bars in files and rules, the print of a finding on a line says all that is compared. -/
lemma eq_of_text_eq (hf : IsLocated f) (hb : IsLocated b) (hfplain : (printed f).IsPlain)
    (hbplain : (printed b).IsPlain) (h : (printed b).text = (printed f).text) :
    keyOf b = keyOf f ∧ lineOf b = lineOf f := by
  have hbars : ∀ {r : Record}, IsLocated r → '|' ∉ (printed r).line.toList := by
    intro r hr
    rw [hr.line_printed]
    exact bar_notMem_toString _
  have hpieces := Print.text_eq_iff.mp h
  unfold Print.pieces at hpieces
  rw [fieldsAt_of_notMem hbplain.file, fieldsAt_of_notMem (hbars hb), fieldsAt_of_notMem hbplain.rule,
    fieldsAt_of_notMem hfplain.file, fieldsAt_of_notMem (hbars hf),
    fieldsAt_of_notMem hfplain.rule] at hpieces
  -- the file, the line and the rule are one piece each, and the message is the rest
  obtain ⟨hfile, hpieces⟩ := cons.inj hpieces
  obtain ⟨hline, hpieces⟩ := cons.inj hpieces
  obtain ⟨hrule, hmessage⟩ := cons.inj hpieces
  constructor
  · unfold keyOf
    rw [Key.mk.injEq]
    exact ⟨String.toList_inj.mp hfile, String.toList_inj.mp hrule,
      String.toList_inj.mp (fieldsAt_injective '|' hmessage)⟩
  · rw [String.toList_inj, hb.line_printed, hf.line_printed] at hline
    exact Int.repr_injective hline

/-- **What a baseline recognises.** A comparison divides findings on lines into known ones and others. It knows a
finding exactly when an entry matches it or the pieces between the bars of their prints are the same; where no file or
rule has a bar, exactly when an entry matches it. -/
theorem known_iff_matches {findings baseline : List Record} (hfindings : ∀ f ∈ findings, IsTyped f ∧ IsLocated f)
    (hbaseline : ∀ b ∈ baseline, IsTyped b ∧ IsLocated b) (tolerance : Nat) :
    split (.list (baseline.map .obj)) (findings.map .obj) (.int tolerance) =
      .ok ((findings.filter fun f => !isKnown tolerance baseline f).map .obj,
        (findings.filter (isKnown tolerance baseline)).map .obj) ∧
    ∀ f ∈ findings, (isKnown tolerance baseline f = true ↔
        ∃ b ∈ baseline, Matches tolerance f b ∨ (printed b).pieces = (printed f).pieces) ∧
      ((printed f).IsPlain → (∀ b ∈ baseline, (printed b).IsPlain) →
        (isKnown tolerance baseline f = true ↔ ∃ b ∈ baseline, Matches tolerance f b)) := by
  refine ⟨split_eq (fun f hf => (hfindings f hf).1) (fun b hb => (hbaseline b hb).1) tolerance, fun f hf => ⟨?_, ?_⟩⟩
  · rw [isKnown_iff]
    refine exists_congr fun b => and_congr_right fun _ => ?_
    rw [Print.text_eq_iff, or_comm]
  · intro hfplain hplain
    rw [isKnown_iff]
    refine exists_congr fun b => and_congr_right fun hb => ⟨fun h => ?_, .inr⟩
    rcases h with htext | hmatches
    · -- the same print is a match on the very same line
      obtain ⟨hkey, hline⟩ := eq_of_text_eq (hfindings f hf).2 (hbaseline b hb).2 hfplain (hplain b hb) htext
      refine ⟨hkey, ?_⟩
      rw [hline, sub_self, Int.natAbs_zero]
      exact Int.natCast_nonneg tolerance
    · exact hmatches

def barredFinding : Record :=
  [("file", .str "a.py"), ("line", .int 1), ("rule_id", .str "R|x"), ("type", .str "t"), ("message", .str "m"),
    ("description", .str "d")]

def barredEntry : Record :=
  [("file", .str "a.py"), ("line", .int 1), ("rule_id", .str "R"), ("type", .str "t"), ("message", .str "x|m"),
    ("description", .str "d")]

/-- A finding is taken for a known one though it matches none. -/
theorem barredFinding_known_unmatched :
    split (.list [.obj barredEntry]) [.obj barredFinding] (.int 5) = .ok ([], [.obj barredFinding]) ∧
      ∀ tolerance, ¬ Matches tolerance barredFinding barredEntry := by
  have hfinding : ∀ f ∈ [barredFinding], IsTyped f ∧ IsLocated f :=
    forall_mem_singleton.mpr ⟨by unfold IsTyped; decide, 1, rfl⟩
  have hentry : ∀ b ∈ [barredEntry], IsTyped b ∧ IsLocated b :=
    forall_mem_singleton.mpr ⟨by unfold IsTyped; decide, 1, rfl⟩
  obtain ⟨hsplit, hknown⟩ := known_iff_matches hfinding hentry 5
  constructor
  · have hpieces : (printed barredEntry).pieces = (printed barredFinding).pieces := by decide +kernel
    have hin := (hknown _ mem_cons_self).1.mpr ⟨_, mem_cons_self, .inr hpieces⟩
    rw [filter_cons, filter_cons, hin] at hsplit
    exact hsplit
  · rintro tolerance ⟨hkey, -⟩
    exact absurd hkey (by decide +kernel)

end Baseline

end CodeAudit

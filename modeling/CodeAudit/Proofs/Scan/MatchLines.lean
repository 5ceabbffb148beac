import CodeAudit.Proofs.Regex.Language
import CodeAudit.Scan.Golang

/-!
# The lines of Go findings

A finding points at the line on which its match starts. Where a pattern takes in blank lines first, that is not the
line of the code. Which patterns can is read off their expressions: all but one begin with ink, and every one has some.
-/

namespace CodeAudit

open List Text Bool

/-! ## Expressions with ink -/

/-- No blank belongs to the item. -/
def ClassItem.isInk : ClassItem → Bool
  | .char c => !isBlank c
  | .range low high => '!' ≤ low && high ≤ '~'
  | .notBlank => true
  | .blank | .word | .notWord | .digit | .notDigit => false

def CharSet.isInk (s : CharSet) : Bool := !s.negated && s.items.all ClassItem.isInk

/-- Every way of the expression passes ink, and begins with it where `first` holds. -/
def Regex.passesInk (first : Bool) : Regex → Bool
  | .one s => s.isInk
  | .seq a b => a.passesInk first || !first && b.passesInk first
  | .alt a b => a.passesInk first && b.passesInk first
  | .rep least _ _ body => 0 < least && body.passesInk first
  | .group _ body => body.passesInk first
  | _ => false

/-- Text with ink, which comes first where `first` holds. -/
def HasInk (first : Bool) (cs : List Char) : Prop :=
  ∃ bs x xs, cs = bs ++ x :: xs ∧ isBlank x = false ∧ (first → bs = [])

variable {first : Bool} {x : Char} {cs ds : List Char}

lemma HasInk.append_right (h : HasInk first cs) (ds : List Char) : HasInk first (cs ++ ds) := by
  obtain ⟨bs, x, xs, rfl, hx, hfirst⟩ := h
  exact ⟨bs, x, xs ++ ds, by simp, hx, hfirst⟩

lemma HasInk.append_left (h : HasInk false ds) (cs : List Char) : HasInk false (cs ++ ds) := by
  obtain ⟨bs, x, xs, rfl, hx, -⟩ := h
  exact ⟨cs ++ bs, x, xs, by simp, hx, fun h => absurd h false_ne_true⟩

lemma ClassItem.not_has_blank {item : ClassItem} (hitem : item.isInk) (hx : isBlank x) : item.has x = false := by
  cases item with
  | char c =>
    refine beq_eq_false_iff_ne.mpr ?_
    rintro rfl
    simp [isInk, hx] at hitem
  | range low high =>
    simp only [isInk, and_eq_true, decide_eq_true_eq] at hitem
    refine eq_false_iff.mpr fun h => not_ink_of_isBlank hx ?_
    simp only [has, and_eq_true, decide_eq_true_eq] at h
    exact ⟨Char.le_trans hitem.1 h.1, Char.le_trans h.2 hitem.2⟩
  | notBlank => simp [has, hx]
  | blank | word | notWord | digit | notDigit => cases hitem

lemma caseForms_blank (hx : isBlank x) : caseForms x = [x] := by
  rw [caseForms, foldCase_blank hx, if_neg]
  exact fun h => not_ink_of_isBlank hx ⟨Char.le_trans (by decide) h.1, Char.le_trans h.2 (by decide)⟩

lemma CharSet.not_has_blank {s : CharSet} (hs : s.isInk) (hx : isBlank x) : s.has x = false := by
  simp only [isInk, and_eq_true, not_eq_true', all_eq_true] at hs
  have hforms : (if s.anyCase then caseForms x else [x]) = [x] := by
    split
    · exact caseForms_blank hx
    · rfl
  rw [has, hforms, hs.1, bne_eq_false_iff_eq, any_eq_false]
  intro item hitem
  simp [ClassItem.not_has_blank (hs.2 item hitem) hx]

namespace Regex

lemma Moves.hasInk {r : Regex} (hr : r.passesInk first) (h : r.Moves c d) :
    ∃ cs, c.Passes cs d ∧ HasInk first cs := by
  induction r generalizing c d with
  | one s =>
    obtain ⟨x, xs, hrest, hx, rfl⟩ := h
    refine ⟨[x], Cursor.passes_past hrest, [], x, [], rfl, ?_, fun _ => rfl⟩
    refine eq_false_iff.mpr fun hblank => ?_
    rw [CharSet.not_has_blank hr hblank] at hx
    cases hx
  | seq a b iha ihb =>
    obtain ⟨e, ha, hb⟩ := h
    rcases or_eq_true_iff.mp hr with hr | hr
    · obtain ⟨cs, hcs, hink⟩ := iha hr ha
      obtain ⟨ds, hds⟩ := hb.passes
      exact ⟨cs ++ ds, hcs.trans hds, hink.append_right ds⟩
    · obtain ⟨hfirst, hr⟩ := and_eq_true_iff.mp hr
      cases not_eq_true' _ ▸ hfirst
      obtain ⟨cs, hcs⟩ := ha.passes
      obtain ⟨ds, hds, hink⟩ := ihb hr hb
      exact ⟨cs ++ ds, hcs.trans hds, hink.append_left cs⟩
  | alt a b iha ihb =>
    obtain ⟨hra, hrb⟩ := and_eq_true_iff.mp hr
    exact h.elim (iha hra) (ihb hrb)
  | rep least most isLazy body ih =>
    obtain ⟨hleast, hr⟩ := and_eq_true_iff.mp hr
    obtain ⟨e, hrounds, hmore⟩ := h
    -- the first of the rounds that have to be made has the ink
    cases hrounds with
    | done => cases hleast
    | next hone hrounds =>
      obtain ⟨cs, hcs, hink⟩ := ih hr hone
      obtain ⟨ds, hds⟩ := hrounds.passes Moves.passes
      obtain ⟨es, hes⟩ := hmore.passes Moves.passes
      exact ⟨cs ++ (ds ++ es), hcs.trans (hds.trans hes), hink.append_right _⟩
  | group index body ih =>
    obtain ⟨e, he, rfl⟩ := h
    obtain ⟨cs, hcs, hink⟩ := ih hr he
    exact ⟨cs, hcs, hink⟩
  | empty | again _ | start _ | finish _ | close | edge => cases hr

lemma Finds.hasInk {r : Regex} (hr : r.passesInk first) (h : r.Finds text m) : HasInk first m.text := by
  obtain ⟨_, c, d, -, hmoves, ⟨hrest, -⟩, -⟩ := h
  obtain ⟨cs, ⟨hcs, -⟩, hink⟩ := hmoves.hasInk hr
  rwa [append_cancel_right (hrest.symm.trans hcs)]

end Regex

/-! ## Lines -/

namespace Golang

variable {m : Match} {text : List Char}

/-- What a match takes in before its first ink. -/
def blanks (m : Match) : List Char := m.text.takeWhile isBlank

/-- The place of the first ink of a match. -/
def inkPlace (m : Match) : Nat := m.start + (blanks m).length

/-- A finding reports a match in the text. -/
def Finding.Reports (f : Finding) (text : List Char) (m : Match) : Prop :=
  f.rule ∈ rules ∧ m ∈ f.rule.pattern.allMatches text ∧ f = f.rule.finding f.file text m

lemma rules_pass_ink : ∀ r ∈ rules, r.pattern.passesInk false ∧ (r.id ≠ "VP-GO-014" → r.pattern.passesInk true) := by
  decide +kernel

lemma blanks_eq_nil (h : HasInk true m.text) : blanks m = [] := by
  obtain ⟨bs, x, xs, htext, hx, hbs⟩ := h
  rw [blanks, htext, hbs rfl, nil_append, takeWhile_cons_of_neg (by rw [hx]; exact false_ne_true)]

/-- The text before a match, and the match cut at its first ink. -/
lemma exists_of_finds {r : Regex} (hr : r.passesInk false) (h : r.Finds text m) :
    ∃ before x xs, text = before ++ blanks m ++ x :: xs ∧ before.length = m.start ∧ isBlank x = false := by
  obtain ⟨bs, y, ys, htext, hy, -⟩ := h.hasInk hr
  obtain ⟨before, c, d, ⟨hc, hpos⟩, -, ⟨hrest, -⟩, hstart⟩ := h
  have hcut : m.text.dropWhile isBlank ≠ [] := by
    intro hnil
    have hall := takeWhile_append_dropWhile (p := isBlank) (l := m.text)
    rw [hnil, append_nil, htext] at hall
    have hblank := all_eq_true.mp (hall ▸ all_takeWhile) y (mem_append_right bs mem_cons_self)
    rw [hy] at hblank
    cases hblank
  obtain ⟨x, xs, hxs⟩ := exists_cons_of_ne_nil hcut
  refine ⟨before, x, xs ++ d.rest, ?_, by rw [hstart, hpos]; exact (Nat.zero_add _).symm, ?_⟩
  · calc text = before ++ (m.text ++ d.rest) := hrest ▸ hc
      _ = before ++ (blanks m ++ x :: xs ++ d.rest) := by rw [blanks, ← hxs, takeWhile_append_dropWhile]
      _ = before ++ blanks m ++ x :: (xs ++ d.rest) := by simp
  · have := head_dropWhile_not isBlank hcut
    simpa [hxs] using this

/-- Every finding reports a match. It points at the line of the first ink exactly if the blanks before it have no line
break, and no rule but one matches blanks first. -/
theorem points_at_ink_iff (file : String) (text : List Char) :
    (∀ f ∈ scanText file text, ∃ m, f.Reports text m) ∧
    ∀ (f : Finding) m, f.Reports text m → (∃ x ∈ text[inkPlace m]?, isBlank x = false) ∧
      lineAt text (inkPlace m) = f.line + (blanks m).count '\n' ∧
      (f.line = lineAt text (inkPlace m) ↔ '\n' ∉ blanks m) ∧
      (f.rule.id ≠ "VP-GO-014" → blanks m = []) := by
  refine ⟨fun f hf => ?_, fun f m ⟨hrule, hm, hf⟩ => ?_⟩
  · obtain ⟨r, hr, hf⟩ := mem_flatMap.mp hf
    obtain ⟨m, hm, rfl⟩ := mem_map.mp hf
    exact ⟨m, hr, hm, rfl⟩
  · obtain ⟨hink, hfirst⟩ := rules_pass_ink _ hrule
    have hfinds := Regex.finds_of_mem_allMatches hm
    obtain ⟨before, x, xs, htext, hbefore, hx⟩ := exists_of_finds hink hfinds
    have hplace : inkPlace m = (before ++ blanks m).length := by rw [inkPlace, length_append, hbefore]
    have hline : lineAt text (inkPlace m) = f.line + (blanks m).count '\n' := by
      rw [hf]
      simp only [Rule.finding, lineAt]
      rw [hplace, htext, take_left, append_assoc, ← hbefore, take_left, count_append]
      omega
    refine ⟨⟨x, ?_, hx⟩, hline, ?_, fun hid => blanks_eq_nil (hfinds.hasInk (hfirst hid))⟩
    · rw [hplace, htext, getElem?_append_right (Nat.le_refl _), Nat.sub_self]
      rfl
    · rw [hline, ← count_eq_zero]
      omega

def ignoredError : List Char := "\nx, _ := os.Open(p)\n".toList

/-- A blank line before an ignored error takes its place. -/
theorem ignoredError_above : ∃ f ∈ scanText "main.go" ignoredError, ∃ m, f.Reports ignoredError m ∧ f.line = 1 ∧
    lineAt ignoredError (inkPlace m) = 2 ∧ '\n' ∈ blanks m := by
  have hmatch : ∃ r ∈ rules, ∃ m ∈ r.pattern.allMatches ignoredError,
      lineAt ignoredError m.start = 1 ∧ lineAt ignoredError (inkPlace m) = 2 := by decide +kernel
  obtain ⟨r, hr, m, hm, hstart, hink⟩ := hmatch
  have hreports : (r.finding "main.go" ignoredError m).Reports ignoredError m := ⟨hr, hm, rfl⟩
  refine ⟨_, mem_flatMap.mpr ⟨r, hr, mem_map_of_mem hm⟩, m, hreports, hstart, hink, ?_⟩
  refine Decidable.not_not.mp fun hblank => ?_
  have hline : lineAt ignoredError m.start = lineAt ignoredError (inkPlace m) :=
    ((points_at_ink_iff "main.go" ignoredError).2 _ m hreports).2.2.1.mpr hblank
  rw [hstart, hink] at hline
  cases hline

end Golang

end CodeAudit

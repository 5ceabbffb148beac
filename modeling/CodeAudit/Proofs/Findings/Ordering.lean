import Mathlib.Data.List.Lex
import Mathlib.Data.Prod.Lex
import Mathlib.Data.String.Basic
import Mathlib.Data.Sum.Order
import CodeAudit.Findings.Classification
import CodeAudit.Proofs.Decimal.Order
import CodeAudit.Proofs.Outcome

/-!
# Order and threshold

Findings are put in order by severity and score, and those below a severity are dropped. Scores may be of any kind that
has an order, lists of lists included, as words in a dictionary: of two comparable values the lower one has the lower
line of signs (`Value.IsComparable.line_lt_iff`). So findings have places in one linear order, and the sort is the only
list in order that keeps ties as they were (`eq_of_ties`).
-/

namespace CodeAudit

open Proofs List Severity Value Except

variable {o : Ordering} {α : Type}

/-! ## Lines of signs -/

/-- The end of a list, the place of a number or a text; the end is the least sign. -/
abbrev Sign := WithBot (WithBot (WithTop ℚ) ⊕ₗ String)

def Sign.number (place : WithBot (WithTop ℚ)) : Sign := WithBot.some (Sum.inlₗ place)

def Sign.text (s : String) : Sign := WithBot.some (Sum.inrₗ s)

lemma compares_append_left [LinearOrder α] (h : o.Compares s t)
    (start : List α) : o.Compares (start ++ s) (start ++ t) := by
  induction start with
  | nil => exact h
  | cons a start ih =>
    cases o with
    | lt => exact Lex.cons ih
    | eq => exact congrArg (cons a) ih
    | gt => exact Lex.cons ih

lemma compares_cons [LinearOrder α] (h : o.Compares a b) (hne : o ≠ .eq)
    (s t : List α) : o.Compares (a :: s) (b :: t) := by
  cases o with
  | lt => exact Lex.rel h
  | eq => exact absurd rfl hne
  | gt => exact Lex.rel h

namespace Value

/-- What holds of a value if it holds of the elements of the list that it may be, holds of every value. -/
lemma ind {motive : Value → Prop}
    (h : ∀ v, (∀ items, v = .list items ∨ v = .tuple items → ∀ x ∈ items, motive x) → motive v) (v : Value) :
    motive v := by
  induction hn : sizeOf v using Nat.strongRecOn generalizing v with
  | ind n ih =>
    refine h v fun items hitems x hx => ih _ ?_ x rfl
    have hless := sizeOf_lt_of_mem hx
    rcases hitems with rfl | rfl
    · rw [list.sizeOf_spec] at hn
      omega
    · rw [tuple.sizeOf_spec] at hn
      omega

mutual

/-- A value as a line of signs. What has no order is a sign like any other. -/
def line : Value → List Sign
  | .str s => [.text s]
  | .list items | .tuple items => lineAll items
  | v => [(v.number?.bind Number.place?).elim (.text "") .number]

/-- The elements of a list, each behind a sign that is above the end. -/
def lineAll : List Value → List Sign
  | [] => [⊥]
  | v :: vs => .text "" :: (v.line ++ lineAll vs)

end

variable {a b : Value} {as bs : List Value}

lemma compares_number (hm : a.number? = some m) (hn : b.number? = some n) (h : m.compare? n = some o) :
    ∃ p q, a.line = [.number p] ∧ b.line = [.number q] ∧ o.Compares (Sign.number p) (Sign.number q) := by
  have hline : ∀ {v : Value} {n : Number} {p}, v.number? = some n → n.place? = some p → v.line = [.number p] := by
    intro v n p hn hp
    unfold line
    split
    · cases hn
    · cases hn
    · cases hn
    · rw [hn, Option.bind_some, hp]
      rfl
  rw [Number.compare?_eq, Option.bind_eq_some_iff] at h
  obtain ⟨p, hp, h⟩ := h
  obtain ⟨q, hq, rfl⟩ := Option.map_eq_some_iff.mp h
  have hmono : StrictMono Sign.number := WithBot.coe_strictMono.comp Sum.Lex.inl_strictMono
  refine ⟨p, q, hline hm hp, hline hn hq, ?_⟩
  rw [← hmono.cmp_map_eq]
  exact cmp_compares _ _

lemma lineAll_eq_of_sameAll (ih : ∀ a ∈ as, ∀ b, a.same b → a.line = b.line)
    (h : sameAll as bs) : lineAll as = lineAll bs := by
  induction as generalizing bs with
  | nil =>
    cases bs with
    | nil => rfl
    | cons b bs => simp [sameAll] at h
  | cons a as ihs =>
    cases bs with
    | nil => simp [sameAll] at h
    | cons b bs =>
      rw [sameAll, Bool.and_eq_true] at h
      rw [lineAll, lineAll, ih a mem_cons_self b h.1, ihs (fun x hx => ih x (mem_cons_of_mem _ hx)) h.2]

lemma line_eq_of_same (h : a.same b) : a.line = b.line := by
  induction a using ind generalizing b with
  | h a ih =>
    unfold same at h
    split at h
    · rfl
    · rw [beq_iff_eq.mp h]
    · exact lineAll_eq_of_sameAll (fun x hx y => ih _ (.inl rfl) x hx) h
    · exact lineAll_eq_of_sameAll (fun x hx y => ih _ (.inr rfl) x hx) h
    · rfl
    · rfl
    · rfl
    · rfl
    · split at h
      · next m n hm hn =>
        obtain ⟨p, q, hp, hq, heq⟩ := compares_number hm hn (beq_iff_eq.mp h)
        rw [hp, hq, show Sign.number p = Sign.number q from heq]
      · cases h

lemma compares_lineAll (hne : o ≠ .eq)
    (ih : ∀ a ∈ as, ∀ b, a.order b = .ok (some o) → ∀ s t, o.Compares (a.line ++ s) (b.line ++ t))
    (h : orderAll as bs = .ok (some o)) (s t : List Sign) : o.Compares (lineAll as ++ s) (lineAll bs ++ t) := by
  have hend : ∀ (rest rest' : List Sign), ⊥ :: rest < Sign.text "" :: rest' := fun _ _ =>
    Lex.rel (WithBot.bot_lt_coe _)
  induction as generalizing bs with
  | nil =>
    cases bs with
    | nil =>
      cases h
      exact absurd rfl hne
    | cons b bs =>
      cases h
      exact hend _ _
  | cons a as ihs =>
    cases bs with
    | nil =>
      cases h
      exact hend _ _
    | cons b bs =>
      rw [orderAll] at h
      rw [lineAll, lineAll, cons_append, cons_append, append_assoc, append_assoc]
      refine compares_append_left ?_ [Sign.text ""]
      split at h
      · next hsame =>
        rw [line_eq_of_same hsame]
        exact compares_append_left (ihs (fun x hx => ih x (mem_cons_of_mem _ hx)) h) _
      · exact ih a mem_cons_self b h _ _

/-- Of two values the lower one has the lower line, whatever comes after them. -/
lemma compares_line (h : a.order b = .ok (some o)) (hne : o ≠ .eq) (s t : List Sign) :
    o.Compares (a.line ++ s) (b.line ++ t) := by
  induction a using ind generalizing b s t with
  | h a ih =>
    unfold order at h
    split at h
    · next x y =>
      cases h
      have hmono : StrictMono Sign.text := WithBot.coe_strictMono.comp Sum.Lex.inr_strictMono
      refine compares_cons ?_ hne s t
      rw [← cmp_eq_compare, ← hmono.cmp_map_eq]
      exact cmp_compares _ _
    · exact compares_lineAll hne (fun x hx y hy => ih _ (.inl rfl) x hx hy) h s t
    · exact compares_lineAll hne (fun x hx y hy => ih _ (.inr rfl) x hx hy) h s t
    · split at h
      · next m n hm hn =>
        obtain ⟨p, q, hp, hq, hcompares⟩ := compares_number hm hn (ok.inj h)
        rw [hp, hq]
        exact compares_cons hcompares hne s t
      · cases h

/-- Two values can be compared: they are the same, or one is below the other. -/
def IsComparable (a b : Value) : Prop :=
  a.same b ∨ a.order b = .ok (some .lt) ∨ a.order b = .ok (some .gt)

section Comparable

variable {a b : Value}

lemma line_lt_of_order (h : a.order b = .ok (some .lt)) : a.line < b.line := by
  have hcompares := compares_line h (by decide) [] []
  rwa [append_nil, append_nil] at hcompares

lemma line_gt_of_order (h : a.order b = .ok (some .gt)) : b.line < a.line := by
  have hcompares := compares_line h (by decide) [] []
  rwa [append_nil, append_nil] at hcompares

lemma IsComparable.line_lt_iff (h : a.IsComparable b) : a.line < b.line ↔ a.order b = .ok (some .lt) := by
  refine ⟨fun hlt => ?_, line_lt_of_order⟩
  rcases h with hsame | hbelow | habove
  · exact absurd (line_eq_of_same hsame) hlt.ne
  · exact hbelow
  · exact absurd (line_gt_of_order habove) hlt.asymm

lemma IsComparable.line_eq_iff (h : a.IsComparable b) : a.line = b.line ↔ a.same b := by
  refine ⟨fun heq => ?_, line_eq_of_same⟩
  rcases h with hsame | hbelow | habove
  · exact hsame
  · exact absurd heq (line_lt_of_order hbelow).ne
  · exact absurd heq (line_gt_of_order habove).ne'

end Comparable

end Value

/-! ## Places of findings -/

namespace SortKey

/-- The place of a key: by the rank of its severity, then by the line of its score. -/
def place (key : SortKey) : ℕ ×ₗ List Sign := toLex (key.severity.rank, key.score.line)

variable (a b : SortKey)

/-- Scores can be compared where they have to be. -/
def IsComparable : Prop := a.severity.rank = b.severity.rank → a.score.IsComparable b.score

/-- The same severity and the same score. -/
def ties : Bool := a.severity.rank == b.severity.rank && a.score.same b.score

/-- A lower severity, or the same one and a score that is lower or the same. -/
def AtMost : Prop :=
  a.severity.rank < b.severity.rank ∨ a.severity.rank = b.severity.rank ∧
    (a.score.order b.score = .ok (some .lt) ∨ a.score.same b.score)

variable {a b : SortKey}

lemma place_eq_of_ties (h : a.ties b) : a.place = b.place := by
  obtain ⟨hrank, hsame⟩ := Bool.and_eq_true_iff.mp h
  rw [place, place, beq_iff_eq.mp hrank, line_eq_of_same hsame]

lemma IsComparable.atMost_iff (h : a.IsComparable b) : a.AtMost b ↔ a.place ≤ b.place := by
  unfold AtMost place
  rw [Prod.Lex.toLex_le_toLex]
  refine or_congr_right (and_congr_right fun hrank => ?_)
  rw [← (h hrank).line_lt_iff, ← (h hrank).line_eq_iff, le_iff_lt_or_eq]

lemma IsComparable.isBelow_iff (h : a.IsComparable b) : a.isBelow b ↔ a.place < b.place := by
  have hless : ((a.score.lessThan b.score).toOption == some true) ↔ a.score.order b.score = .ok (some .lt) := by
    unfold lessThan
    cases a.score.order b.score with
    | error fault => simp [bind, Except.bind, Except.toOption]
    | ok o =>
      rw [ok_bind]
      cases o with
      | none => simp [Except.toOption]
      | some o => cases o <;> simp [Except.toOption]
  unfold isBelow place
  rw [Prod.Lex.toLex_lt_toLex, Bool.or_eq_true, Bool.and_eq_true, decide_eq_true_iff, beq_iff_eq, hless]
  exact or_congr_right (and_congr_right fun hrank => (h hrank).line_lt_iff.symm)

lemma IsComparable.comparable (h : a.IsComparable b) : a.comparable b := by
  unfold SortKey.comparable
  by_cases hrank : a.severity.rank = b.severity.rank
  · rcases h hrank with hsame | hless | hgreater
    · simp [hsame]
    · simp [hless, Except.toOption]
    · simp [hgreater, Except.toOption]
  · simp [hrank]

end SortKey

/-! ## Stable sorts -/

section Sorting

variable {α : Type} {le : α → α → Bool} {items sorted : List α}

/-- A list is another one in order, and elements that are all equal in this order stand as before. -/
structure IsSorting (le : α → α → Bool) (items sorted : List α) : Prop where
  perm : sorted.Perm items
  ordered : sorted.Pairwise fun a b => le a b
  stable : ∀ p : α → Bool, (∀ a b, p a → p b → le a b) → sorted.filter p = items.filter p

lemma isSorting_mergeSort (htrans : ∀ a b c, le a b → le b c → le a c)
    (htotal : ∀ a b, (le a b || le b a)) (items : List α) : IsSorting le items (items.mergeSort le) := by
  have hperm := mergeSort_perm items le
  refine ⟨hperm, pairwise_mergeSort htrans htotal items, fun p hp => ?_⟩
  -- what is all equal is in order already, so it goes through the sort as it stands
  have hequal : (items.filter p).Pairwise fun a b => le a b :=
    pairwise_of_forall_mem_list fun a ha b hb => hp a b (mem_filter.mp ha).2 (mem_filter.mp hb).2
  have hsub := (sublist_mergeSort htrans htotal hequal filter_sublist).filter p
  rw [filter_filter] at hsub
  simp only [Bool.and_self] at hsub
  exact (hsub.eq_of_length (hperm.filter p).length_eq.symm).symm

lemma IsSorting.filter (h : IsSorting le items sorted) (q : α → Bool) :
    IsSorting le (items.filter q) (sorted.filter q) := by
  refine ⟨h.perm.filter q, h.ordered.filter q, fun p hp => ?_⟩
  rw [filter_comm, h.stable p hp, filter_comm]

lemma eq_of_ties (hrefl : ∀ a, le a a) (hsorted : sorted.Pairwise fun a b => le a b)
    (hother : other.Pairwise fun a b => le a b)
    (h : ∀ a, sorted.filter (fun b => le a b && le b a) = other.filter fun b => le a b && le b a) : sorted = other := by
  have hmem : ∀ {xs ys : List α}, (∀ a, xs.filter (fun b => le a b && le b a) = ys.filter fun b => le a b && le b a) →
      ∀ a ∈ xs, a ∈ ys := by
    intro xs ys heq a ha
    have hin : a ∈ xs.filter fun b => le a b && le b a := mem_filter.mpr ⟨ha, by rw [hrefl]; rfl⟩
    rw [heq] at hin
    exact (mem_filter.mp hin).1
  induction sorted generalizing other with
  | nil => exact (eq_nil_iff_forall_not_mem.mpr fun a ha => not_mem_nil (hmem (fun a => (h a).symm) a ha)).symm
  | cons a sorted ih =>
    cases other with
    | nil => exact absurd (hmem h a mem_cons_self) not_mem_nil
    | cons b other =>
      -- each first element stands before the other one or is it, so they are equal in the order, and then the same
      have hfirst : ∀ {x y : α} {rest : List α}, (x :: rest).Pairwise (fun a b => le a b) → y ∈ x :: rest →
          le x y := by
        intro x y rest hpairs hy
        rcases mem_cons.mp hy with rfl | hy
        · exact hrefl y
        · exact rel_of_pairwise_cons hpairs hy
      have hab := hfirst hsorted (hmem (fun a => (h a).symm) b mem_cons_self)
      have hba := hfirst hother (hmem h a mem_cons_self)
      have hheads := h a
      rw [filter_cons_of_pos (by rw [hrefl]; rfl), filter_cons_of_pos (by rw [hab, hba]; rfl)] at hheads
      obtain rfl := (cons.inj hheads).1
      congr 1
      refine ih hsorted.of_cons hother.of_cons fun c => ?_
      have htails := h c
      rw [filter_cons, filter_cons] at htails
      split at htails
      · exact (cons.inj htails).2
      · exact htails

end Sorting

/-! ## Order and threshold -/

def SortKey.of (finding : Value) : SortKey := (SortKey.ofFinding finding).toOption.getD ⟨.low, .null⟩

/-- Findings with a text as severity, or none, and with scores that can be compared where severities are the same. -/
structure AreComparable (findings : List Value) : Prop where
  severity : ∀ f ∈ findings, ∃ s, f.part "severity" (.str "low") = .ok (.str s)
  score : ∀ f ∈ findings, ∀ g ∈ findings, ∀ a b, SortKey.ofFinding f = .ok a → SortKey.ofFinding g = .ok b →
    a.IsComparable b

/-- Findings in order by severity and score, where those that tie stand as before. -/
structure AreSorted (descending : Bool) (findings sorted : List Value) : Prop where
  perm : sorted.Perm findings
  ordered : sorted.Pairwise fun f g => ∃ a b, SortKey.ofFinding f = .ok a ∧ SortKey.ofFinding g = .ok b ∧
    if descending then b.AtMost a else a.AtMost b
  stable : ∀ key : SortKey, let tied := fun f => (SortKey.ofFinding f).toOption.any key.ties
    sorted.filter tied = findings.filter tied

/-- Whether a finding may stand before another one. -/
def leads (descending : Bool) (f g : Value) : Bool :=
  if descending then (SortKey.of g).place ≤ (SortKey.of f).place else (SortKey.of f).place ≤ (SortKey.of g).place

lemma leads_trans (f g h : Value) (hfg : leads descending f g) (hgh : leads descending g h) : leads descending f h := by
  cases descending with
  | false => exact decide_eq_true (le_trans (of_decide_eq_true hfg) (of_decide_eq_true hgh))
  | true => exact decide_eq_true (le_trans (of_decide_eq_true hgh) (of_decide_eq_true hfg))

variable (descending : Bool)

lemma isSorting_leads (findings : List Value) :
    IsSorting (leads descending) findings (findings.mergeSort (leads descending)) := by
  refine isSorting_mergeSort leads_trans (fun f g => ?_) findings
  cases descending <;> simpa [leads] using le_total _ _

lemma leads_refl (f : Value) : leads descending f f := by cases descending <;> simp [leads]

namespace AreComparable

variable {findings : List Value} (h : AreComparable findings) {f : Value}

include h

lemma mono (hsub : others ⊆ findings) : AreComparable others :=
  ⟨fun f hf => h.severity f (hsub hf), fun f hf g hg => h.score f (hsub hf) g (hsub hg)⟩

lemma ofFinding_eq (hf : f ∈ findings) : ofFinding f = .ok (SortKey.of f).severity ∧
    SortKey.ofFinding f = .ok (SortKey.of f) := by
  obtain ⟨s, hs⟩ := h.severity f hf
  have hseverity : ofFinding f = .ok (ofText s) := by
    unfold ofFinding
    rw [hs]
    rfl
  obtain ⟨fields, hfields, -⟩ := of_bind hs
  have hkey : SortKey.ofFinding f = .ok ⟨ofText s, Record.getD fields "combined_score" (.float 0.0)⟩ := by
    unfold SortKey.ofFinding part
    rw [hseverity, hfields]
    rfl
  unfold SortKey.of
  rw [hkey]
  exact ⟨hseverity, rfl⟩

lemma isComparable (hf : f ∈ findings) (hg : g ∈ findings) : (SortKey.of f).IsComparable (SortKey.of g) :=
  h.score f hf g hg _ _ (h.ofFinding_eq hf).2 (h.ofFinding_eq hg).2

lemma sortBySeverity_eq : sortBySeverity descending findings = .ok (findings.mergeSort (leads descending)) := by
  have hkeyed : (findings.mapM fun f => do return (← SortKey.ofFinding f, f)) =
      (.ok (findings.map fun f => (SortKey.of f, f)) : Except Fault _) := by
    rw [mapM_eq_ok_iff, forall₂_map_right_iff, forall₂_same]
    intro f hf
    rw [(h.ofFinding_eq hf).2]
    rfl
  have hall : ((findings.map fun f => (SortKey.of f, f)).all fun a =>
      (findings.map fun f => (SortKey.of f, f)).all fun b => a.1.comparable b.1) := by
    simp only [all_eq_true, forall_mem_map]
    exact fun f hf g hg => (h.isComparable hf hg).comparable
  unfold sortBySeverity
  rw [hkeyed, ok_bind, hall]
  refine congrArg ok ?_
  rw [map_mergeSort (s := leads descending), map_map]
  · exact congrArg (mergeSort · _) (map_id findings)
  · simp only [forall_mem_map]
    intro f hf g hg
    rw [Bool.eq_iff_iff]
    cases descending with
    | false => simp [leads, ← not_lt, ← (h.isComparable hg hf).isBelow_iff]
    | true => simp [leads, ← not_lt, ← (h.isComparable hf hg).isBelow_iff]

lemma atLeastSeverity_eq (least : String) : atLeastSeverity least findings =
    .ok (findings.filter fun f => (ofText least).rank ≤ (SortKey.of f).severity.rank) := by
  unfold atLeastSeverity
  rw [filterM_eq_ok fun f hf => by rw [(h.ofFinding_eq hf).1]; exact ⟨_, rfl⟩]
  refine congrArg Except.ok (filter_congr fun f hf => ?_)
  rw [(h.ofFinding_eq hf).1, Bool.eq_iff_iff]
  simp [Except.toOption]

lemma areSorted : AreSorted descending findings (findings.mergeSort (leads descending)) := by
  have hsorting := isSorting_leads descending findings
  have hmem : ∀ {f}, f ∈ findings.mergeSort (leads descending) → f ∈ findings := fun hf => hsorting.perm.mem_iff.mp hf
  refine ⟨hsorting.perm, hsorting.ordered.imp_of_mem fun {f g} hf hg hleads => ?_, fun key => ?_⟩
  · refine ⟨_, _, (h.ofFinding_eq (hmem hf)).2, (h.ofFinding_eq (hmem hg)).2, ?_⟩
    rw [(h.isComparable (hmem hf) (hmem hg)).atMost_iff, (h.isComparable (hmem hg) (hmem hf)).atMost_iff]
    cases descending <;> simpa [leads] using hleads
  · -- all that ties with a key has its place
    have hplace : ∀ f, (SortKey.ofFinding f).toOption.any key.ties → (SortKey.of f).place = key.place := by
      intro f hf
      obtain ⟨a, ha, hties⟩ := (Option.any_eq_true _ _).mp hf
      unfold SortKey.of
      rw [ha]
      exact (SortKey.place_eq_of_ties hties).symm
    refine hsorting.stable _ fun f g hf hg => ?_
    cases descending with
    | false => exact decide_eq_true ((hplace f hf).trans (hplace g hg).symm).le
    | true => exact decide_eq_true ((hplace g hg).trans (hplace f hf).symm).le

end AreComparable

/-- **Order and threshold commute.** Comparable findings are put in order, in either direction and with ties as they
were, and dropping those below a severity before or after that leaves the same list. -/
theorem sort_then_drop {findings : List Value} (h : AreComparable findings) (descending : Bool) (least : String) :
    ∃ sorted kept both, sortBySeverity descending findings = .ok sorted ∧ AreSorted descending findings sorted ∧
      atLeastSeverity least findings = .ok kept ∧ atLeastSeverity least sorted = .ok both ∧
      sortBySeverity descending kept = .ok both := by
  have hsorting := isSorting_leads descending findings
  refine ⟨_, _, _, h.sortBySeverity_eq descending, h.areSorted descending, h.atLeastSeverity_eq least,
    (h.mono hsorting.perm.subset).atLeastSeverity_eq least, ?_⟩
  rw [(h.mono List.filter_sublist.subset).sortBySeverity_eq descending]
  have hboth := hsorting.filter fun f => (Severity.ofText least).rank ≤ (SortKey.of f).severity.rank
  have hkept := isSorting_leads descending
    (findings.filter fun f => (Severity.ofText least).rank ≤ (SortKey.of f).severity.rank)
  refine congrArg Except.ok (eq_of_ties (leads_refl descending) hkept.ordered hboth.ordered fun f => ?_)
  have hequal : ∀ g h, (leads descending f g && leads descending g f) = true →
      (leads descending f h && leads descending h f) = true → leads descending g h = true := by
    intro g h hg hh
    rw [Bool.and_eq_true] at hg hh
    exact leads_trans g f h hg.2 hh.1
  rw [hkept.stable _ hequal, hboth.stable _ hequal]

def mixedFindings : List Value :=
  [.obj [("severity", .str "HIGH"), ("combined_score", .int 2), ("file", .str "b.py")],
   .obj [("combined_score", .list [.int 1, .str "x"])],
   .obj [("severity", .str "high"), ("combined_score", .int 2), ("file", .str "a.py")],
   .obj [("severity", .str "High"), ("combined_score", .int 7)]]

theorem sort_then_drop_mixedFindings : AreComparable mixedFindings ∧
    ∃ sorted kept both, sortBySeverity true mixedFindings = .ok sorted ∧ AreSorted true mixedFindings sorted ∧
      atLeastSeverity "medium" mixedFindings = .ok kept ∧ atLeastSeverity "medium" sorted = .ok both ∧
      sortBySeverity true kept = .ok both := by
  have hcomparable : AreComparable mixedFindings := by
    refine ⟨fun f hf => ?_, fun f hf g hg a b ha hb hrank => ?_⟩
    · simp only [mixedFindings, mem_cons, not_mem_nil, or_false] at hf
      rcases hf with rfl | rfl | rfl | rfl <;> exact ⟨_, rfl⟩
    · simp only [mixedFindings, mem_cons, not_mem_nil, or_false] at hf hg
      rcases hf with rfl | rfl | rfl | rfl <;> rcases hg with rfl | rfl | rfl | rfl <;> cases ha <;> cases hb <;>
        first
        | exact absurd hrank (by decide +kernel)
        | exact .inl (by decide +kernel)
        | exact .inr (.inl rfl)
        | exact .inr (.inr rfl)
  exact ⟨hcomparable, sort_then_drop hcomparable true "medium"⟩

end CodeAudit

import CodeAudit.Fault
import Mathlib.Data.List.Forall2

/-!
# Outcomes of steps that may fail

Steps that may fail are chained by `do`. A chain has a result exactly when its first step has one from which the rest
has it, and a list is worked through exactly when each element is.
-/

namespace CodeAudit.Proofs

open List Except

variable {α β ε : Type}

variable {first x : Except ε α} {items : List α} {results : List β}
  {rest step : α → Except ε β} {b start result : β} {a : α} {R : α → β → Prop} {test : α → Bool}

@[simp] lemma pure_eq_ok (a : α) : (pure a : Except ε α) = .ok a := rfl

@[simp] lemma throw_eq_error (e : ε) : (throw e : Except ε α) = .error e := rfl

@[simp] lemma ok_bind (a : α) (rest : α → Except ε β) : (ok a >>= rest) = rest a := rfl

@[simp] lemma error_bind (e : ε) (rest : α → Except ε β) : (error e >>= rest) = .error e := rfl

/-- A chain has a result exactly when its first step has one and the rest has it from there. -/
lemma bind_eq_ok_iff : (first >>= rest) = .ok b ↔ ∃ a, first = .ok a ∧ rest a = .ok b := by
  cases first <;> simp [bind, Except.bind]

lemma of_bind (h : (first >>= rest) = .ok b) : ∃ a, first = .ok a ∧ rest a = .ok b := bind_eq_ok_iff.mp h

lemma map_eq_ok_iff : first.map f = .ok b ↔ ∃ a, first = .ok a ∧ f a = b := by
  cases first <;> simp [Except.map]

lemma fails_bind_iff :
    (∃ e, (first >>= rest) = .error e) ↔ (∃ e, first = .error e) ∨ ∃ a, first = .ok a ∧ ∃ e, rest a = .error e := by
  cases first <;> simp [bind, Except.bind]

lemma toOption_eq_some_iff : x.toOption = some a ↔ x = .ok a := by
  cases x <;> simp [Except.toOption]

lemma isOk_iff : x.isOk ↔ ∃ a, x = .ok a := by
  cases x <;> simp [Except.isOk, Except.toBool]

lemma isOk_eq_false_iff : x.isOk = false ↔ ∃ e, x = .error e := by
  cases x <;> simp [Except.isOk, Except.toBool]

lemma mapM_eq_ok_iff : items.mapM step = .ok results ↔ Forall₂ (fun a b => step a = .ok b) items results := by
  induction items generalizing results with
  | nil =>
    rw [mapM_nil, forall₂_nil_left_iff]
    exact ⟨fun h => (ok.inj h).symm, fun h => congrArg ok h.symm⟩
  | cons a items ih =>
    rw [mapM_cons, bind_eq_ok_iff]
    constructor
    · rintro ⟨b, hb, hrest⟩
      obtain ⟨bs, hbs, hend⟩ := of_bind hrest
      cases hend
      exact .cons hb (ih.mp hbs)
    · intro h
      cases h with
      | cons hb hbs => exact ⟨_, hb, bind_eq_ok_iff.mpr ⟨_, ih.mpr hbs, rfl⟩⟩

lemma exists_forall₂ (h : ∀ a ∈ items, ∃ b, R a b) : ∃ others, Forall₂ R items others := by
  induction items with
  | nil => exact ⟨[], .nil⟩
  | cons a items ih =>
    obtain ⟨b, hb⟩ := h a mem_cons_self
    obtain ⟨bs, hbs⟩ := ih fun x hx => h x (mem_cons_of_mem _ hx)
    exact ⟨b :: bs, .cons hb hbs⟩

lemma exists_mapM_eq_ok (h : ∀ a ∈ items, ∃ b, step a = .ok b) : ∃ results, items.mapM step = .ok results :=
  (exists_forall₂ h).imp fun _ => mapM_eq_ok_iff.mpr

lemma exists_mem_of_forall₂ {others : List β} (h : Forall₂ R items others) {b : β} (hb : b ∈ others) :
    ∃ a ∈ items, R a b := by
  induction h with
  | nil => cases hb
  | cons hfirst _ ih =>
    rcases mem_cons.mp hb with rfl | hrest
    · exact ⟨_, mem_cons_self, hfirst⟩
    · obtain ⟨a, ha, hab⟩ := ih hrest
      exact ⟨a, mem_cons_of_mem _ ha, hab⟩

lemma exists_result_of_mapM (h : items.mapM step = .ok results) (ha : a ∈ items) : ∃ b ∈ results, step a = .ok b :=
  exists_mem_of_forall₂ (mapM_eq_ok_iff.mp h).flip ha

lemma exists_getElem?_of_forall₂ (h : Forall₂ R items results) {i : Nat} (ha : items[i]? = some a) :
    ∃ b, results[i]? = some b ∧ R a b := by
  induction h generalizing i with
  | nil => cases ha
  | cons hfirst _ ih =>
    cases i with
    | zero =>
      cases Option.some.inj ha
      exact ⟨_, rfl, hfirst⟩
    | succ i => exact ih ha

lemma exists_mem_of_mapM (h : items.mapM step = .ok results) (hb : b ∈ results) : ∃ a ∈ items, step a = .ok b :=
  exists_mem_of_forall₂ (mapM_eq_ok_iff.mp h) hb

lemma map_eq_of_forall₂ {after : β → γ} (h : Forall₂ R items results)
    (kept : ∀ a b, R a b → after b = before a) : results.map after = items.map before := by
  induction h with
  | nil => rfl
  | cons hfirst _ ih => rw [map_cons, map_cons, kept _ _ hfirst, ih]

/-- What every step keeps, a run through a list keeps in order. -/
lemma map_eq_of_mapM {after : β → γ} (h : items.mapM step = .ok results)
    (kept : ∀ a b, step a = .ok b → after b = before a) : results.map after = items.map before :=
  map_eq_of_forall₂ (mapM_eq_ok_iff.mp h) kept

lemma mapM_congr (h : ∀ a ∈ items, step a = other a) : items.mapM step = items.mapM other := by
  induction items with
  | nil => rfl
  | cons a items ih =>
    rw [mapM_cons, mapM_cons, h a mem_cons_self, ih fun x hx => h x (mem_cons_of_mem _ hx)]

lemma mapM_congr_forall₂
    (h : Forall₂ (fun a b => step a = step b) items others) : items.mapM step = others.mapM step := by
  induction h with
  | nil => rfl
  | cons hfirst _ ih => rw [mapM_cons, mapM_cons, hfirst, ih]

lemma forM_eq_ok_iff {check : α → Except ε Unit} : items.forM check = .ok u ↔ ∀ a ∈ items, check a = .ok () := by
  induction items with
  | nil => simp
  | cons a items ih =>
    change (check a >>= fun _ => items.forM check) = _ ↔ _
    rw [bind_eq_ok_iff, forall_mem_cons, ← ih]
    exact ⟨fun ⟨(), ha, hrest⟩ => ⟨ha, hrest⟩, fun ⟨ha, hrest⟩ => ⟨(), ha, hrest⟩⟩

/-- A loop that never stops early ends exactly when it gets past each element, having gone from one to the next. -/
lemma forIn_eq_ok_iff {body : α → β → Except ε (ForInStep β)} (passes : α → Prop) (next : β → α → β)
    (h : ∀ a b step, body a b = .ok step ↔ passes a ∧ step = .yield (next b a)) :
    forIn items start body = .ok result ↔ (∀ a ∈ items, passes a) ∧ result = items.foldl next start := by
  induction items generalizing start with
  | nil =>
    rw [forIn_nil, pure_eq_ok, ok.injEq, foldl_nil]
    exact ⟨fun heq => ⟨nofun, heq.symm⟩, fun hend => hend.2.symm⟩
  | cons a items ih =>
    rw [forIn_cons, bind_eq_ok_iff, forall_mem_cons, foldl_cons]
    constructor
    · rintro ⟨step, hstep, hrest⟩
      obtain ⟨hpasses, rfl⟩ := (h a start step).mp hstep
      obtain ⟨hall, hresult⟩ := ih.mp hrest
      exact ⟨⟨hpasses, hall⟩, hresult⟩
    · rintro ⟨⟨hpasses, hall⟩, hresult⟩
      exact ⟨_, (h a start _).mpr ⟨hpasses, rfl⟩, ih.mpr ⟨hall, hresult⟩⟩

/-- What every step of a fold preserves, the fold preserves. -/
lemma foldlM_invariant {step : β → α → Except ε β}
    (h : items.foldlM step start = .ok result) (Inv : β → Prop) (hstart : Inv start)
    (hstep : ∀ a ∈ items, ∀ b, Inv b → ∀ next, step b a = .ok next → Inv next) : Inv result := by
  induction items generalizing start with
  | nil =>
    cases h
    exact hstart
  | cons a items ih =>
    rw [foldlM_cons] at h
    obtain ⟨next, hnext, hrest⟩ := of_bind h
    exact ih hrest (hstep a mem_cons_self start hstart next hnext) fun x hx => hstep x (mem_cons_of_mem _ hx)

/-! ## Whether there is a result -/

/-- Where it does not matter what the first step ends with, a chain has a result if both parts have one. -/
lemma isOk_bind {a b : Bool} (hfirst : first.isOk = a)
    (hrest : ∀ x, (rest x).isOk = b) : (first >>= rest).isOk = (a && b) := by
  subst hfirst
  cases first with
  | error e => rfl
  | ok x => exact hrest x

lemma isOk_bind_pure (first : Except ε α) (f : α → β) : (first >>= fun x => pure (f x)).isOk = first.isOk := by
  cases first <;> rfl

lemma isOk_mapM (h : ∀ a, (step a).isOk = test a) (items : List α) : (items.mapM step).isOk = items.all test := by
  induction items with
  | nil => rfl
  | cons a items ih =>
    rw [mapM_cons, all_cons]
    refine isOk_bind (h a) fun b => ?_
    rw [isOk_bind_pure, ih]

lemma isOk_foldlM {step : β → α → Except ε β} (h : ∀ b a, (step b a).isOk = test a)
    (items : List α) (start : β) : (items.foldlM step start).isOk = items.all test := by
  induction items generalizing start with
  | nil => rfl
  | cons a items ih =>
    rw [foldlM_cons, all_cons]
    exact isOk_bind (h start a) ih

lemma isOk_filterM {step : α → Except ε Bool} (h : ∀ a, (step a).isOk = test a)
    (items : List α) : (items.filterM step).isOk = items.all test := by
  have hgathered : ∀ passed, (items.filterAuxM step passed).isOk = items.all test := by
    induction items with
    | nil => exact fun passed => rfl
    | cons a items ih =>
      intro passed
      rw [filterAuxM, all_cons]
      exact isOk_bind (h a) fun _ => ih _
  unfold filterM
  rw [isOk_bind_pure, hgathered]

/-- A loop that carries nothing and never stops early has a result where each of its turns has one. -/
lemma isOk_forIn {body : α → PUnit.{1} → Except ε (ForInStep PUnit.{1})}
    (h : ∀ a, (body a ⟨⟩).isOk = test a) (hyield : ∀ a step, body a ⟨⟩ = .ok step → step = .yield ⟨⟩)
    (items : List α) : (forIn items ⟨⟩ body).isOk = items.all test := by
  induction items with
  | nil => rfl
  | cons a items ih =>
    rw [forIn_cons, all_cons, ← h a, ← ih]
    cases hstep : body a ⟨⟩ with
    | error e => rfl
    | ok step =>
      rw [hyield a step hstep]
      rfl

/-- A list is filtered where each element can be tested, and keeps those that pass. -/
lemma filterM_eq_ok {test : α → Except ε Bool} (h : ∀ a ∈ items, ∃ b, test a = .ok b) :
    items.filterM test = .ok (items.filter fun a => (test a).toOption == some true) := by
  -- The elements that passed so far are gathered from the last to the first.
  have hgathered : ∀ passed, items.filterAuxM test passed =
      .ok ((items.filter fun a => (test a).toOption == some true).reverse ++ passed) := by
    induction items with
    | nil => exact fun passed => rfl
    | cons a items ih =>
      intro passed
      obtain ⟨b, hb⟩ := h a mem_cons_self
      have hrest := ih fun x hx => h x (mem_cons_of_mem _ hx)
      rw [filterAuxM, hb, ok_bind, hrest, filter_cons, hb]
      cases b with
      | false => rfl
      | true => simp [Except.toOption]
  unfold filterM
  rw [hgathered [], ok_bind, append_nil, reverse_reverse, pure_eq_ok]

lemma filterM_eq_ok_iff {test : α → Except ε Bool} : items.filterM test = .ok kept ↔
    (∀ a ∈ items, ∃ b, test a = .ok b) ∧ (items.filter fun a => (test a).toOption == some true) = kept := by
  constructor
  · intro h
    have hok := isOk_filterM (fun a => (rfl : (test a).isOk = _)) items
    rw [h] at hok
    have hall : ∀ a ∈ items, ∃ b, test a = .ok b := fun a ha => isOk_iff.mp (all_eq_true.mp hok.symm a ha)
    exact ⟨hall, ok.inj ((filterM_eq_ok hall).symm.trans h)⟩
  · rintro ⟨hall, rfl⟩
    exact filterM_eq_ok hall

lemma mem_of_filterM {test : α → Except ε Bool} (h : items.filterM test = .ok kept) : ∀ a ∈ kept, a ∈ items := by
  obtain ⟨-, rfl⟩ := filterM_eq_ok_iff.mp h
  exact fun a => mem_of_mem_filter

end CodeAudit.Proofs

import CodeAudit.Proofs.Outcome

/-!
# Steps that change a state

What a chain of steps has changed in a state stays even where it fails. `on` is what it ends with and the state that it
leaves; `Keeps` says that it leaves part of the state alone, however it ends.
-/

namespace CodeAudit.Proofs.Steps

variable {ε σ α β γ : Type}

/-- What some steps end with on a state, and the state that they leave. -/
def on (act : ExceptT ε (StateM σ) α) (s : σ) : Except ε α × σ := act.run s

@[simp] lemma on_pure (a : α) (s : σ) : on (pure a : ExceptT ε (StateM σ) α) s = (.ok a, s) := rfl

@[simp] lemma on_get (s : σ) : on (get : ExceptT ε (StateM σ) σ) s = (.ok s, s) := rfl

@[simp] lemma on_set (s t : σ) : on (set t : ExceptT ε (StateM σ) PUnit) s = (.ok ⟨⟩, t) := rfl

section Bind

variable {act : ExceptT ε (StateM σ) α} {rest : α → ExceptT ε (StateM σ) β} {s t : σ}

lemma on_bind (act : ExceptT ε (StateM σ) α) (rest : α → ExceptT ε (StateM σ) β) (s : σ) :
    on (act >>= rest) s = match on act s with
      | (.ok a, t) => on (rest a) t
      | (.error e, t) => (.error e, t) := by
  change ExceptT.bindCont rest (on act s).1 (on act s).2 = _
  rcases on act s with ⟨result, t⟩
  cases result <;> rfl

lemma on_bind_of_ok (h : on act s = (.ok a, t)) : on (act >>= rest) s = on (rest a) t := by
  rw [on_bind, h]

lemma on_bind_pure_snd (f : α → β) : (on (act >>= fun a => pure (f a)) s).2 = (on act s).2 := by
  rw [on_bind]
  rcases on act s with ⟨result, between⟩
  cases result <;> rfl

/-- A chain has a result exactly when its first part has one and the rest has it on the state left behind. -/
lemma on_bind_eq_ok_iff :
    on (act >>= rest) s = (.ok b, t) ↔ ∃ a between, on act s = (.ok a, between) ∧ on (rest a) between = (.ok b, t) := by
  rw [on_bind]
  rcases on act s with ⟨result, between⟩
  cases result <;> simp

lemma of_on_bind {b : β} (h : on (act >>= rest) s = (.ok b, t)) :
    ∃ a between, on act s = (.ok a, between) ∧ on (rest a) between = (.ok b, t) := on_bind_eq_ok_iff.mp h

/-- A chain fails where its first part does, or where the rest does on the state left behind. -/
lemma on_bind_eq_error_iff :
    on (act >>= rest) s = (.error e, t) ↔
      on act s = (.error e, t) ∨ ∃ a between, on act s = (.ok a, between) ∧ on (rest a) between = (.error e, t) := by
  rw [on_bind]
  rcases on act s with ⟨result, between⟩
  cases result <;> simp

end Bind

/-! ## What is left alone -/

/-- However the steps end, what `view` shows of the state is what it was. -/
def Keeps (view : σ → γ) (act : ExceptT ε (StateM σ) α) : Prop := ∀ s, view (on act s).2 = view s

variable {view : σ → γ} {act : ExceptT ε (StateM σ) α} {rest : α → ExceptT ε (StateM σ) β}

lemma Keeps.pure (a : α) : Keeps view (Pure.pure a : ExceptT ε (StateM σ) α) := fun _ => rfl

lemma Keeps.bind (hact : Keeps view act) (hrest : ∀ a, Keeps view (rest a)) : Keeps view (act >>= rest) := by
  intro s
  rw [on_bind, ← hact s]
  rcases on act s with ⟨result, between⟩
  cases result with
  | error e => rfl
  | ok a => exact hrest a between

lemma on_bind_snd (hrest : ∀ a, Keeps (fun s : σ => s) (rest a)) (s : σ) : (on (act >>= rest) s).2 = (on act s).2 := by
  rw [on_bind]
  rcases on act s with ⟨result, between⟩
  cases result with
  | error e => rfl
  | ok a => exact hrest a between

lemma Keeps.forM {act : α → ExceptT ε (StateM σ) PUnit} {items : List α} (h : ∀ a ∈ items, Keeps view (act a)) :
    Keeps view (items.forM act) := by
  induction items with
  | nil => exact Keeps.pure _
  | cons a items ih =>
    have hfirst := h a List.mem_cons_self
    have hrest := ih fun b hb => h b (List.mem_cons_of_mem _ hb)
    exact hfirst.bind fun _ => hrest

end CodeAudit.Proofs.Steps

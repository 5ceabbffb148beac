import CodeAudit.Host
import CodeAudit.Proofs.Steps
import Mathlib.Data.List.TakeWhile

/-!
# Running actions

Actions are steps that change the host. These equations say what each way of building them ends with and which host it
leaves, so that no proof opens the layers below.
-/

namespace CodeAudit.Action

open List String Proofs.Steps

variable {α β : Type} {act : α → Action β} {host after : Host}

/-- A host with some files, where nothing else is to be reached. -/
def hostOf (files : FileTree) : Host where
  files := files
  tools := {}
  index := []
  lookup := { network := { replies := [] }, cache := .empty (.int 0), clock := 0 }
  now := { day := 1, micros := 0 }

@[simp] lemma on_ofExcept (result : Except Fault α) (host : Host) : on (ofExcept result) host = (result, host) := by
  cases result <;> rfl

lemma on_ofExcept_eq_ok_iff : on (ofExcept result) host = (.ok a, after) ↔ result = .ok a ∧ after = host := by
  rw [on_ofExcept, Prod.mk.injEq, eq_comm (a := host)]

@[simp] lemma on_reading (f : FileTree → Except Fault α) (host : Host) : on (reading f) host = (f host.files, host) := by
  unfold reading
  rw [on_bind, on_get]
  exact on_ofExcept _ host

@[simp] lemma on_visiting (f : Nat → FileTree → Except Fault α) (host : Host) :
    on (visiting f) host = (f host.room host.files, host) := by
  unfold visiting
  rw [on_bind, on_get]
  exact on_ofExcept _ host

lemma on_reading_eq_ok_iff : on (reading f) host = (.ok a, after) ↔ f host.files = .ok a ∧ after = host := by
  rw [on_reading, Prod.mk.injEq, eq_comm (a := host)]

section Writing

variable {path : String}

lemma on_changing_eq_ok_iff :
    on (changing f) host = (.ok u, after) ↔ ∃ files, f host.files = .ok files ∧ after = { host with files } := by
  unfold changing
  rw [on_bind, on_get]
  dsimp only
  rw [on_bind, on_ofExcept]
  cases f host.files with
  | error fault => simp
  | ok files =>
    change (Except.ok (), { host with files }) = _ ↔ _
    simp [eq_comm]

/-- **Writing succeeds** where every part can be encoded and the file be written, and does just that. -/
lemma on_writeParts_eq_ok_iff : on (writeParts path parts) host = (.ok (), after) ↔
    (∀ part ∈ parts, Text.isEncodable part) ∧
      ∃ files, host.files.writeText path (join parts) = .ok files ∧ after = { host with files } := by
  unfold writeParts
  dsimp only
  rw [on_bind_eq_ok_iff, ← takeWhile_eq_self_iff]
  simp only [on_changing_eq_ok_iff]
  by_cases hall : parts.takeWhile Text.isEncodable = parts
  · rw [hall, if_neg (by omega)]
    constructor
    · rintro ⟨-, _, ⟨files, hfiles, rfl⟩, ⟨⟩⟩
      exact ⟨rfl, files, hfiles, rfl⟩
    · rintro ⟨-, files, hfiles, rfl⟩
      exact ⟨(), _, ⟨files, hfiles, rfl⟩, rfl⟩
  · have hcut : (parts.takeWhile Text.isEncodable).length < parts.length :=
      Nat.lt_of_not_le fun hle => hall ((takeWhile_sublist _).eq_of_length_le hle)
    rw [if_pos hcut]
    exact ⟨fun ⟨_, _, _, h⟩ => (nomatch h), fun h => absurd h.1 hall⟩

end Writing

@[simp] lemma on_lookingUp (f : LookupState → Except Fault α × LookupState) (host : Host) :
    on (lookingUp f) host = ((f host.lookup).1, { host with lookup := (f host.lookup).2 }) := by
  change on (ofExcept (f host.lookup).1) { host with lookup := (f host.lookup).2 } = _
  exact on_ofExcept _ _

/-- Where no version control program is at hand, nothing is known about changes. -/
lemma on_churn (hgit : host.tools.git = []) : on churn host = (.ok {}, host) := by
  obtain ⟨files, ⟨bandit, eslint, node, git⟩, index, lookup, now⟩ := host
  subst hgit
  rfl

lemma on_tryCatch (act : Action α) (handle : Fault → Action α) (host : Host) :
    on (tryCatch act handle) host = match on act host with
      | (.ok a, after) => (.ok a, after)
      | (.error fault, after) => on (handle fault) after := by
  simp only [on, tryCatch, tryCatchThe, MonadExceptOf.tryCatch, ExceptT.tryCatch, ExceptT.run, ExceptT.mk, bind,
    StateT.bind]
  rcases act host with ⟨result, after⟩
  cases result <;> rfl

lemma on_mapM (h : ∀ a, on (act a) host = (result a, host)) (items : List α) :
    on (items.mapM act) host = (items.mapM result, host) := by
  induction items with
  | nil => rfl
  | cons a items ih =>
    rw [mapM_cons, mapM_cons, on_bind, h a]
    cases result a with
    | error fault => rfl
    | ok b =>
      dsimp only
      rw [on_bind, ih]
      cases items.mapM result <;> rfl

/-- What stands in the results of a list that is worked through is the result of one of its elements, on some host. -/
lemma exists_on_of_mem_mapM {items : List α} (h : on (items.mapM act) host = (.ok results, after)) (hb : b ∈ results) :
    ∃ a ∈ items, ∃ before left, on (act a) before = (.ok b, left) := by
  induction items generalizing host results with
  | nil =>
    cases h
    cases hb
  | cons a items ih =>
    rw [mapM_cons] at h
    obtain ⟨b', between, hfirst, h⟩ := of_on_bind h
    obtain ⟨rest, between', hrest, h⟩ := of_on_bind h
    cases h
    rcases mem_cons.mp hb with rfl | hb
    · exact ⟨a, mem_cons_self, host, between, hfirst⟩
    · obtain ⟨a', ha', hresult⟩ := ih hrest hb
      exact ⟨a', mem_cons_of_mem _ ha', hresult⟩

end CodeAudit.Action

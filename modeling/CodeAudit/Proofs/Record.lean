import Mathlib.Data.List.Induction
import CodeAudit.Value.Basic

/-!
# Fields of records

A record is a list of fields, and writing a field changes that field alone. Proofs about findings use records only
through these facts.
-/

namespace CodeAudit.Record

open List

variable {r fields : Record} {name : String}

lemma erase_put (r : Record) (name : String) (value : Value) : erase (put r name value) name = erase r name := by
  unfold put
  split
  · -- what is written in place carries the name that is removed, and the other fields stay
    have hkeep : ∀ field ∈ r.filter (·.1 != name), (if field.1 == name then (name, value) else field) = field := by
      intro field hfield
      have hne := (mem_filter.mp hfield).2
      rw [if_neg (by simpa using hne)]
    have hsame : ((fun field : String × Value => field.1 != name) ∘
        fun field : String × Value => if field.1 == name then (name, value) else field)
          = fun field => field.1 != name := by
      funext field
      by_cases h : field.1 == name <;> simp_all
    unfold erase
    rw [filter_map, hsame]
    exact (map_congr_left hkeep).trans (map_id' _)
  · simp [erase]

/-! ## Reading fields -/

@[simp] lemma get?_nil (name : String) : get? [] name = none := rfl

@[simp] lemma get?_cons (field : String × Value) (r : Record) (name : String) :
    get? (field :: r) name = if field.1 = name then some field.2 else get? r name := by
  unfold get?
  rw [find?_cons]
  by_cases h : field.1 = name
  · rw [if_pos h, beq_iff_eq.mpr h]
    rfl
  · rw [if_neg h, beq_eq_false_iff_ne.mpr h]

@[simp] lemma get?_append (r r' : Record) (name : String) : get? (r ++ r') name = (get? r name).or (get? r' name) := by
  unfold get?
  rw [find?_append, Option.map_or]

lemma mem_of_get? (h : get? r name = some value) : (name, value) ∈ r := by
  obtain ⟨field, hfield, rfl⟩ := Option.map_eq_some_iff.mp h
  have hname : field.1 = name := by simpa using find?_some hfield
  rw [← hname]
  exact mem_of_find?_eq_some hfield

lemma get?_of_mem (hdistinct : r.names.Nodup) (h : field ∈ r) : get? r field.1 = some field.2 := by
  induction r with
  | nil => cases h
  | cons first rest ih =>
    obtain ⟨hnew, hrest⟩ := nodup_cons.mp hdistinct
    rw [get?_cons]
    rcases mem_cons.mp h with rfl | hin
    · exact if_pos rfl
    · have hne : first.1 ≠ field.1 := by
        intro heq
        refine hnew ?_
        dsimp only
        rw [heq]
        exact mem_map_of_mem hin
      rw [if_neg hne]
      exact ih hrest hin

lemma get?_eq_none (h : ∀ field ∈ r, field.1 ≠ name) : get? r name = none := by
  unfold get?
  rw [Option.map_eq_none_iff, find?_eq_none]
  intro field hfield
  rw [beq_iff_eq]
  exact h field hfield

lemma get?_map_put (r : Record) (name : String) (value : Value) (other : String) :
    get? (r.map fun field => if field.1 == name then (name, value) else field) other =
      if other = name then (if has r name then some value else none) else get? r other := by
  induction r with
  | nil => simp [get?, has]
  | cons field r ih =>
    rw [map_cons, get?_cons, get?_cons, ih]
    by_cases hname : field.1 = name
    · have hhas : has (field :: r) name := by simp [has, hname]
      rw [if_pos (beq_iff_eq.mpr hname), hhas]
      by_cases hother : other = name
      · rw [if_pos hother.symm, if_pos hother, if_pos rfl]
      · rw [if_neg (Ne.symm hother), if_neg hother, if_neg hother, if_neg (fun h => hother (h.symm.trans hname))]
    · have hhas : has (field :: r) name = has r name := by simp [has, hname]
      rw [if_neg (fun h => hname (beq_iff_eq.mp h)), hhas]
      by_cases hother : other = name
      · rw [if_neg (fun h => hname (h.trans hother)), if_pos hother, if_pos hother]
      · rw [if_neg hother, if_neg hother]

/-- A field is read as it was written last, and writing it changes no other. -/
@[simp] lemma get?_put (r : Record) (name : String) (value : Value) (other : String) :
    get? (put r name value) other = if other = name then some value else get? r other := by
  unfold put
  split
  · next hhas => rw [get?_map_put, if_pos hhas]
  · next hhas =>
    rw [get?_append, get?_cons]
    by_cases hother : other = name
    · have hnone : get? r other = none := by
        refine get?_eq_none fun field hfield heq => hhas ?_
        exact any_eq_true.mpr ⟨field, hfield, beq_iff_eq.mpr (heq.trans hother)⟩
      rw [hnone, if_pos hother.symm, if_pos hother]
      rfl
    · rw [if_neg (Ne.symm hother), if_neg hother]
      exact Option.or_none

/-- Fields that are written one after the other leave those of other names as they are. -/
lemma get?_foldl_put (h : name ∉ names fields) (r : Record) :
    get? (fields.foldl (fun r field => put r field.1 field.2) r) name = get? r name := by
  induction fields generalizing r with
  | nil => rfl
  | cons field fields ih =>
    obtain ⟨hname, hnames⟩ := ne_and_not_mem_of_not_mem_cons h
    rw [foldl_cons, ih hnames, get?_put, if_neg hname]

/-- Fields of new names are written behind the others. -/
lemma foldl_put_of_nodup (h : (names (r ++ fields)).Nodup) :
    fields.foldl (fun r field => put r field.1 field.2) r = r ++ fields := by
  induction fields generalizing r with
  | nil => exact (append_nil r).symm
  | cons field fields ih =>
    have hnew : has r field.1 = false := by
      unfold names at h
      rw [map_append, nodup_append] at h
      unfold has
      rw [any_eq_false]
      intro f hf heq
      exact h.2.2 f.1 (mem_map_of_mem hf) field.1 mem_cons_self (beq_iff_eq.mp heq)
    have hput : put r field.1 field.2 = r ++ [field] := by rw [put, hnew, if_neg Bool.false_ne_true]
    rw [foldl_cons, hput, ih (by rw [← append_cons]; exact h), ← append_cons]

lemma ofFields_of_nodup (h : (names fields).Nodup) : ofFields fields = fields :=
  foldl_put_of_nodup (r := []) h

/-- **The last field of a name counts.** -/
lemma get?_ofFields (fields : List (String × Value)) (name : String) :
    get? (ofFields fields) name = get? fields.reverse name := by
  induction fields using reverseRecOn with
  | nil => rfl
  | append_singleton fields field ih =>
    have hlast : ofFields (fields ++ [field]) = put (ofFields fields) field.1 field.2 := by
      unfold ofFields
      rw [foldl_append]
      rfl
    rw [hlast, get?_put, reverse_append, reverse_singleton, singleton_append, get?_cons, ih]
    by_cases hname : field.1 = name
    · rw [if_pos hname, if_pos hname.symm]
    · rw [if_neg hname, if_neg (Ne.symm hname)]

end CodeAudit.Record

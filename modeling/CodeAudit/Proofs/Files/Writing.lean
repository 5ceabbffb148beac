import CodeAudit.Files.Tree
import CodeAudit.Proofs.Outcome

/-!
# Entries that were put

An entry stands where it was put, and what stood elsewhere stays. So a path can be followed still, unless a directory
on its way was replaced.
-/

namespace CodeAudit.FileTree

open Proofs List

variable {t : FileTree} {place : List String} {new : Entry}
  {other parts base rest : List String} {e : Entry} {path s : String} {content : Content}

/-- An entry at a place, if another stands there. -/
def replaced (place : List String) (new : Entry) (old : List String × Entry) : List String × Entry :=
  if old.1 == place then (place, new) else old

@[simp] lemma home_put : (t.put place new).home = t.home := rfl

lemma put_of_any (h : t.entries.any (·.1 == place)) :
    (t.put place new).entries = t.entries.map (replaced place new) := if_pos h

lemma put_of_not_any (h : ¬ t.entries.any (·.1 == place)) :
    (t.put place new).entries = t.entries ++ [(place, new)] := if_neg h

lemma fst_replaced (old : List String × Entry) : (replaced place new old).1 = old.1 := by
  unfold replaced
  split
  · next hplace => exact (eq_of_beq hplace).symm
  · rfl

lemma find?_replaced (entries : List (List String × Entry)) (other : List String) :
    (entries.map (replaced place new)).find? (·.1 == other) =
      (entries.find? (·.1 == other)).map (replaced place new) := by
  have hpaths : (fun e : List String × Entry => e.1 == other) ∘ replaced place new = fun e => e.1 == other := by
    funext e
    rw [Function.comp_apply, fst_replaced]
  rw [find?_map, hpaths]

@[simp] lemma entry?_put_self : entry? (t.put place new) place = some new := by
  unfold entry?
  by_cases hthere : t.entries.any (·.1 == place)
  · obtain ⟨e, hfind⟩ := Option.isSome_iff_exists.mp (find?_isSome.mpr (any_eq_true.mp hthere))
    have hplace := find?_some hfind
    rw [put_of_any hthere, find?_replaced, hfind, Option.map_some, replaced, if_pos hplace]
  · have hnone : t.entries.find? (·.1 == place) = none := by
      rw [find?_eq_none]
      intro e he heq
      exact hthere (any_eq_true.mpr ⟨e, he, heq⟩)
    rw [put_of_not_any hthere]
    simp [hnone]

lemma any_put_of_any {p : List String → Bool} (h : (t.entries.any fun e => p e.1)) :
    ((t.put place new).entries.any fun e => p e.1) := by
  by_cases hthere : t.entries.any (·.1 == place)
  · have hpaths : (fun e : List String × Entry => p e.1) ∘ replaced place new = fun e => p e.1 := by
      funext e
      rw [Function.comp_apply, fst_replaced]
    rw [put_of_any hthere, any_map, hpaths]
    exact h
  · rw [put_of_not_any hthere, any_append, h, Bool.true_or]

lemma find?_put_of_ne (hne : other ≠ place) :
    (t.put place new).entries.find? (·.1 == other) = t.entries.find? (·.1 == other) := by
  by_cases hthere : t.entries.any (·.1 == place)
  · rw [put_of_any hthere, find?_replaced]
    cases hfind : t.entries.find? (·.1 == other) with
    | none => rfl
    | some e =>
      have hother := find?_some hfind
      rw [Option.map_some, replaced, if_neg fun heq => hne ((eq_of_beq hother).symm.trans (eq_of_beq heq))]
  · have hlast : find? (·.1 == other) [(place, new)] = none := by simp [hne.symm]
    rw [put_of_not_any hthere, find?_append, hlast, Option.or_none]

lemma entry?_put_of_ne (hne : other ≠ place) (h : t.entry? other = some e) :
    entry? (t.put place new) other = some e := by
  unfold entry? at h ⊢
  rw [find?_put_of_ne hne]
  cases hfound : t.entries.find? (·.1 == other) with
  | some found =>
    rw [hfound] at h
    exact h
  | none =>
    -- a directory that no entry names is there by the entries below it
    rw [hfound] at h
    dsimp only at h ⊢
    split at h
    · next hcond =>
      rw [if_pos]
      · exact h
      · rcases Bool.or_eq_true_iff.mp hcond with hempty | hany
        · rw [hempty, Bool.true_or]
        · rw [any_put_of_any hany, Bool.or_true]
    · cases h

lemma entryFromRoot?_put (hplace : t.entry? place ≠ some e)
    (h : t.entryFromRoot? parts = some e) : (t.put place new).entryFromRoot? parts = some e := by
  unfold entryFromRoot? at h ⊢
  rw [home_put]
  split
  · next hlocal =>
    rw [if_pos hlocal] at h
    refine entry?_put_of_ne ?_ h
    rintro heq
    exact hplace (heq ▸ h)
  · next hlocal => rwa [if_neg hlocal] at h

lemma obstacle?_put (hplace : t.entry? place ≠ some .directory)
    (h : t.obstacle? here parts = none) : (t.put place new).obstacle? here parts = none := by
  induction parts generalizing here with
  | nil => rfl
  | cons part rest ih =>
    unfold obstacle? at h ⊢
    cases hentry : t.entryFromRoot? here with
    | none => simp [hentry] at h
    | some e =>
      rw [hentry] at h
      cases e with
      | file content => simp at h
      | directory =>
        rw [entryFromRoot?_put hplace hentry]
        dsimp only at h ⊢
        split at h
        · cases h
        · next hlong =>
          rw [if_neg hlong]
          exact ih h

/-- **A path that could be followed can be followed still**, if no directory was replaced. -/
lemma obstacleOn?_put (hplace : t.entry? place ≠ some .directory)
    (h : t.obstacleOn? path = none) : (t.put place new).obstacleOn? path = none := by
  unfold obstacleOn? at h ⊢
  cases hfault : Path.fault? path with
  | some fault => simp [hfault] at h
  | none =>
    rw [hfault] at h
    exact obstacle?_put hplace h

lemma text_of_content (h : t.content path = .ok (.text s)) (mode : Text.OnBadBytes) :
    t.text mode path = .ok (String.ofList (Text.unifyLineEnds s.toList)) := by
  unfold text rawText
  rw [h]
  rfl

/-! ## File trees that grow

Putting an entry where nothing stood takes nothing away: a path that led to something still does, a file reads the same,
and a walk through a directory above the new file visits it and whatever it visited before. The new place may lie below
a file; then its own path leads nowhere. -/

lemma put_of_new (hnew : t.entry? place = none) : (t.put place new).entries = t.entries ++ [(place, new)] := by
  have hnone : t.entries.find? (·.1 == place) = none := by
    cases hfind : t.entries.find? (·.1 == place) with
    | none => rfl
    | some found => simp [ entry?, hfind] at hnew
  have hany : ¬ (t.entries.any (·.1 == place)) := by
    rw [find?_eq_none] at hnone
    rw [any_eq_true]
    rintro ⟨e, he, hplace⟩
    exact hnone e he hplace
  exact put_of_not_any hany

lemma find_put (hnew : t.entry? place = none) (h : t.find path = .ok e) : (t.put place new).find path = .ok e := by
  unfold find at h ⊢
  split at h
  · cases h
  · next hempty =>
    rw [if_neg hempty]
    split at h
    · cases h
    · next hobstacle hentry =>
      rw [home_put, obstacleOn?_put (by simp [hnew]) hobstacle, entryFromRoot?_put (by simp [hnew]) hentry]
      exact h
    · cases h

lemma text_put (hnew : t.entry? place = none)
    (h : t.text mode path = .ok s) : (t.put place new).text mode path = .ok s := by
  obtain ⟨raw, hraw, hend⟩ := of_bind h
  obtain ⟨content, hcontent, hdecode⟩ := of_bind hraw
  obtain ⟨e, he, hfile⟩ := of_bind hcontent
  have hcontent' : (t.put place new).content path = .ok content :=
    bind_eq_ok_iff.mpr ⟨e, find_put hnew he, hfile⟩
  exact bind_eq_ok_iff.mpr ⟨raw, bind_eq_ok_iff.mpr ⟨content, hcontent', hdecode⟩, hend⟩

lemma mem_filesBelow_put (hrest : rest ≠ []) (hnew : t.entry? (base ++ rest) = none) :
    other ∈ (t.put (base ++ rest) (.file content)).filesBelow [] base ↔
      other ∈ t.filesBelow [] base ∨ other = rest := by
  unfold filesBelow
  rw [put_of_new hnew, mem_mergeSort, mem_mergeSort, filterMap_append, mem_append]
  refine or_congr Iff.rfl ?_
  have hlength : 0 < rest.length := length_pos_iff.mpr hrest
  simp [hlength]

/-- A walk through a directory visits a new file below it, and whatever it visited before. -/
lemma mem_walk_put {file : String}
    (hdirectory : t.find path = .ok .directory) (hbase : Path.local? path t.home = some base) (hrest : rest ≠ [])
    (hnew : t.entry? (base ++ rest) = none) : file ∈ (t.put (base ++ rest) (.file content)).walk path ↔
      file ∈ t.walk path ∨ file = Path.join path (Text.join "/" rest) := by
  unfold walk
  rw [home_put, find_put hnew hdirectory, hdirectory, hbase]
  dsimp only
  simp only [mem_map, mem_filesBelow_put hrest hnew]
  constructor
  · rintro ⟨other, hother | rfl, rfl⟩
    · exact .inl ⟨other, hother, rfl⟩
    · exact .inr rfl
  · rintro (⟨other, hother, rfl⟩ | rfl)
    · exact ⟨other, .inl hother, rfl⟩
    · exact ⟨rest, .inr rfl, rfl⟩

end CodeAudit.FileTree

/-!
## Files that were written

A text that was written to a path is read from it, with its line ends made one kind. The directories on the way are
still directories, since none of them is the place itself.
-/

namespace CodeAudit

open Proofs List Text

variable {after : FileTree} {path : String}

/-! ## Paths that were taken apart -/

namespace Chars

variable (sep : Char)

lemma fieldsAt_ne_nil (cs : List Char) : fieldsAt sep cs ≠ [] := by
  cases cs with
  | nil => exact cons_ne_nil _ _
  | cons c cs =>
    unfold fieldsAt
    split
    · exact cons_ne_nil _ _
    · split <;> exact cons_ne_nil _ _

lemma fieldsAt_append (before after : List Char) :
    fieldsAt sep (before ++ sep :: after) = fieldsAt sep before ++ fieldsAt sep after := by
  induction before with
  | nil =>
    have hsep : (sep == sep) := beq_self_eq_true sep
    simp only [nil_append, fieldsAt, hsep, if_true, cons_append]
  | cons c before ih =>
    simp only [cons_append, fieldsAt, ih]
    split
    · rfl
    · obtain ⟨field, fields, hfields⟩ := exists_cons_of_ne_nil (fieldsAt_ne_nil sep before)
      rw [hfields]
      rfl

lemma fieldsAt_of_notMem {sep : Char} (h : sep ∉ cs) : fieldsAt sep cs = [cs] := by
  induction cs with
  | nil => rfl
  | cons c cs ih =>
    rw [mem_cons, not_or] at h
    have hc : (c == sep) = false := beq_eq_false_iff_ne.mpr (Ne.symm h.1)
    simp only [fieldsAt, hc, Bool.false_eq_true, if_false, ih h.2]

lemma intercalate_fieldsAt (cs : List Char) : [sep].intercalate (fieldsAt sep cs) = cs := by
  induction cs with
  | nil => rfl
  | cons c cs ih =>
    obtain ⟨field, fields, hfields⟩ := exists_cons_of_ne_nil (fieldsAt_ne_nil sep cs)
    unfold fieldsAt
    split
    · next hsep =>
      rw [intercalate_cons_of_ne_nil (fieldsAt_ne_nil sep cs), ih, eq_of_beq hsep]
      rfl
    · rw [hfields] at ih ⊢
      dsimp only
      rw [intercalate_cons_cons_left, ih]

lemma fieldsAt_injective : Function.Injective (fieldsAt sep) := by
  intro cs ds h
  rw [← intercalate_fieldsAt sep cs, ← intercalate_fieldsAt sep ds, h]

end Chars

lemma Text.join_fields (path : String) : join "/" (fields '/' path) = path := by
  apply String.toList_inj.mp
  unfold join fields
  rw [String.toList_intercalate, map_map]
  have hmap : String.toList ∘ String.ofList = id := by
    funext cs
    exact String.toList_ofList
  rw [hmap, map_id]
  exact Chars.intercalate_fieldsAt '/' path.toList

lemma Text.stripEndOf_slash (h : endsWith path "/" = false) : stripEndOf "/" path = path := by
  unfold stripEndOf Chars.trimEnd
  unfold endsWith at h
  cases hreverse : path.toList.reverse with
  | nil =>
    have hnil : path.toList = [] := reverse_eq_nil_iff.mp hreverse
    simp [String.toList_eq_nil_iff.mp hnil]
  | cons c cs =>
    have hlist : path.toList = cs.reverse ++ [c] := by
      rw [← reverse_reverse path.toList, hreverse, reverse_cons]
    have hc : ("/".toList.contains c) = false := by
      cases hslash : ("/".toList.contains c) with
      | false => rfl
      | true =>
        have hcslash : c = '/' := by simpa using hslash
        rw [hlist, hcslash] at h
        rw [← Bool.not_eq_true, isSuffixOf_iff_suffix] at h
        exact absurd (suffix_append _ _) h
    rw [dropWhile_cons_of_neg (by rw [hc]; decide), ← hreverse, reverse_reverse, String.ofList_toList]

namespace FileTree

variable {t : FileTree}

/-! ## Reading what was written -/

/-- Where a path can be written, it can be with any content, and the content then stands at its place. -/
lemma write_eq_ok (h : t.write path c = .ok after) :
    ∃ place, (Path.local? path t.home = some place ∧ path.isEmpty = false ∧ t.obstacleOn? path = none ∧
      t.entry? place ≠ some .directory) ∧ ∀ c', t.write path c' = .ok (t.put place (.file c')) := by
  unfold write at h ⊢
  dsimp only at h ⊢
  cases hobstacle : t.obstacleOn? (join "/" (fields '/' (stripEndOf "/" path))) with
  | some fault =>
    rw [hobstacle] at h
    cases h
  | none =>
    cases hlocal : Path.local? path t.home with
    | none =>
      rw [hobstacle, hlocal] at h
      cases h
    | some place =>
      rw [hobstacle, hlocal] at h
      dsimp only at h ⊢
      split at h
      · cases h
      · next hempty =>
        split at h
        · cases h
        · next hplace =>
          rw [Bool.or_eq_true, not_or, beq_iff_eq, Bool.not_eq_true] at hplace
          rw [Bool.not_eq_true] at hempty
          rw [stripEndOf_slash hplace.2, join_fields] at hobstacle
          refine ⟨place, ⟨rfl, hempty, hobstacle, hplace.1⟩, fun c' => ?_⟩
          rw [hempty, hplace.2, beq_eq_false_iff_ne.mpr hplace.1]
          rfl

lemma find_of_write (h : t.write path c = .ok after) : after.find path = .ok (.file c) := by
  obtain ⟨place, ⟨hlocal, hempty, hobstacle, hplace⟩, hwrite⟩ := write_eq_ok h
  cases Except.ok.inj (h.symm.trans (hwrite c))
  have hentry : (t.put place (.file c)).entryFromRoot? (Path.components path t.home) = some (.file c) := by
    unfold Path.local? at hlocal
    dsimp only at hlocal
    split at hlocal
    · next hprefix =>
      unfold entryFromRoot?
      rw [home_put, if_pos hprefix, Option.some.inj hlocal]
      exact entry?_put_self
    · cases hlocal
  unfold find
  rw [home_put, hempty, obstacleOn?_put hplace hobstacle, hentry]
  rfl

lemma unifyLineEnds_of_forall_ne (h : ∀ c ∈ cs, c ≠ '\r') : unifyLineEnds cs = cs := by
  induction cs with
  | nil => rfl
  | cons c cs ih =>
    have hc : c ≠ '\r' := h c mem_cons_self
    rw [unifyLineEnds, ih fun d hd => h d (mem_cons_of_mem _ hd)]
    · exact fun _ heq _ => hc heq
    · exact fun heq => hc heq

/-- **A text without carriage returns is read from the path to which it was written.** -/
lemma text_of_writeText (h : t.writeText path s = .ok after)
    (hs : ∀ c ∈ s.toList, c ≠ '\r') (mode : OnBadBytes) : after.text mode path = .ok s := by
  have hcontent : after.content path = .ok (.text s) := bind_eq_ok_iff.mpr ⟨_, find_of_write h, rfl⟩
  have hraw : after.rawText mode path = .ok s := bind_eq_ok_iff.mpr ⟨_, hcontent, rfl⟩
  refine bind_eq_ok_iff.mpr ⟨s, hraw, ?_⟩
  rw [unifyLineEnds_of_forall_ne hs, String.ofList_toList]
  rfl

end FileTree

end CodeAudit

import CodeAudit.Proofs.Suppression.Patterns

/-!
# Patterns that match by component

A pattern `name/` covers what lies below a directory of that name; one that begins with a double star and a slash covers
files by their last component, as `Wildcard` says. A path that begins with `name/` has that name as its first
component, so both tests of the first pattern come to the same.
-/

namespace CodeAudit

open String Chars Text DeepPattern IgnorePattern

variable {cs : List Char} {name : String}

/-- A text is written by a pattern: a star is any run of characters, a question mark any one, and others stand for
themselves. -/
inductive Wildcard : List Char → List Char → Prop where
  | nil : Wildcard [] []
  | star (run : List Char) {pattern text : List Char} : Wildcard pattern text → Wildcard ('*' :: pattern) (run ++ text)
  | mark (c : Char) {pattern text : List Char} : Wildcard pattern text → Wildcard ('?' :: pattern) (c :: text)
  | char (c : Char) {pattern text : List Char} : c ≠ '*' → c ≠ '?' → Wildcard pattern text →
      Wildcard (c :: pattern) (c :: text)

/-! ## The last component -/

lemma Chars.exists_after_last (sep : Char) (cs : List Char) :
    sep ∉ cs ∨ ∃ before last, cs = before ++ sep :: last ∧ sep ∉ last := by
  induction cs with
  | nil => exact .inl List.not_mem_nil
  | cons c cs ih =>
    rcases ih with hnone | ⟨before, last, rfl, hlast⟩
    · by_cases hc : c = sep
      · exact .inr ⟨[], cs, by rw [hc, List.nil_append], hnone⟩
      · exact .inl (List.not_mem_cons_of_ne_of_not_mem (Ne.symm hc) hnone)
    · exact .inr ⟨c :: before, last, rfl, hlast⟩

namespace DeepPattern

lemma takes_star : (piece '*').Takes ('/' ∉ ·) := by
  refine Regex.takes_run.congr fun taken => ⟨?_, fun h => ?_⟩
  · rintro ⟨-, hall⟩ hmem
    exact has_allBut.mp (hall _ hmem) rfl
  · exact ⟨Nat.zero_le _, fun c hc => has_allBut.mpr (ne_of_mem_of_not_mem hc h).symm⟩

lemma takes_mark : (piece '?').Takes fun taken => ∃ c, '/' ≠ c ∧ taken = [c] :=
  Regex.takes_one.congr fun _ => exists_congr fun _ => and_congr_left fun _ => has_allBut

lemma takes_component (h : '/' ∉ pattern) :
    (segment pattern).Takes fun taken => '/' ∉ taken ∧ Wildcard pattern taken := by
  induction pattern with
  | nil =>
    refine Regex.takes_empty.congr fun taken => ⟨?_, ?_⟩
    · rintro rfl
      exact ⟨List.not_mem_nil, .nil⟩
    · rintro ⟨-, hwritten⟩
      cases hwritten
      rfl
  | cons x pattern ih =>
    rw [List.mem_cons, not_or] at h
    by_cases hstar : x = '*'
    · subst hstar
      refine (takes_star.seq (ih h.2)).congr fun taken => ⟨?_, ?_⟩
      · rintro ⟨run, rest, rfl, hrun, hslash, hwritten⟩
        exact ⟨List.not_mem_append hrun hslash, .star run hwritten⟩
      · rintro ⟨hslash, hwritten⟩
        cases hwritten with
        | star run hwritten =>
          rw [List.mem_append, not_or] at hslash
          exact ⟨run, _, rfl, hslash.1, hslash.2, hwritten⟩
        | char _ hne => exact absurd rfl hne
    · by_cases hmark : x = '?'
      · subst hmark
        refine (takes_mark.seq (ih h.2)).congr fun taken => ⟨?_, ?_⟩
        · rintro ⟨_, rest, rfl, ⟨c, hc, rfl⟩, hslash, hwritten⟩
          exact ⟨List.not_mem_cons_of_ne_of_not_mem hc hslash, .mark c hwritten⟩
        · rintro ⟨hslash, hwritten⟩
          cases hwritten with
          | mark c hwritten =>
            rw [List.mem_cons, not_or] at hslash
            exact ⟨[c], _, rfl, ⟨c, hslash.1, rfl⟩, hslash.2, hwritten⟩
          | char _ _ hne => exact absurd rfl hne
      · refine ((takes_char hstar hmark).seq (ih h.2)).congr fun taken => ⟨?_, ?_⟩
        · rintro ⟨_, rest, rfl, rfl, hslash, hwritten⟩
          exact ⟨List.not_mem_cons_of_ne_of_not_mem h.1 hslash, .char x hstar hmark hwritten⟩
        · rintro ⟨hslash, hwritten⟩
          cases hwritten with
          | star => exact absurd rfl hstar
          | mark => exact absurd rfl hmark
          | char _ _ _ hwritten =>
            exact ⟨[x], _, rfl, rfl, fun hmem => hslash (List.mem_cons_of_mem x hmem), hwritten⟩

/-- Behind directories, or none, stands the last component. -/
lemma matches_anyDepth (h : '/' ∉ pattern) (hline : '\n' ∉ cs) (hlast : (fieldsAt '/' cs).getLast? = some last) :
    ((Regex.seq (directories false) (joined [pattern])).matchStart? cs).isSome ↔ Wildcard pattern last := by
  -- a slash with none behind it is the last one
  have hend : ∀ before rest, '/' ∉ rest → cs = before ++ '/' :: rest → last = rest := by
    rintro before rest hrest rfl
    rw [fieldsAt_append, fieldsAt_of_notMem hrest, List.getLast?_concat] at hlast
    exact (Option.some.inj hlast).symm
  have hwhole : '/' ∉ cs → last = cs := by
    intro hnone
    rw [fieldsAt_of_notMem hnone] at hlast
    exact (Option.some.inj hlast).symm
  have hfits := (takes_directories false).fits ((takes_component h).fits Regex.fits_finish)
  refine (hfits.isSome_matchStart? cs).trans ⟨?_, ?_⟩
  · rintro ⟨taken, rest, hcs, htaken, hrest⟩
    have hnoline : '\n' ∉ rest := fun hmem => hline (hcs ▸ List.mem_append_right _ hmem)
    obtain ⟨hslash, hwritten⟩ := (exists_end_iff hnoline).mp hrest
    rcases htaken with rfl | ⟨names, -, -, rfl⟩
    · rw [List.nil_append] at hcs
      rwa [hwhole (hcs ▸ hslash), hcs]
    · rwa [hend names rest hslash (by simpa using hcs)]
  · intro hwritten
    rcases exists_after_last '/' cs with hnone | ⟨before, rest, hcs, hrest⟩
    · rw [hwhole hnone] at hwritten
      exact ⟨[], cs, rfl, .inl rfl, (exists_end_iff hline).mpr ⟨hnone, hwritten⟩⟩
    · rw [hend before rest hrest hcs] at hwritten
      rw [hcs, List.mem_append, List.mem_cons, not_or, not_or] at hline
      exact ⟨before ++ ['/'], rest, by simpa using hcs, .inr ⟨before, hline.1, by simp, rfl⟩,
        (exists_end_iff hline.2.2).mpr ⟨hrest, hwritten⟩⟩

end DeepPattern

/-! ## Names of directories -/

namespace Glob

lemma readFrom_eq_map_char (h : ∀ c ∈ cs, c ≠ '*' ∧ c ≠ '?' ∧ c ≠ '[') :
    GlobPart.readFrom cs.length cs = cs.map .char := by
  induction cs with
  | nil => rfl
  | cons c cs ih =>
    obtain ⟨⟨hstar, hmark, hbracket⟩, hrest⟩ := List.forall_mem_cons.mp h
    rw [List.length_cons, List.map_cons, GlobPart.readFrom, ih hrest]
    · exact hstar
    · exact hmark
    · exact hbracket

lemma accepts_chars : accepts (text.map .char) cs ↔ cs = text := by
  have hnone : ∀ cs : List Char, cs.foldl (fun left c => (left.flatMap (after c)).eraseDups) [] = [] := by
    intro cs
    induction cs with
    | nil => rfl
    | cons c cs ih => exact ih
  unfold accepts
  induction cs generalizing text with
  | nil => cases text <;> simp
  | cons c cs ih =>
    cases text with
    | nil => simp [after, hnone]
    | cons x text =>
      by_cases hx : x = c
      · simpa [after, GlobPart.isOne, hx, List.eraseDups_cons] using ih
      · simp [after, GlobPart.isOne, Ne.symm hx, hnone]

lemma accepts_iff_eq (h : ∀ c ∈ name.toList, c ≠ '*' ∧ c ≠ '?' ∧ c ≠ '[') :
    (Glob.ofText name).accepts cs ↔ cs = name.toList := by
  unfold Glob.ofText
  rw [← length_toList, readFrom_eq_map_char h, accepts_chars]

end Glob

namespace IgnorePattern

lemma ofText_directory (h : '/' ∉ name.toList) : ofText (name ++ "/") = .directory name := by
  have hends : Text.endsWith (name ++ "/") "/" := by
    unfold Text.endsWith
    rw [List.isSuffixOf_iff_suffix, toList_append]
    exact List.suffix_append _ _
  have hhead : name.toList.reverse.head? ≠ some '/' := fun hslash => h (List.mem_reverse.mp (List.mem_of_head? hslash))
  have hstrip : stripEndOf "/" (name ++ "/") = name := by
    apply toList_inj.mp
    have htest : (fun c => "/".toList.contains c) = (· == '/') := by
      funext c
      simp [beq_eq_decide]
    unfold stripEndOf trimEnd
    rw [toList_ofList, toList_append, List.reverse_append, htest,
      List.dropWhile_append_of_pos (by simp), dropWhile_slash_eq_self hhead, List.reverse_reverse]
  unfold ofText
  rw [hends, hstrip]
  rfl

lemma segments_of_occurs_eq_false (h : occurs ['*', '*'] cs = false) : segments cs = [cs] := by
  induction cs with
  | nil => rfl
  | cons c cs ih =>
    rw [occurs, Bool.or_eq_false_iff] at h
    refine segments_cons (fun hstar hhead => ?_) (ih h.2)
    obtain ⟨rest, rfl⟩ := List.head?_eq_some_iff.mp hhead
    simp [hstar] at h

lemma ofText_anyDepth {segment : String} (hnonempty : segment ≠ "") (h : '/' ∉ segment.toList)
    (hsingle : Text.contains segment "**" = false) :
    ofText ("**/" ++ segment) = .deep (.seq (directories false) (joined [segment.toList])) := by
  have hs : ("**/" ++ segment).toList = '*' :: '*' :: '/' :: segment.toList := by simp
  have hnil : segment.toList ≠ [] := by simpa using hnonempty
  have hhead : segment.toList.head? ≠ some '/' := fun hslash => h (List.mem_of_head? hslash)
  have hlast : segment.toList.getLast? ≠ some '/' := fun hslash => h (List.mem_of_getLast? hslash)
  have hends : Text.endsWith ("**/" ++ segment) "/" = false := by
    refine endsWith_slash_eq_false ?_
    rw [toList_append, List.getLast?_append_of_ne_nil _ hnil]
    exact hlast
  have hcontains : Text.contains ("**/" ++ segment) "**" := by
    unfold Text.contains
    rw [hs]
    exact occurs_append [] ['*', '*'] _
  have hstarts : Text.startsWith ("**/" ++ segment) "**" := by
    unfold Text.startsWith
    rw [hs]
    exact List.isPrefixOf_iff_prefix.mpr (List.prefix_append ['*', '*'] _)
  have hsegments : segments ('*' :: '*' :: '/' :: segment.toList) = [[], '/' :: segment.toList] := by
    have hrest : segments ('/' :: segment.toList) = ['/' :: segment.toList] :=
      segments_cons (fun hstar => absurd hstar (by decide)) (segments_of_occurs_eq_false hsingle)
    rw [segments, hrest]
  have htrim : trim (· == '/') (['/'] ++ (segment.toList ++ [])) = segment.toList :=
    trim_slashes hnil hhead hlast (by simp) (by simp)
  rw [List.append_nil, List.singleton_append] at htrim
  have hparts : ([[], '/' :: segment.toList].map (trim (· == '/'))).filter (fun part => !part.isEmpty) =
      [segment.toList] := by
    have hnone : trim (· == '/') [] = [] := rfl
    rw [List.map_cons, List.map_cons, htrim, hnone]
    simp [hnil]
  unfold ofText
  rw [hends, hcontains, hstarts, hs, hsegments, hparts]
  rfl

end IgnorePattern

namespace IgnoreFile

lemma ignores_directory_iff {r : String} (h : ∀ c ∈ name.toList, c ≠ '/' ∧ c ≠ '*' ∧ c ≠ '?' ∧ c ≠ '[') :
    ignores { patterns := [name ++ "/"] } r ↔ name ∈ (fields '/' r).dropLast := by
  have hslash : '/' ∉ name.toList := fun hmem => (h _ hmem).1 rfl
  rw [ignores_single, ofText_directory hslash, accepts, Bool.or_eq_true, List.any_eq_true]
  have hname : ∀ part : String, (Glob.ofText name).accepts part.toList ↔ part = name := by
    intro part
    rw [Glob.accepts_iff_eq fun c hc => (h c hc).2, toList_inj]
  constructor
  · rintro (⟨part, hpart, haccepts⟩ | hstarts)
    · rwa [← (hname part).mp haccepts]
    · -- what stands before the first slash is the first component
      obtain ⟨rest, hrest⟩ := List.isPrefixOf_iff_prefix.mp hstarts
      have hr : r.toList = name.toList ++ '/' :: rest := by simp [← hrest]
      unfold fields
      rw [hr, fieldsAt_append, fieldsAt_of_notMem hslash, List.singleton_append, List.map_cons,
        List.dropLast_cons_of_ne_nil (by simpa using fieldsAt_ne_nil '/' rest), ofList_toList]
      exact List.mem_cons_self
  · intro hmem
    exact .inl ⟨name, hmem, (hname name).mpr rfl⟩

lemma ignores_anyDepth_iff {segment r : String} (hnonempty : segment ≠ "") (h : '/' ∉ segment.toList)
    (hsingle : Text.contains segment "**" = false) (hline : '\n' ∉ r.toList) :
    ignores { patterns := ["**/" ++ segment] } r ↔ Wildcard segment.toList (Path.basename r).toList := by
  obtain ⟨last, hlast⟩ := List.getLast?_isSome.mpr (fieldsAt_ne_nil '/' r.toList) |> Option.isSome_iff_exists.mp
  have hbase : (Path.basename r).toList = last := by
    unfold Path.basename fields
    rw [List.getLast?_map, hlast]
    exact toList_ofList
  rw [ignores_single, ofText_anyDepth hnonempty h hsingle, accepts, matches_anyDepth h hline hlast, hbase]

/-- **Patterns match by component.** With `name/` it is one other than the last, and behind a double star and a slash
the last. -/
theorem ignored_by_component {r : String} (hline : '\n' ∉ r.toList) :
    (∀ name : String, name ≠ "" → (∀ c ∈ name.toList, c ≠ '/' ∧ c ≠ '*' ∧ c ≠ '?' ∧ c ≠ '[') →
      (ignores { patterns := [name ++ "/"] } r = true ↔ name ∈ (fields '/' r).dropLast)) ∧
    (∀ segment : String, segment ≠ "" → '/' ∉ segment.toList → Text.contains segment "**" = false →
      (ignores { patterns := ["**/" ++ segment] } r = true ↔ Wildcard segment.toList (Path.basename r).toList)) :=
  ⟨fun _ _ h => ignores_directory_iff h, fun _ hnonempty h hsingle => ignores_anyDepth_iff hnonempty h hsingle hline⟩

/-- A longer name is another component, and a star does not go across a slash. -/
theorem builds_ignored_by_component :
    ignores { patterns := ["build/"] } "src/build/out.py" = true ∧
      ignores { patterns := ["build/"] } "my_build/out.py" = false ∧
      ignores { patterns := ["**/t*.p?"] } "src/build/test.py" = true ∧
      ignores { patterns := ["**/t*.p?"] } "tests/out.py" = false := by
  have hslash : "build" ++ "/" = "build/" := by decide +kernel
  have hstars : "**/" ++ "t*.p?" = "**/t*.p?" := by decide +kernel
  rw [← hslash, ← hstars]
  refine ⟨?_, ?_, ?_, ?_⟩
  · exact ((ignored_by_component (by decide)).1 "build" (by decide) (by simp)).mpr (by decide +kernel)
  · rw [Bool.eq_false_iff, ne_eq, (ignored_by_component (by decide)).1 "build" (by decide) (by simp)]
    decide +kernel
  · have hlast : (Path.basename "src/build/test.py").toList = "test.py".toList := by decide +kernel
    rw [(ignored_by_component (by decide)).2 "t*.p?" (by decide) (by decide) (by decide +kernel), hlast]
    refine .char 't' (by decide) (by decide) (.star "est".toList (.char '.' (by decide) (by decide) ?_))
    exact .char 'p' (by decide) (by decide) (.mark 'y' .nil)
  · have hlast : (Path.basename "tests/out.py").toList = "out.py".toList := by decide +kernel
    rw [Bool.eq_false_iff, ne_eq, (ignored_by_component (by decide)).2 "t*.p?" (by decide) (by decide) (by decide +kernel),
      hlast]
    intro hwritten
    cases hwritten

end IgnoreFile

end CodeAudit

import CodeAudit.Proofs.Files.Writing
import CodeAudit.Proofs.Regex.Language
import CodeAudit.Suppression.Ignore
import Mathlib.Data.List.Basic

/-!
# Patterns across directories

A pattern with a double star is cut at it into segments, and between two stand directories or nothing. What it covers
follows from the texts that its parts take: a segment without stars and question marks takes itself, directories their
names and slashes. The slashes beside a double star are cut off with it, so `a/**/b` never covers `a/b` and covers
`ab`, and `a/**` covers `a` alone.
-/

namespace CodeAudit

open List Text DeepPattern IgnorePattern Regex

namespace DeepPattern

variable {x c : Char} {text cs : List Char}

lemma has_only : (only x).has c ↔ x = c := by
  simp [CharSet.has, only, ClassItem.has]

lemma has_allBut : (allBut x).has c ↔ x ≠ c := by
  simp [CharSet.has, allBut, ClassItem.has]

/-! ## What the parts take -/

lemma takes_char (hstar : c ≠ '*') (hmark : c ≠ '?') : (piece c).Takes (· = [c]) := by
  have hpiece : piece c = .one (only c) := by simp [piece, hstar, hmark]
  rw [hpiece]
  exact takes_one.congr fun taken => by simp [has_only]

lemma takes_text (h : ∀ c ∈ text, c ≠ '*' ∧ c ≠ '?') : (segment text).Takes (· = text) := by
  induction text with
  | nil => exact takes_empty
  | cons c text ih =>
    obtain ⟨⟨hstar, hmark⟩, htext⟩ := forall_mem_cons.mp h
    exact ((takes_char hstar hmark).seq (ih htext)).congr fun taken => by simp

/-- Directories with the slash after them; `named` says that their names are not empty. -/
def AreDirectories (named : Bool) (cs : List Char) : Prop :=
  ∃ names, '\n' ∉ names ∧ (named → names ≠ []) ∧ cs = names ++ ['/']

lemma takes_directories (named : Bool) :
    (directories named).Takes fun taken => taken = [] ∨ AreDirectories named taken := by
  refine Takes.maybe ((takes_run.seq takes_one).congr fun taken => ?_) (by simp [AreDirectories])
  constructor
  · rintro ⟨names, _, rfl, ⟨hlength, hline⟩, slash, hslash, rfl⟩
    refine ⟨names, fun hmem => has_allBut.mp (hline _ hmem) rfl, ?_, by rw [← has_only.mp hslash]⟩
    rintro rfl rfl
    cases hlength
  · rintro ⟨names, hline, hnamed, rfl⟩
    refine ⟨names, ['/'], rfl, ⟨?_, fun c hc => has_allBut.mpr (ne_of_mem_of_not_mem hc hline).symm⟩, '/',
      has_only.mpr rfl, rfl⟩
    cases named with
    | false => exact Nat.zero_le _
    | true => exact length_pos_iff.mpr (hnamed rfl)

/-! ## Given texts -/

/-- A path without line feeds ends where the pattern does. -/
lemma exists_end_iff {E : List Char → Prop} (h : '\n' ∉ cs) :
    (∃ taken left, cs = taken ++ left ∧ E taken ∧ (left = [] ∨ left = ['\n'])) ↔ E cs := by
  constructor
  · rintro ⟨taken, left, rfl, htaken, rfl | rfl⟩
    · rwa [append_nil]
    · simp at h
  · intro hcs
    exact ⟨cs, [], (append_nil cs).symm, hcs, .inl rfl⟩

lemma matches_text (h : ∀ c ∈ text, c ≠ '*' ∧ c ≠ '?') (hline : '\n' ∉ cs) :
    ((joined [text]).matchStart? cs).isSome ↔ cs = text :=
  (((takes_text h).fits fits_finish).isSome_matchStart? cs).trans (exists_end_iff hline)

lemma matches_across (ha : ∀ c ∈ a, c ≠ '*' ∧ c ≠ '?') (hb : ∀ c ∈ b, c ≠ '*' ∧ c ≠ '?')
    (hline : '\n' ∉ cs) : ((joined [a, b]).matchStart? cs).isSome ↔
      cs = a ++ b ∨ ∃ names, '\n' ∉ names ∧ names ≠ [] ∧ cs = a ++ names ++ '/' :: b := by
  have hfits := (takes_text ha).fits ((takes_directories true).fits ((takes_text hb).fits fits_finish))
  refine (hfits.isSome_matchStart? cs).trans ⟨?_, ?_⟩
  · rintro ⟨_, left, rfl, rfl, taken, last, rfl, htaken, hlast⟩
    rw [mem_append, mem_append, not_or, not_or] at hline
    obtain rfl := (exists_end_iff hline.2.2).mp hlast
    rcases htaken with rfl | ⟨names, hnames, hnamed, rfl⟩
    · exact .inl rfl
    · exact .inr ⟨names, hnames, hnamed rfl, by simp⟩
  · have hend : ∃ taken left, b = taken ++ left ∧ taken = b ∧ (left = [] ∨ left = ['\n']) :=
      ⟨b, [], (append_nil b).symm, rfl, .inl rfl⟩
    rintro (rfl | ⟨names, hnames, hnamed, rfl⟩)
    · exact ⟨a, b, rfl, rfl, [], b, rfl, .inl rfl, hend⟩
    · exact ⟨a, names ++ '/' :: b, by simp, rfl, names ++ ['/'], b, by simp,
        .inr ⟨names, hnames, fun _ => hnamed, rfl⟩, hend⟩

end DeepPattern

/-! ## Reading patterns -/

/-- A text that a pattern takes as it is: not empty, without stars, question marks, and slashes at its ends. -/
structure IsLiteral (cs : List Char) : Prop where
  nonempty : cs ≠ []
  plain : ∀ c ∈ cs, c ≠ '*' ∧ c ≠ '?'
  head : cs.head? ≠ some '/'
  last : cs.getLast? ≠ some '/'

variable {cs : List Char}

lemma dropWhile_slash_eq_self (h : cs.head? ≠ some '/') : cs.dropWhile (· == '/') = cs := by
  cases cs with
  | nil => rfl
  | cons c cs => exact dropWhile_cons_of_neg (by simpa using h)

lemma Chars.trim_slashes {before after : List Char} (hnonempty : cs ≠ []) (hhead : cs.head? ≠ some '/')
    (hlast : cs.getLast? ≠ some '/') (hbefore : ∀ c ∈ before, c = '/') (hafter : ∀ c ∈ after, c = '/') :
    trim (· == '/') (before ++ (cs ++ after)) = cs := by
  have hfirst : (cs ++ after).head? ≠ some '/' := by rwa [head?_append_of_ne_nil _ hnonempty]
  rw [← head?_reverse] at hlast
  unfold trim trimEnd
  rw [dropWhile_append_of_pos (by simpa using hbefore), dropWhile_slash_eq_self hfirst, reverse_append,
    dropWhile_append_of_pos (by simpa using hafter), dropWhile_slash_eq_self hlast, reverse_reverse]

namespace IsLiteral

variable {cs : List Char} (h : IsLiteral cs)

include h

lemma star_notMem : '*' ∉ cs := fun hstar => (h.plain _ hstar).1 rfl

lemma trim_slashes (before after : List Char) (hbefore : ∀ c ∈ before, c = '/') (hafter : ∀ c ∈ after, c = '/') :
    Chars.trim (· == '/') (before ++ (cs ++ after)) = cs :=
  Chars.trim_slashes h.nonempty h.head h.last hbefore hafter

end IsLiteral

lemma Chars.occurs_append (before needle after : List Char) : occurs needle (before ++ (needle ++ after)) := by
  induction before with
  | nil =>
    cases hcs : needle ++ after with
    | nil => simp_all [occurs]
    | cons c cs =>
      rw [nil_append, occurs, ← hcs, isPrefixOf_iff_prefix.mpr (prefix_append needle after)]
      rfl
  | cons c before ih =>
    rw [cons_append, occurs, ih, Bool.or_true]

namespace IgnorePattern

variable {cs before : List Char} {s : String}

lemma segments_cons {segment : List Char} (hc : c = '*' → cs.head? ≠ some '*') (h : segments cs = segment :: rest) :
    segments (c :: cs) = (c :: segment) :: rest := by
  rw [segments, h]
  rintro more hstar rfl
  exact hc hstar rfl

lemma segments_of_notMem (h : '*' ∉ cs) : segments cs = [cs] := by
  induction cs with
  | nil => rfl
  | cons c cs ih =>
    rw [mem_cons, not_or] at h
    exact segments_cons (fun hstar => absurd hstar.symm h.1) (ih h.2)

lemma segments_append (after : List Char) (h : '*' ∉ before) :
    segments (before ++ '*' :: '*' :: after) = before :: segments after := by
  induction before with
  | nil => rfl
  | cons c before ih =>
    rw [mem_cons, not_or] at h
    exact segments_cons (fun hstar => absurd hstar.symm h.1) (ih h.2)

lemma endsWith_slash_eq_false (h : s.toList.getLast? ≠ some '/') : endsWith s "/" = false := by
  refine Bool.eq_false_iff.mpr fun hends => h ?_
  obtain ⟨start, hstart⟩ := isSuffixOf_iff_suffix.mp hends
  rw [← hstart]
  exact getLast?_concat

lemma ofText_deep {after : List Char} (hs : s.toList = before ++ '*' :: '*' :: after)
    (hbefore : '*' ∉ before) (hnonempty : before ≠ []) (hafter : '*' ∉ after) (hlast : s.toList.getLast? ≠ some '/') :
    ofText s = .deep (joined
      (([before, after].map (Chars.trim (· == '/'))).filter fun part => !part.isEmpty)) := by
  have hcontains : contains s "**" := by
    unfold Text.contains
    rw [hs]
    exact Chars.occurs_append before ['*', '*'] after
  have hstarts : startsWith s "**" = false := by
    unfold startsWith
    rw [hs]
    obtain ⟨c, rest, rfl⟩ := exists_cons_of_ne_nil hnonempty
    rw [mem_cons, not_or] at hbefore
    change (('*' == c) && _) = false
    rw [beq_eq_false_iff_ne.mpr hbefore.1, Bool.false_and]
  unfold ofText
  rw [endsWith_slash_eq_false hlast, hcontains, hstarts, hs, segments_append after hbefore, segments_of_notMem hafter]
  rfl

section Texts

variable {a b : String} (ha : IsLiteral a.toList) (hb : IsLiteral b.toList)

include ha

/-- The slash before a double star at the end is lost, and with it all that is below. -/
lemma ofText_below : ofText (a ++ "/**") = .deep (joined [a.toList]) := by
  have hs : (a ++ "/**").toList = (a.toList ++ ['/']) ++ '*' :: '*' :: [] := by simp
  have hstar : '*' ∉ a.toList ++ ['/'] := by simp [ha.star_notMem]
  rw [ofText_deep hs hstar (by simp) not_mem_nil (by simp [hs])]
  have hparts : ([a.toList ++ ['/'], []].map (Chars.trim (· == '/'))).filter (fun part => !part.isEmpty) = [a.toList] := by
    have htrim := ha.trim_slashes [] ['/'] (by simp) (by simp)
    have hnil : Chars.trim (· == '/') [] = [] := rfl
    rw [nil_append] at htrim
    rw [map_cons, map_cons, htrim, hnil]
    simp [ha.nonempty]
  rw [hparts]

include hb

/-- Both slashes around a double star are lost. -/
lemma ofText_across : ofText (a ++ "/**/" ++ b) = .deep (joined [a.toList, b.toList]) := by
  have hs : (a ++ "/**/" ++ b).toList = (a.toList ++ ['/']) ++ '*' :: '*' :: '/' :: b.toList := by simp
  have hlast : (a ++ "/**/" ++ b).toList.getLast? ≠ some '/' := by
    rw [String.toList_append, getLast?_append_of_ne_nil _ hb.nonempty]
    exact hb.last
  rw [ofText_deep hs (by simp [ha.star_notMem]) (by simp) (by simp [hb.star_notMem]) hlast]
  have hparts : ([a.toList ++ ['/'], '/' :: b.toList].map (Chars.trim (· == '/'))).filter (fun part => !part.isEmpty) =
      [a.toList, b.toList] := by
    have htrima := ha.trim_slashes [] ['/'] (by simp) (by simp)
    have htrimb := hb.trim_slashes ['/'] [] (by simp) (by simp)
    rw [nil_append] at htrima
    rw [append_nil, singleton_append] at htrimb
    rw [map_cons, map_cons, htrima, htrimb]
    simp [ha.nonempty, hb.nonempty]
  rw [hparts]

end Texts

end IgnorePattern

namespace IgnoreFile

section Ignored

variable {a b r : String} (ha : IsLiteral a.toList) (hb : IsLiteral b.toList) (hr : '\n' ∉ r.toList)

lemma ignores_single (pattern path : String) :
    ignores { patterns := [pattern] } path = (IgnorePattern.ofText pattern).accepts path := by
  unfold ignores
  rw [any_cons, any_nil, Bool.or_false]
  rfl

include ha hr

lemma ignores_below_iff : ignores { patterns := [a ++ "/**"] } r ↔ r = a := by
  rw [ignores_single, IgnorePattern.ofText_below ha, IgnorePattern.accepts, matches_text ha.plain hr, String.toList_inj]

include hb

lemma ignores_across_iff : ignores { patterns := [a ++ "/**/" ++ b] } r ↔
    r = a ++ b ∨ ∃ names, names ≠ "" ∧ r = a ++ names ++ "/" ++ b := by
  rw [ignores_single, IgnorePattern.ofText_across ha hb, IgnorePattern.accepts, matches_across ha.plain hb.plain hr]
  refine or_congr ?_ ⟨?_, ?_⟩
  · rw [← String.toList_append, String.toList_inj]
  · rintro ⟨names, -, hnamed, hsplit⟩
    refine ⟨String.ofList names, ?_, ?_⟩
    · simpa using hnamed
    · apply String.toList_inj.mp
      simp [hsplit]
  · rintro ⟨names, hnamed, rfl⟩
    refine ⟨names.toList, fun hline => hr ?_, by simpa using hnamed, by simp⟩
    simp [hline]

end Ignored

/-- **What double stars cover.** With `a/**/b` that is `ab`, and every path that begins with `a`, ends with `/b` and
has something between; with `a/**` it is `a`. So `a/b` is not covered though `a/names/b` always is, and nothing below
`a` is covered by `a/**`. -/
theorem covered_by_double_star {a b r : String} (ha : IsLiteral a.toList) (hb : IsLiteral b.toList)
    (hr : '\n' ∉ r.toList) :
    (ignores { patterns := [a ++ "/**/" ++ b] } r = true ↔
      r = a ++ b ∨ ∃ names, names ≠ "" ∧ r = a ++ names ++ "/" ++ b) ∧
    (ignores { patterns := [a ++ "/**"] } r = true ↔ r = a) ∧
    (r = a ++ "/" ++ b → ignores { patterns := [a ++ "/**/" ++ b] } r = false) ∧
    (∀ names, r = a ++ "/" ++ names ++ "/" ++ b → ignores { patterns := [a ++ "/**/" ++ b] } r = true) ∧
    (∀ rest, r = a ++ "/" ++ rest → ignores { patterns := [a ++ "/**"] } r = false) := by
  have hacross := ignores_across_iff ha hb hr
  have hbelow := ignores_below_iff ha hr
  have hslash : "/".length = 1 := rfl
  refine ⟨hacross, hbelow, fun heq => ?_, fun names heq => ?_, fun rest heq => ?_⟩
  · -- a slash too many for `ab`, and one too few for something between `a` and `/b`
    refine Bool.eq_false_iff.mpr fun hignored => ?_
    rcases hacross.mp hignored with h | ⟨names, hnamed, h⟩
    · have hlength := congrArg String.length (heq.symm.trans h)
      simp only [String.length_append] at hlength
      omega
    · have hlength := congrArg String.length (heq.symm.trans h)
      simp only [String.length_append] at hlength
      exact hnamed (String.length_eq_zero_iff.mp (by omega))
  · refine hacross.mpr (.inr ⟨"/" ++ names, by simp, ?_⟩)
    simp only [heq, String.append_assoc]
  · refine Bool.eq_false_iff.mpr fun hignored => ?_
    have hlength := congrArg String.length (heq.symm.trans (hbelow.mp hignored))
    simp only [String.length_append] at hlength
    omega

/-- Files generated into a directory of the sources itself are not covered, and neither are the sources. -/
theorem sources_covered_by_double_star :
    ignores { patterns := ["src/**/gen"] } "src/gen" = false ∧ ignores { patterns := ["src/**/gen"] } "srcgen" = true ∧
      ignores { patterns := ["src/**/gen"] } "src/lib/gen" = true ∧
      ignores { patterns := ["src/**"] } "src/main.py" = false ∧ ignores { patterns := ["src/**"] } "src" = true := by
  have hsrc : IsLiteral "src".toList := ⟨by decide, by simp, by decide, by decide⟩
  have hgen : IsLiteral "gen".toList := ⟨by decide, by simp, by decide, by decide⟩
  have hacross : "src" ++ "/**/" ++ "gen" = "src/**/gen" := by decide +kernel
  have hbelow : "src" ++ "/**" = "src/**" := by decide +kernel
  rw [← hacross, ← hbelow]
  refine ⟨?_, ?_, ?_, ?_, ?_⟩
  · exact (covered_by_double_star hsrc hgen (by decide)).2.2.1 (by decide +kernel)
  · exact (covered_by_double_star hsrc hgen (by decide)).1.mpr (.inl (by decide +kernel))
  · exact (covered_by_double_star hsrc hgen (by decide)).2.2.2.1 "lib" (by decide +kernel)
  · exact (covered_by_double_star hsrc hgen (by decide)).2.2.2.2 "main.py" (by decide +kernel)
  · exact (covered_by_double_star hsrc hgen (by decide)).2.1.mpr rfl

end IgnoreFile

end CodeAudit

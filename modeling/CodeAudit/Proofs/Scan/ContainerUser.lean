import CodeAudit.Proofs.Regex.Language
import CodeAudit.Scan.Infrastructure

/-!
# The user a container runs as

A file is reported to run as root if it has a base image and every user it sets is root (`rootCheck_iff`). Stages play
no part: a file that sets another user first and ends with root is not reported.
-/

namespace CodeAudit

open List Text

/-! ## Capital letters -/

variable {x : Char}

lemma toNat_lt_of_toUpper (h : x.toUpper.toNat < 128) : x.toNat < 128 := by
  unfold Char.toUpper at h
  split at h
  · next hlower => exact toNat_lt_of_le hlower.2
  · exact h

lemma upperImage_ascii (hx : x.toNat < 128) : upperImage x = [x.toUpper] :=
  forall_ascii (P := fun x => upperImage x = [x.toUpper]) (by decide +kernel) hx

lemma foldCase_toUpper (hx : x.toNat < 128) : foldCase x.toUpper = foldCase x :=
  forall_ascii (P := fun x => foldCase x.toUpper = foldCase x) (by decide +kernel) hx

namespace Dockerfile

open Regex

lemma rootUserPattern_eq : rootUserPattern =
    letters "USER".toList (.seq (blanks 1) (letters "root".toList (.seq (blanks 0) (.finish false)))) := by decide +kernel

def AllBlank (cs : List Char) : Prop := ∀ b ∈ cs, isBlank b

lemma fits_end : (seq (blanks 0) (.finish false)).Fits AllBlank := by
  refine (takes_blanks.fits fits_finish).congr fun cs => ⟨?_, fun h => ?_⟩
  · rintro ⟨bs, _, rfl, ⟨-, hall⟩, rfl | rfl⟩
    · rwa [append_nil]
    · exact forall_mem_append.mpr ⟨hall, forall_mem_singleton.mpr (by decide)⟩
  · exact ⟨cs, [], (append_nil cs).symm, ⟨Nat.zero_le _, h⟩, .inl rfl⟩

/-! ## Instructions -/

def keywords : List String :=
  ["ADD", "ARG", "CMD", "COPY", "ENTRYPOINT", "ENV", "EXPOSE", "FROM", "HEALTHCHECK", "LABEL", "MAINTAINER", "ONBUILD", "RUN",
   "SHELL", "STOPSIGNAL", "USER", "VOLUME", "WORKDIR"]

def firstWord (s : List Char) : List Char := s.takeWhile fun c => !isBlank c

def afterWord (s : List Char) : List Char := s.dropWhile fun c => !isBlank c

def keyword (s : List Char) : String := String.ofList ((firstWord s).map Char.toUpper)

def argument (s : List Char) : List Char := (afterWord s).dropWhile isBlank

def namesRoot (s : List Char) : Bool := (argument s).map foldCase == "root".toList

variable {s : List Char}

lemma firstWord_append : firstWord s ++ afterWord s = s := takeWhile_append_dropWhile

lemma toUpper_firstWord (h : keyword s = k) : (firstWord s).map Char.toUpper = k.toList := by
  rw [← h, keyword, String.toList_ofList]

lemma firstWord_ascii (h : keyword s ∈ keywords) : ∀ x ∈ firstWord s, x.toNat < 128 := by
  have hascii : (keywords.all fun k => k.toList.all fun x => x.toNat < 128) := by decide
  intro x hx
  refine toNat_lt_of_toUpper (of_decide_eq_true (all_eq_true.mp (all_eq_true.mp hascii _ h) _ ?_))
  rw [← toUpper_firstWord rfl]
  exact mem_map_of_mem hx

/-- No two keywords of which one is looked for begin with the same letter. -/
lemma eq_of_head (hk : k ∈ keywords) (hw : w ∈ ["FROM", "USER"]) (h : k.toList.head? = w.toList.head?) : k = w := by
  have hall : ∀ k ∈ keywords, ∀ w ∈ ["FROM", "USER"], k.toList.head? = w.toList.head? → k = w := by decide
  exact hall k hk w hw h

lemma startsWithKeyword_iff (h : keyword s ∈ keywords) (hw : w ∈ ["FROM", "USER"]) :
    startsWithKeyword w s ↔ keyword s = w := by
  have hupper : s.flatMap upperImage = (keyword s).toList ++ (afterWord s).flatMap upperImage := by
    have hword : (firstWord s).flatMap upperImage = (firstWord s).map Char.toUpper := by
      rw [map_eq_flatMap, flatMap_def, flatMap_def, map_congr_left fun x hx => upperImage_ascii (firstWord_ascii h x hx)]
    rw [← toUpper_firstWord rfl, ← hword, ← flatMap_append, firstWord_append]
  rw [startsWithKeyword, hupper, isPrefixOf_iff_prefix]
  constructor
  · rintro ⟨t, ht⟩
    have hsome : ∀ k ∈ "FROM" :: "USER" :: keywords, k.toList.head?.isSome := by decide
    have hk := hsome _ (mem_cons_of_mem _ (mem_cons_of_mem _ h))
    have hw' := hsome w (mem_append_left keywords hw)
    have hhead := congrArg head? ht
    rw [head?_append, head?_append, Option.or_of_isSome hk, Option.or_of_isSome hw'] at hhead
    exact eq_of_head h hw hhead.symm
  · exact fun heq => heq ▸ prefix_append _ _

lemma not_blank_of_foldCase (h : foldCase x = 'r') : isBlank x = false := by
  refine Bool.eq_false_iff.mpr fun hx => ?_
  rw [foldCase_blank hx] at h
  rw [h] at hx
  exact absurd hx (by decide)

lemma exists_of_root (h : v.map foldCase = "root".toList) : ∃ x xs, v = x :: xs ∧ isBlank x = false := by
  obtain ⟨x, xs, rfl, hx, -⟩ := map_eq_cons_iff.mp h
  exact ⟨x, xs, rfl, not_blank_of_foldCase hx⟩

lemma isSome_rootUser (h : keyword s = "USER") (htrimmed : ∀ cs b, s = cs ++ [b] → isBlank b = false) :
    (rootUserPattern.matchStart? s).isSome ↔ namesRoot s := by
  have hfits := fits_letters (w := "USER".toList) (by decide)
    ((takes_blanks (n := 1)).fits (fits_letters (w := "root".toList) (by decide) fits_end))
  rw [rootUserPattern_eq, hfits.isSome_matchStart?, namesRoot, beq_iff_eq]
  have hroot : "root".toList.map foldCase = "root".toList := by decide
  constructor
  · rintro ⟨u, _, hs, hu, bs, _, rfl, ⟨-, hbs⟩, v, ts, rfl, hv, hts⟩
    rw [hroot] at hv
    have hlength : (firstWord s).length = u.length := by
      have hword := congrArg length (toUpper_firstWord h)
      have hlen := congrArg length hu
      rw [length_map] at hword hlen
      rw [hword, hlen]
      rfl
    obtain ⟨-, hafter⟩ := append_inj (firstWord_append.trans hs) hlength
    -- nothing blank is left at the end
    have hnil : ts = [] := by
      rcases eq_nil_or_concat ts with hnil | ⟨ts, b, rfl⟩
      · exact hnil
      · have hlast := htrimmed (u ++ (bs ++ (v ++ ts))) b (by simpa using hs)
        rw [hts b (by simp)] at hlast
        cases hlast
    obtain ⟨x, xs, rfl, hx⟩ := exists_of_root hv
    rw [argument, hafter, hnil, append_nil, dropWhile_append_of_pos hbs, dropWhile_cons_of_neg (by rw [hx]; decide), hv]
  · intro hv
    have hkey : keyword s ∈ keywords := h ▸ (by decide)
    have hfold : (firstWord s).map foldCase = "USER".toList.map foldCase := by
      rw [← toUpper_firstWord h, map_map]
      exact map_congr_left fun x hx => (foldCase_toUpper (firstWord_ascii hkey x hx)).symm
    have hcut : (afterWord s).takeWhile isBlank ++ argument s = afterWord s := takeWhile_append_dropWhile
    refine ⟨firstWord s, afterWord s, firstWord_append.symm, hfold, _, argument s, hcut.symm,
      ⟨?_, all_eq_true.mp all_takeWhile⟩, argument s, [], (append_nil _).symm, hv.trans hroot.symm, by simp [AllBlank]⟩
    -- the word is followed by a blank, with which the argument does not begin
    obtain ⟨x, xs, hxs, hx⟩ := exists_of_root hv
    refine length_pos_iff.mpr fun hnil => ?_
    rw [hnil, nil_append, hxs] at hcut
    have hhead := head?_dropWhile_not (fun c => !isBlank c) s
    rw [show s.dropWhile (fun c => !isBlank c) = x :: xs from hcut.symm] at hhead
    simp [hx] at hhead

/-! ## The check -/

/-- The instructions of a file, without their line numbers. -/
def commands (lines : List (List Char)) : List (List Char) := (instructions lines).map (·.1)

/-- The file runs as root in the end: no user is set after the last base image, or the last one is root. -/
def endsAsRoot (lines : List (List Char)) : Bool :=
  (commands lines).any (keyword · == "FROM") &&
    (((commands lines).reverse.takeWhile (keyword · != "FROM")).find? (keyword · == "USER")).all namesRoot

def Reports (file : String) (lines : List (List Char)) : Prop := ∃ i ∈ scanLines file lines, i.check.id = "VP-DF-001"

variable {lines : List (List Char)}

lemma reports_iff_runsAsRoot : Reports file lines ↔ runsAsRoot lines := by
  have hids : ∀ r ∈ lineRules, r.check.id ≠ "VP-DF-001" := by decide
  constructor
  · rintro ⟨i, hi, hid⟩
    rcases mem_append.mp hi with hi | hi
    · obtain ⟨_, -, hi⟩ := mem_flatMap.mp hi
      obtain ⟨r, hr, rfl⟩ := mem_map.mp hi
      exact absurd hid (hids r (mem_filter.mp hr).1)
    · split at hi
      · next h => exact h
      · cases hi
  · intro h
    exact ⟨_, mem_append_right _ (by rw [if_pos h]; exact mem_singleton_self _), rfl⟩

lemma trimmed_of_mem_commands (h : s ∈ commands lines) (cs : List Char) (b : Char)
    (hs : s = cs ++ [b]) : isBlank b = false := by
  obtain ⟨⟨_, n⟩, hmem, rfl⟩ := mem_map.mp h
  obtain ⟨line, -, htrim⟩ := mem_map.mp (fst_mem_of_mem_zipIdx (mem_filter.mp hmem).1)
  dsimp only at hs htrim
  rw [hs, Chars.trim, Chars.trimEnd, reverse_eq_iff, reverse_append, reverse_singleton, singleton_append] at htrim
  have hhead := head?_dropWhile_not isBlank (line.dropWhile isBlank).reverse
  rwa [htrim] at hhead

lemma setsOtherUser_iff (h : s ∈ commands lines) (hkey : keyword s ∈ keywords) :
    setsOtherUser s ↔ keyword s = "USER" ∧ namesRoot s = false := by
  rw [setsOtherUser, Bool.and_eq_true, startsWithKeyword_iff hkey (by decide)]
  refine and_congr_right fun huser => ?_
  have hroot := isSome_rootUser huser (trimmed_of_mem_commands h)
  rw [← Bool.not_eq_true, ← hroot, Option.isNone_iff_eq_none, Option.not_isSome_iff_eq_none]

/-- Where every line is a comment, blank or an instruction, the check reports a file exactly if it has a base image and
sets no user but root. What it reports runs as root in the end. -/
theorem rootCheck_iff {file : String} {lines : List (List Char)} (hknown : ∀ s ∈ commands lines, keyword s ∈ keywords) :
    (Reports file lines ↔ (∃ s ∈ commands lines, keyword s = "FROM") ∧
      ∀ s ∈ commands lines, keyword s = "USER" → namesRoot s = true) ∧
    (Reports file lines → endsAsRoot lines = true) := by
  have hiff : Reports file lines ↔ (∃ s ∈ commands lines, keyword s = "FROM") ∧
      ∀ s ∈ commands lines, keyword s = "USER" → namesRoot s = true := by
    have hruns : runsAsRoot lines =
        ((commands lines).any (startsWithKeyword "FROM") && !(commands lines).any setsOtherUser) := rfl
    rw [reports_iff_runsAsRoot, hruns, Bool.and_eq_true, any_eq_true, Bool.not_eq_true', any_eq_false]
    refine and_congr (exists_congr fun s => and_congr_right fun hs => startsWithKeyword_iff (hknown s hs) (by decide)) ?_
    refine forall_congr' fun s => forall_congr' fun hs => ?_
    rw [setsOtherUser_iff hs (hknown s hs)]
    simp
  refine ⟨hiff, fun hreports => ?_⟩
  obtain ⟨⟨base, hbase, hfrom⟩, husers⟩ := hiff.mp hreports
  rw [endsAsRoot, Bool.and_eq_true, any_eq_true]
  refine ⟨⟨base, hbase, beq_iff_eq.mpr hfrom⟩, ?_⟩
  cases hlast : ((commands lines).reverse.takeWhile (keyword · != "FROM")).find? (keyword · == "USER") with
  | none => rfl
  | some s =>
    have hmem := mem_reverse.mp ((takeWhile_sublist _).subset (mem_of_find?_eq_some hlast))
    exact husers s hmem (beq_iff_eq.mp (find?_some hlast :))

def twoStages : List (List Char) :=
  ["FROM golang AS build".toList, "USER app".toList, "# run".toList, "FROM scratch".toList]

/-- A file whose last stage sets no user is not reported if an earlier one does. -/
theorem twoStages_not_reported : (∀ s ∈ commands twoStages, keyword s ∈ keywords) ∧
    ¬(Reports "Dockerfile" twoStages ↔ endsAsRoot twoStages = true) := by
  have hends : endsAsRoot twoStages = true := by decide +kernel
  have hruns : runsAsRoot twoStages = false := by decide +kernel
  refine ⟨by decide +kernel, fun h => ?_⟩
  have := reports_iff_runsAsRoot.mp (h.mpr hends)
  rw [hruns] at this
  cases this

def rootOnly : List (List Char) := ["from scratch".toList, [], "User\tRoot".toList]

theorem rootOnly_reported : (∀ s ∈ commands rootOnly, keyword s ∈ keywords) ∧ Reports "Dockerfile" rootOnly ∧
    endsAsRoot rootOnly = true := by
  have hknown : ∀ s ∈ commands rootOnly, keyword s ∈ keywords := by decide +kernel
  have hreports : Reports "Dockerfile" rootOnly := (rootCheck_iff hknown).1.mpr (by decide +kernel)
  exact ⟨hknown, hreports, (rootCheck_iff hknown).2 hreports⟩

end Dockerfile

end CodeAudit

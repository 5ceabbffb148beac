import CodeAudit.Proofs.Regex.Language
import CodeAudit.Scan.Golang
import Mathlib.Data.List.Basic

/-!
# Calls of queries in Go

The rule for queries that are put together in their call asks for a space between the dot and the method. A call with
one is found in every text, and a call as Go is written is not found, whatever its literal (`found_with_space`).
-/

namespace CodeAudit

open List Text Option

/-- A sign before the letters has no other case. -/
lemma eq_of_mem_caseForms {x y : Char} (hx : x < 'A') (h : x ∈ caseForms y) : x = y := by
  rw [caseForms] at h
  split at h
  · next hl =>
    have hforms := forall_ascii (P := fun l => 'a' ≤ l ∧ l ≤ 'z' → 'A' ≤ l ∧ 'A' ≤ Char.ofNat (l.toNat - 32))
      (by decide +kernel) (toNat_lt_of_le hl.2) hl
    rcases mem_pair.mp h with rfl | rfl
    · exact absurd hforms.1 (Char.not_le.mpr hx)
    · exact absurd hforms.2 (Char.not_le.mpr hx)
  · exact mem_singleton.mp h

namespace Regex

variable {a b : Regex} {L M : List Char → Prop} {c d : Cursor} {s t before after : List Char}

/-! ## Texts that have a match -/

lemma Takes.alt (ha : a.Takes L) (hb : b.Takes M) : (alt a b).Takes fun taken => L taken ∨ M taken := by
  intro c xs
  simp only [Moves, or_and_right, exists_or, and_or_left]
  exact or_congr (ha c xs) (hb c xs)

/-- No condition on what stands around, and nothing but single characters repeated. -/
def isPlain : Regex → Bool
  | .empty | .one _ | .rep _ none _ (.one _) | .rep 0 (some 1) _ (.one _) => true
  | .seq a b | .alt a b => a.isPlain && b.isPlain
  | _ => false

lemma exists_takes (h : a.isPlain) : ∃ L, a.Takes L := by
  fun_induction isPlain a with
  | case1 => exact ⟨_, takes_empty⟩
  | case2 => exact ⟨_, takes_one⟩
  | case3 => exact ⟨_, takes_run⟩
  | case4 => exact ⟨_, takes_one.maybe (by simp)⟩
  | case5 a b iha ihb =>
    obtain ⟨ha, hb⟩ := Bool.and_eq_true_iff.mp h
    exact ⟨_, (iha ha).choose_spec.seq (ihb hb).choose_spec⟩
  | case6 a b iha ihb =>
    obtain ⟨ha, hb⟩ := Bool.and_eq_true_iff.mp h
    exact ⟨_, (iha ha).choose_spec.alt (ihb hb).choose_spec⟩
  | case7 => cases h

/-- The expression leads over the text, wherever it stands. -/
def Covers (a : Regex) (s : List Char) : Prop := ∀ c xs, c.rest = s ++ xs → ∃ d, a.Moves c d ∧ d.rest = xs

lemma Covers.seq (ha : a.Covers s) (hb : b.Covers t) : (seq a b).Covers (s ++ t) := by
  intro c xs hrest
  obtain ⟨e, he, hrest⟩ := ha c (t ++ xs) (by rw [hrest, append_assoc])
  obtain ⟨d, hd, hxs⟩ := hb e xs hrest
  exact ⟨d, ⟨e, he, hd⟩, hxs⟩

/-- A plain expression that matches a text to its end does so wherever it stands. -/
lemma covers_of_match (h : a.isPlain) (hs : ((seq a close).matchStart? s).isSome) : a.Covers s := by
  obtain ⟨L, hL⟩ := exists_takes h
  have hclose : close.Fits (· = []) := fun c =>
    ⟨fun ⟨_, hd, _⟩ => isEmpty_iff.mp hd, fun hnil => ⟨c, isEmpty_iff.mpr hnil, rfl⟩⟩
  obtain ⟨_, _, rfl, htaken, rfl⟩ := ((hL.fits hclose).isSome_matchStart? s).mp hs
  rw [append_nil]
  exact fun c xs hrest => (hL c xs).mpr ⟨_, hrest, htaken⟩

lemma Covers.isSome_searchFrom (ha : a.Covers s) {fuel : Nat} (hrest : c.rest = before ++ (s ++ after))
    (hfuel : before.length ≤ fuel) : (a.searchFrom false fuel c).isSome := by
  induction before generalizing c fuel with
  | nil =>
    obtain ⟨d, hd, -⟩ := ha { c with groups := [] } after hrest
    have hmatch : (a.matchAt? false c).isSome := by
      rw [matchAt?, isSome_map]
      exact isSome_run hd rfl
    obtain ⟨m, hm⟩ := isSome_iff_exists.mp hmatch
    cases fuel <;> simp [searchFrom, hm]
  | cons x before ih =>
    cases fuel with
    | zero => cases hfuel
    | succ fuel =>
      rw [searchFrom]
      split
      · rfl
      · rw [hrest]
        exact ih rfl (Nat.le_of_succ_le_succ hfuel)

lemma Covers.exists_mem_allMatches (ha : a.Covers s) : ∃ m, m ∈ a.allMatches (before ++ (s ++ after)) := by
  have hsome : (a.searchFrom false (before ++ (s ++ after)).length (.ofText (before ++ (s ++ after)))).isSome :=
    ha.isSome_searchFrom rfl (by simp)
  obtain ⟨⟨m, place⟩, hm⟩ := isSome_iff_exists.mp hsome
  refine ⟨m, ?_⟩
  rw [allMatches, matchesFrom]
  exact hm ▸ mem_cons_self

/-! ## Signs of a match -/

/-- Signs that a match of an expression holds in this order, for each choice of alternatives. -/
def signsHeld : Regex → List (List Char)
  | .one ⟨false, true, [.char x]⟩ => if x < 'A' then [[x]] else [[]]
  | .seq a b => a.signsHeld.flatMap fun w => b.signsHeld.map (w ++ ·)
  | .alt a b => a.signsHeld ++ b.signsHeld
  | _ => [[]]

lemma exists_signsHeld (hmoves : a.Moves c d) (hs : c.Passes s d) : ∃ w ∈ a.signsHeld, w <+ s := by
  fun_induction signsHeld a generalizing c d s with
  | case1 x hx =>
    obtain ⟨y, ys, hrest, hy, rfl⟩ := hmoves
    have hform : x ∈ caseForms y := by simpa [CharSet.has, ClassItem.has] using hy
    have hsign : s = [y] := append_cancel_right (hs.1.symm.trans hrest)
    exact ⟨[x], mem_singleton_self _, by rw [hsign, eq_of_mem_caseForms hx hform]⟩
  | case3 a b ihb iha =>
    obtain ⟨e, ha, hb⟩ := hmoves
    obtain ⟨first, hfirst⟩ := ha.passes
    obtain ⟨second, hsecond⟩ := hb.passes
    obtain ⟨w, hw, hsub⟩ := iha ha hfirst
    obtain ⟨v, hv, hsub'⟩ := ihb hb hsecond
    have hparts : s = first ++ second := append_cancel_right (hs.1.symm.trans (hfirst.trans hsecond).1)
    exact ⟨w ++ v, mem_flatMap.mpr ⟨w, hw, mem_map_of_mem hv⟩, hparts ▸ hsub.append hsub'⟩
  | case4 a b iha ihb =>
    rcases hmoves with ha | hb
    · exact (iha ha hs).imp fun w hw => ⟨mem_append_left _ hw.1, hw.2⟩
    · exact (ihb hb hs).imp fun w hw => ⟨mem_append_right _ hw.1, hw.2⟩
  | _ => exact ⟨[], mem_singleton_self _, nil_sublist s⟩

end Regex

namespace Golang

open Regex

/-! ## The rule -/

def sign (x : Char) : Regex := char { anyCase := true } x

/-- A call with something added in its arguments, as the rule has it. -/
def addingCall : Regex :=
  .seq (loose "db|tx|conn|rows?") (.seq (sign '.') (.seq (sign ' ') (.seq (.rep 0 none false (sign 's'))
    (.seq (loose "Query|Exec|QueryRow|Prepare") (.seq (loose r"\s*") (.seq (sign '(')
      (.seq (.rep 0 none false (.one ⟨true, true, [.char ')']⟩)) (loose r"\+|fmt\.Sprintf"))))))))

/-- A query that is put together where it is named. -/
def addingQuery : Regex :=
  loose r#"(?:query|sql|stmt|q)\s*(?::=|=|\+=)\s*(?:"[^"]*"\s*\+|fmt\.Sprintf\s*\(\s*"[^"]*%[svdq])"#

lemma pattern_of_id : ∀ r ∈ rules, r.id = "VP-GO-001" → r.pattern = .alt addingCall addingQuery := by decide +kernel

def FindsQuery (file : String) (text : List Char) : Prop := ∃ f ∈ scanText file text, f.rule.id = "VP-GO-001"

/-! ## Calls -/

variable {receiver method s v w a b : List Char} {x : Char}

def receivers : List (List Char) := ["db", "tx", "conn", "row", "rows"].map String.toList

def methods : List (List Char) := ["Query", "Exec", "QueryRow", "Prepare"].map String.toList

/-- A call whose argument adds a name to a literal, with some gap behind the dot. -/
def call (receiver gap method s v : List Char) : List Char :=
  receiver ++ '.' :: (gap ++ (method ++ '(' :: '"' :: (s ++ '"' :: (" + ".toList ++ v ++ [')']))))

lemma addingCall_covers (hreceiver : receiver ∈ receivers) (hmethod : method ∈ methods) (hs : ')' ∉ s) :
    addingCall.Covers (receiver ++ (['.'] ++ ([' '] ++ ([] ++ (method ++ ([] ++ (['('] ++
      ('"' :: (s ++ ['"', ' ']) ++ ['+'])))))))) := by
  have hr : ∀ r ∈ receivers, ((seq (loose "db|tx|conn|rows?") .close).matchStart? r).isSome := by
    decide +kernel
  have hm : ∀ m ∈ methods,
    ((seq (loose "Query|Exec|QueryRow|Prepare") .close).matchStart? m).isSome := by decide +kernel
  have hinner : Covers (.rep 0 none false (.one ⟨true, true, [.char ')']⟩)) ('"' :: (s ++ ['"', ' '])) := by
    refine fun c xs hrest => (takes_run c xs).mpr ⟨_, hrest, Nat.zero_le _, fun x hx => ?_⟩
    have hform : ')' ∉ caseForms x := fun h => by
      cases eq_of_mem_caseForms (by decide) h
      simp [hs] at hx
    simpa [CharSet.has, ClassItem.has, ← ne_eq, ← forall_mem_ne] using hform
  exact .seq (covers_of_match (by decide +kernel) (hr _ hreceiver)) (.seq (covers_of_match rfl (by decide +kernel))
    (.seq (covers_of_match rfl (by decide +kernel)) (.seq (covers_of_match rfl (by decide +kernel))
      (.seq (covers_of_match (by decide +kernel) (hm _ hmethod)) (.seq (covers_of_match rfl (by decide +kernel))
        (.seq (covers_of_match rfl (by decide +kernel)) (.seq hinner
          (covers_of_match (by decide +kernel) (by decide +kernel)))))))))

lemma signs_of_id : ∀ r ∈ rules, r.id = "VP-GO-001" → ∀ w ∈ r.pattern.signsHeld,
    [' ', '='].any fun x => [x, '('] <+ w ∨ [x, '"', '"'] <+ w := by decide +kernel

lemma notMem_names : ∀ receiver ∈ receivers, ∀ method ∈ methods,
    [' ', '='].all fun x => x ∉ receiver ++ '.' :: (method ++ ['(', '"']) := by decide +kernel

lemma sublist_of_notMem (hx : x ∉ a) (h : x :: w <+ a ++ b) : x :: w <+ b := by
  induction a with
  | nil => exact h
  | cons y a ih =>
    obtain ⟨hne, hrest⟩ := not_or.mp (mt mem_cons.mpr hx)
    exact ih hrest (h.of_cons_of_ne hne)

lemma not_findsQuery_plain (file : String) (hreceiver : receiver ∈ receivers) (hmethod : method ∈ methods)
    (hplain : ∀ x ∈ s ++ v, x ≠ '"' ∧ x ≠ '(') : ¬ FindsQuery file (call receiver [] method s v) := by
  rintro ⟨f, hf, hid⟩
  obtain ⟨r, hr, hmem⟩ := mem_flatMap.mp hf
  obtain ⟨m, hm, rfl⟩ := mem_map.mp hmem
  obtain ⟨before, c, d, hbefore, hmoves, htext, -⟩ := finds_of_mem_allMatches hm
  obtain ⟨w, hw, hsub⟩ := exists_signsHeld hmoves htext
  obtain ⟨x, hx, hsigns⟩ := any_eq_true.mp (signs_of_id r hr hid w hw)
  have hname := of_decide_eq_true (all_eq_true.mp (notMem_names _ hreceiver _ hmethod) x hx)
  have hcall : call receiver [] method s v = before ++ (m.text ++ d.rest) := htext.1 ▸ hbefore.1
  have hfound : w <+ receiver ++ '.' :: (method ++ ['(', '"']) ++ (s ++ '"' :: (" + ".toList ++ v ++ [')'])) := by
    refine hsub.trans ((sublist_append_left _ d.rest).trans ?_)
    simpa [call, ← hcall] using sublist_append_right before (m.text ++ d.rest)
  -- the first of the signs is in the literal or behind it, where there is one quotation mark and no parenthesis
  have hlater : ∀ {more}, x :: more <+ w → more <+ s ++ '"' :: (" + ".toList ++ v ++ [')']) := fun hmore =>
    (sublist_cons_self x _).trans (sublist_of_notMem hname (hmore.trans hfound))
  rcases of_decide_eq_true hsigns with hparen | hquotes
  · have hmem : '(' ∈ s ∨ '(' ∈ v := by simpa using singleton_sublist.mp (hlater hparen)
    exact (hplain _ (mem_append.mpr hmem)).2 rfl
  · have hcount := (hlater hquotes).count_le '"'
    have hnone : (s ++ v).count '"' = 0 := count_eq_zero.mpr fun h => (hplain _ h).1 rfl
    simp at hcount hnone
    omega

/-- **A call with a space behind its dot is found in every text**, a call with no space is not. -/
theorem found_with_space (file : String) (hreceiver : receiver ∈ receivers) (hmethod : method ∈ methods) (hs : ')' ∉ s)
    (v before after : List Char) : FindsQuery file (before ++ (call receiver [' '] method s v ++ after)) ∧
      ((∀ x ∈ s ++ v, x ≠ '"' ∧ x ≠ '(') → ¬ FindsQuery file (call receiver [] method s v)) := by
  refine ⟨?_, not_findsQuery_plain file hreceiver hmethod⟩
  obtain ⟨r, hr, hid⟩ : ∃ r ∈ rules, r.id = "VP-GO-001" := ⟨_, mem_cons_self, rfl⟩
  have hcall := addingCall_covers hreceiver hmethod hs
  have hcovers : (alt addingCall addingQuery).Covers _ := fun c xs hrest =>
    (hcall c xs hrest).imp fun d hd => ⟨.inl hd.1, hd.2⟩
  rw [← pattern_of_id r hr hid] at hcovers
  obtain ⟨m, hm⟩ := @Covers.exists_mem_allMatches _ _ before (' ' :: (v ++ ')' :: after)) hcovers
  refine ⟨r.finding file _ m, mem_flatMap.mpr ⟨r, hr, mem_map_of_mem ?_⟩, hid⟩
  simpa [call] using hm

theorem spacedQuery_found : FindsQuery "main.go" (call "db".toList [' '] "Query".toList ['s'] ['v']) ∧
    ¬ FindsQuery "main.go" (call "db".toList [] "Query".toList ['s'] ['v']) := by
  have h := @found_with_space "db".toList "Query".toList ['s'] "main.go" (by decide) (by decide) (by decide) ['v'] [] []
  exact ⟨by simpa using h.1, h.2 (by simp)⟩

theorem plainQuery_not_found : ¬ FindsQuery "main.go" (call "db".toList [] "Query".toList ['s'] ['v']) := by
  unfold FindsQuery
  decide +kernel

end Golang

end CodeAudit

import CodeAudit.Regex.Pattern
import Mathlib.Tactic.Lemma

/-!
# What expressions match

`Regex.Moves` says from where to where an expression leads, without an order of tries. The matcher finds a way that its
continuation accepts exactly when there is one (`exists_of_run`, `isSome_run`), and every match of a search is such a
way (`finds_of_mem_allMatches`).
-/

namespace CodeAudit

open List Option

/-- So many steps, one after the other. -/
inductive Rounds (step : Cursor → Cursor → Prop) : Nat → Cursor → Cursor → Prop
  | done (c : Cursor) : Rounds step 0 c c
  | next {n : Nat} {c d e : Cursor} : step c d → Rounds step n d e → Rounds step (n + 1) c e

/-- Steps that move on, at most so many if there is a bound. -/
inductive Repeats (step : Cursor → Cursor → Prop) : Option Nat → Cursor → Cursor → Prop
  | done (most : Option Nat) (c : Cursor) : Repeats step most c c
  | next {most : Option Nat} {c d e : Cursor} : most ≠ some 0 → step c d → d.pos ≠ c.pos →
      Repeats step (most.map (· - 1)) d e → Repeats step most c e

/-- The places to which an expression leads. -/
def Regex.Moves : Regex → Cursor → Cursor → Prop
  | .empty, c, d => d = c
  | .one s, c, d => ∃ x xs, c.rest = x :: xs ∧ s.has x ∧ d = c.past x xs
  | .seq a b, c, d => ∃ e, a.Moves c e ∧ b.Moves e d
  | .alt a b, c, d => a.Moves c d ∨ b.Moves c d
  | .rep least most _ body, c, d =>
    ∃ e, Rounds body.Moves least c e ∧ Repeats body.Moves (most.map (· - least)) e d
  | .group index body, c, d => ∃ e, body.Moves c e ∧
      d = { e with groups := { index, start := c.pos, size := e.pos - c.pos, ahead := c.rest } :: e.groups }
  | .again index, c, d => ∃ text, Capture.textOf? c.groups index = some text ∧ c.pastText? text = some d
  | .start ofLine, c, d => c.atStart ofLine ∧ d = c
  | .finish ofLine, c, d => c.atFinish ofLine ∧ d = c
  | .close, c, d => c.rest.isEmpty ∧ d = c
  | .edge, c, d => c.atEdge ∧ d = c

/-! ## Moving over text -/

/-- One cursor stands behind some text that lies ahead of another. -/
def Cursor.Passes (c : Cursor) (cs : List Char) (d : Cursor) : Prop :=
  c.rest = cs ++ d.rest ∧ d.pos = c.pos + cs.length

namespace Cursor

variable {c d e : Cursor} {cs ds : List Char}

lemma Passes.refl (c : Cursor) : c.Passes [] c := ⟨rfl, rfl⟩

lemma Passes.trans (hcs : c.Passes cs d) (hds : d.Passes ds e) : c.Passes (cs ++ ds) e := by
  refine ⟨by rw [hcs.1, hds.1, append_assoc], ?_⟩
  rw [hds.2, hcs.2, length_append, Nat.add_assoc]

lemma Passes.length_lt (h : c.Passes cs d) (hmoved : d.pos ≠ c.pos) : d.rest.length < c.rest.length := by
  obtain ⟨hrest, hpos⟩ := h
  rw [hrest, length_append]
  omega

lemma passes_past (h : c.rest = x :: xs) : c.Passes [x] (c.past x xs) := ⟨h, rfl⟩

lemma passes_of_pastText? (h : c.pastText? cs = some d) : c.Passes cs d := by
  fun_induction pastText? cs c with
  | case1 c =>
    cases h
    exact .refl _
  | case2 => cases h
  | case3 c x xs y ys hrest heq ih =>
    cases beq_iff_eq.mp heq
    exact (passes_past hrest).trans (ih h)
  | case4 => cases h

end Cursor

section Steps

variable {step : Cursor → Cursor → Prop} {n : Nat} {most : Option Nat} {c d : Cursor}
  (hstep : ∀ {c d}, step c d → ∃ cs, c.Passes cs d)

include hstep

lemma Rounds.passes (h : Rounds step n c d) : ∃ cs, c.Passes cs d := by
  induction h with
  | done c => exact ⟨[], .refl c⟩
  | next hfirst _ ih =>
    obtain ⟨cs, hcs⟩ := hstep hfirst
    obtain ⟨ds, hds⟩ := ih
    exact ⟨cs ++ ds, hcs.trans hds⟩

lemma Repeats.passes (h : Repeats step most c d) : ∃ cs, c.Passes cs d := by
  induction h with
  | done _ c => exact ⟨[], .refl c⟩
  | next _ hfirst _ _ ih =>
    obtain ⟨cs, hcs⟩ := hstep hfirst
    obtain ⟨ds, hds⟩ := ih
    exact ⟨cs ++ ds, hcs.trans hds⟩

end Steps

namespace Regex

variable {r : Regex} {c d stop : Cursor} {k : Cursor → Option Cursor}

lemma Moves.passes (h : r.Moves c d) : ∃ cs, c.Passes cs d := by
  induction r generalizing c d with
  | empty => exact ⟨[], h ▸ .refl c⟩
  | one s =>
    obtain ⟨x, xs, hrest, -, rfl⟩ := h
    exact ⟨[x], Cursor.passes_past hrest⟩
  | seq a b iha ihb =>
    obtain ⟨e, ha, hb⟩ := h
    obtain ⟨cs, hcs⟩ := iha ha
    obtain ⟨ds, hds⟩ := ihb hb
    exact ⟨cs ++ ds, hcs.trans hds⟩
  | alt a b iha ihb => exact h.elim iha ihb
  | rep least most isLazy body ih =>
    obtain ⟨e, hleast, hmore⟩ := h
    obtain ⟨cs, hcs⟩ := hleast.passes ih
    obtain ⟨ds, hds⟩ := hmore.passes ih
    exact ⟨cs ++ ds, hcs.trans hds⟩
  | group index body ih =>
    obtain ⟨e, he, rfl⟩ := h
    obtain ⟨cs, hcs⟩ := ih he
    exact ⟨cs, hcs⟩
  | again index =>
    obtain ⟨text, -, hpast⟩ := h
    exact ⟨text, Cursor.passes_of_pastText? hpast⟩
  | start _ | finish _ | close | edge => exact ⟨[], h.2 ▸ .refl c⟩

/-! ## The matcher -/

section Loops

variable {step : (Cursor → Option Cursor) → Cursor → Option Cursor} {R : Cursor → Cursor → Prop} {n : Nat}
  {isLazy : Bool} {room : List Char} {most : Option Nat}

lemma exists_of_required (hstep : ∀ {k c}, step k c = some stop → ∃ d, R c d ∧ k d = some stop)
    (h : required step n k c = some stop) : ∃ d, Rounds R n c d ∧ k d = some stop := by
  induction n generalizing c with
  | zero => exact ⟨c, .done c, h⟩
  | succ n ih =>
    obtain ⟨e, he, hrest⟩ := hstep h
    obtain ⟨d, hd, hk⟩ := ih hrest
    exact ⟨d, .next he hd, hk⟩

lemma isSome_required (hstep : ∀ {k c d}, R c d → (k d).isSome → (step k c).isSome)
    (h : Rounds R n c d) (hk : (k d).isSome) : (required step n k c).isSome := by
  induction h with
  | done => exact hk
  | next hfirst _ ih => exact hstep hfirst (ih hk)

/-- One more round, or none. -/
lemma optional_cons (x : Char) : optional step isLazy (x :: room) most k c = if most = some 0 then k c
    else if isLazy then
      (k c).or (step (fun d => if d.pos = c.pos then none else optional step isLazy room (most.map (· - 1)) k d) c)
    else
      (step (fun d => if d.pos = c.pos then none else optional step isLazy room (most.map (· - 1)) k d) c).or (k c) := by
  rw [optional]
  simp only [beq_iff_eq]
  congr 1
  cases isLazy
  · cases step (fun d => if d.pos = c.pos then none else optional step false room (most.map (· - 1)) k d) c <;> rfl
  · cases k c <;> rfl

lemma exists_of_optional (hstep : ∀ {k c}, step k c = some stop → ∃ d, R c d ∧ k d = some stop)
    (h : optional step isLazy room most k c = some stop) : ∃ d, Repeats R most c d ∧ k d = some stop := by
  induction room generalizing c most with
  | nil => exact ⟨c, .done most c, h⟩
  | cons x room ih =>
    by_cases hmost : most = some 0
    · rw [optional_cons, if_pos hmost] at h
      exact ⟨c, .done most c, h⟩
    · have hround : k c = some stop ∨ step (fun d => if d.pos = c.pos then none
          else optional step isLazy room (most.map (· - 1)) k d) c = some stop := by
        rw [optional_cons, if_neg hmost] at h
        split at h
        · exact (or_eq_some_iff.mp h).imp_right And.right
        · exact (or_eq_some_iff.mp h).symm.imp_left And.right
      rcases hround with hk | hround
      · exact ⟨c, .done most c, hk⟩
      · obtain ⟨e, he, hrest⟩ := hstep hround
        split at hrest
        · cases hrest
        · next hmoved =>
          obtain ⟨d, hd, hk⟩ := ih hrest
          exact ⟨d, .next hmost he hmoved hd, hk⟩

lemma isSome_optional (hpasses : ∀ {c d}, R c d → ∃ cs, c.Passes cs d)
    (hstep : ∀ {k c d}, R c d → (k d).isSome → (step k c).isSome)
    (h : Repeats R most c d) (hroom : c.rest.length ≤ room.length) (hk : (k d).isSome) :
    (optional step isLazy room most k c).isSome := by
  induction h generalizing room with
  | done most c =>
    cases room with
    | nil => exact hk
    | cons x room =>
      rw [optional_cons]
      split
      · exact hk
      · split <;> simp [hk]
  | @next most c e d hmost hfirst hmoved _ ih =>
    -- a round that moves on leaves less text ahead, so there is room for it
    obtain ⟨cs, hcs⟩ := hpasses hfirst
    have hless := hcs.length_lt hmoved
    cases room with
    | nil => exact absurd (Nat.lt_of_lt_of_le hless hroom) (Nat.not_lt_zero _)
    | cons x room =>
      have hround := @hstep (fun d => if d.pos = c.pos then none else optional step isLazy room (most.map (· - 1)) k d) c e
        hfirst (by rw [if_neg hmoved]; exact ih (by rw [length_cons] at hroom; omega) hk)
      rw [optional_cons, if_neg hmost]
      split <;> simp [hround]

end Loops

/-- What the matcher finds, the expression leads to, and the continuation has accepted it. -/
lemma exists_of_run (h : run r k c = some stop) : ∃ d, r.Moves c d ∧ k d = some stop := by
  induction r generalizing k c with
  | empty => exact ⟨c, rfl, h⟩
  | one s =>
    unfold run at h
    split at h
    · cases h
    · next x xs hrest =>
      split at h
      · next hx => exact ⟨_, ⟨x, xs, hrest, hx, rfl⟩, h⟩
      · cases h
  | seq a b iha ihb =>
    obtain ⟨e, ha, hrest⟩ := iha h
    obtain ⟨d, hb, hk⟩ := ihb hrest
    exact ⟨d, ⟨e, ha, hb⟩, hk⟩
  | alt a b iha ihb =>
    unfold run at h
    split at h
    · next hfirst =>
      cases h
      obtain ⟨d, hd, hk⟩ := iha hfirst
      exact ⟨d, .inl hd, hk⟩
    · obtain ⟨d, hd, hk⟩ := ihb h
      exact ⟨d, .inr hd, hk⟩
  | rep least most isLazy body ih =>
    obtain ⟨e, hleast, hrest⟩ := exists_of_required (R := body.Moves) (fun h => ih h) h
    obtain ⟨d, hmore, hk⟩ := exists_of_optional (R := body.Moves) (fun h => ih h) hrest
    exact ⟨d, ⟨e, hleast, hmore⟩, hk⟩
  | group index body ih =>
    obtain ⟨e, he, hk⟩ := ih h
    exact ⟨_, ⟨e, he, rfl⟩, hk⟩
  | again index =>
    unfold run at h
    split at h
    · cases h
    · next text htext =>
      split at h
      · cases h
      · next d hd => exact ⟨d, ⟨text, htext, hd⟩, h⟩
  | start _ | finish _ | close | edge =>
    unfold run at h
    split at h
    · next hhere => exact ⟨c, ⟨hhere, rfl⟩, h⟩
    · cases h

/-- The matcher finds a way if there is one. -/
lemma isSome_run (h : r.Moves c d) (hk : (k d).isSome) : (run r k c).isSome := by
  induction r generalizing k c d with
  | empty => exact h ▸ hk
  | one s =>
    obtain ⟨x, xs, hrest, hx, rfl⟩ := h
    rw [run, hrest]
    dsimp only
    rwa [if_pos hx]
  | seq a b iha ihb =>
    obtain ⟨e, ha, hb⟩ := h
    exact iha ha (ihb hb hk)
  | alt a b iha ihb =>
    rw [run]
    split
    · rfl
    · next hnone =>
      refine h.elim (fun ha => ?_) fun hb => ihb hb hk
      exact absurd (iha ha hk) (by rw [hnone]; decide)
  | rep least most isLazy body ih =>
    obtain ⟨e, hleast, hmore⟩ := h
    exact isSome_required ih hleast (isSome_optional Moves.passes ih hmore (Nat.le_refl _) hk)
  | group index body ih =>
    obtain ⟨e, he, rfl⟩ := h
    exact ih he hk
  | again index =>
    obtain ⟨text, htext, hpast⟩ := h
    rw [run, htext]
    dsimp only
    rw [hpast]
    exact hk
  | start _ | finish _ | close | edge =>
    obtain ⟨hhere, rfl⟩ := h
    rw [run, if_pos hhere]
    exact hk

/-! ## Searching -/

section Search

variable {m : Match} {moving : Bool} {text : List Char} {fuel : Nat} {place : Cursor}

/-- A match is a way of its expression through the text. -/
def Finds (r : Regex) (text : List Char) (m : Match) : Prop :=
  ∃ before c d, (Cursor.ofText text).Passes before c ∧ r.Moves c d ∧ c.Passes m.text d ∧ m.start = c.pos

lemma exists_of_matchAt? (h : r.matchAt? moving c = some m) :
    ∃ d, r.Moves { c with groups := [] } d ∧ c.Passes m.text d ∧ m.start = c.pos := by
  obtain ⟨stop, hrun, rfl⟩ := map_eq_some_iff.mp h
  obtain ⟨d, hd, haccept⟩ := exists_of_run hrun
  obtain ⟨cs, hrest, hpos⟩ := hd.passes
  have hstop : d = stop := by
    split at haccept
    · cases haccept
    · exact some.inj haccept
  have htext : c.rest.take (stop.pos - c.pos) = cs := by
    rw [show c.rest = cs ++ d.rest from hrest, ← hstop, hpos, Nat.add_sub_cancel_left, take_left]
  refine ⟨d, hd, ?_, rfl⟩
  dsimp only
  rw [htext]
  exact ⟨hrest, hpos⟩

lemma exists_of_searchFrom (h : r.searchFrom moving fuel c = some (m, place)) :
    (∃ cs, c.Passes cs place) ∧ ∃ moving, r.matchAt? moving place = some m := by
  fun_induction searchFrom r moving fuel c with
  | case1 moving c =>
    obtain ⟨_, hm, heq⟩ := map_eq_some_iff.mp h
    cases heq
    exact ⟨⟨[], .refl _⟩, moving, hm⟩
  | case2 moving _ c _ hm =>
    cases h
    exact ⟨⟨[], .refl _⟩, moving, hm⟩
  | case3 => cases h
  | case4 moving _ c _ x xs hrest ih =>
    obtain ⟨⟨cs, hcs⟩, hm⟩ := ih h
    exact ⟨⟨[x] ++ cs, (Cursor.passes_past hrest).trans hcs⟩, hm⟩

lemma advance_passes (n : Nat) (c : Cursor) : ∃ cs, c.Passes cs (advance n c) := by
  fun_induction advance n c with
  | case1 c => exact ⟨[], .refl c⟩
  | case2 _ c => exact ⟨[], .refl c⟩
  | case3 n c x xs hrest ih =>
    obtain ⟨cs, hcs⟩ := ih
    exact ⟨[x] ++ cs, (Cursor.passes_past hrest).trans hcs⟩

lemma finds_of_mem_matchesFrom (hc : (Cursor.ofText text).Passes before c)
    (h : m ∈ r.matchesFrom fuel moving c) : r.Finds text m := by
  induction fuel generalizing moving c before with
  | zero => cases h
  | succ fuel ih =>
    unfold matchesFrom at h
    split at h
    · cases h
    · next found place hfound =>
      obtain ⟨⟨cs, hcs⟩, _, hmatch⟩ := exists_of_searchFrom hfound
      rcases mem_cons.mp h with rfl | hlater
      · obtain ⟨d, hd, htext, hstart⟩ := exists_of_matchAt? hmatch
        exact ⟨_, { place with groups := [] }, d, hc.trans hcs, hd, htext, hstart⟩
      · obtain ⟨ds, hds⟩ := advance_passes found.text.length place
        exact ih ((hc.trans hcs).trans hds) hlater

/-- Every match that a search of the whole text gives is a way of its expression through it. -/
lemma finds_of_mem_allMatches (h : m ∈ r.allMatches text) : r.Finds text m :=
  finds_of_mem_matchesFrom (.refl _) h

end Search

end Regex

/-! ## Blanks

A character that is not blank is called ink. -/

lemma not_ink_of_isBlank (hx : Text.isBlank x) : ¬('!' ≤ x ∧ x ≤ '~') := by
  simp only [Text.isBlank, Bool.or_eq_true, Bool.and_eq_true, decide_eq_true_eq, beq_iff_eq] at hx
  simp only [Char.le_def, UInt32.le_iff_toNat_le]
  change ¬('!'.toNat ≤ x.toNat ∧ x.toNat ≤ '~'.toNat)
  have : '!'.toNat = 33 ∧ '~'.toNat = 126 := by decide
  omega

/-- A blank has no other case. -/
lemma foldCase_blank (hx : Text.isBlank x) : foldCase x = x := by
  have hupper : ¬('A' ≤ x ∧ x ≤ 'Z') := fun h =>
    not_ink_of_isBlank hx ⟨Char.le_trans (by decide) h.1, Char.le_trans h.2 (by decide)⟩
  simp only [Text.isBlank, Bool.or_eq_true, Bool.and_eq_true, decide_eq_true_eq, beq_iff_eq] at hx
  simp only [foldCase, Bool.or_eq_true, beq_iff_eq]
  rw [if_neg hupper, if_neg (by omega), if_neg (by omega), if_neg (by omega)]

/-!
## The texts of an expression

An expression without conditions on what stands around it takes the texts of a language, wherever they stand (`Takes`).
The last one of a pattern may ask for the end of the text; then the text ahead counts (`Fits`), and each expression
before it adds what it takes (`Takes.fits`).
-/

open Text

/-! ## Letters of either case -/

lemma forall_ascii {P : Char → Prop} (h : ∀ n < 128, P (Char.ofNat n)) (hx : x.toNat < 128) : P x :=
  Char.ofNat_toNat x ▸ h x.toNat hx

lemma toNat_lt_of_le (hx : x ≤ 'z') : x.toNat < 128 := Nat.lt_of_le_of_lt hx (by decide)

lemma mem_caseForms (hp : isAsciiLetter p) : p ∈ caseForms x ↔ foldCase x = foldCase p := by
  have hascii : p.toNat < 128 := by
    simp only [isAsciiLetter, decide_eq_true_eq] at hp
    exact hp.elim (toNat_lt_of_le ·.2) fun h => toNat_lt_of_le (Char.le_trans h.2 (by decide))
  have hfold := forall_ascii (P := fun p => isAsciiLetter p → ('a' ≤ foldCase p ∧ foldCase p ≤ 'z') ∧
    p ∈ [foldCase p, Char.ofNat ((foldCase p).toNat - 32)]) (by decide +kernel) hascii hp
  rw [caseForms]
  split
  · next hl =>
    have hforms := forall_ascii (P := fun l => 'a' ≤ l ∧ l ≤ 'z' → foldCase l = l ∧ foldCase (Char.ofNat (l.toNat - 32)) = l)
      (by decide +kernel) (toNat_lt_of_le hl.2) hl
    refine ⟨fun h => ?_, fun h => h ▸ hfold.2⟩
    simp only [mem_cons, not_mem_nil, or_false] at h
    rcases h with rfl | rfl
    · exact hforms.1.symm
    · exact hforms.2.symm
  · next hl =>
    rw [mem_singleton]
    exact ⟨fun h => h ▸ rfl, fun h => absurd hfold.1 (h ▸ hl)⟩

namespace Regex

variable {a b : Regex} {c d : Cursor} {s : CharSet} {n : Nat} {isLazy : Bool} {L M E : List Char → Prop}

/-- An expression leads over the texts of a language and over no others. -/
def Takes (a : Regex) (L : List Char → Prop) : Prop :=
  ∀ c xs, (∃ d, a.Moves c d ∧ d.rest = xs) ↔ ∃ taken, c.rest = taken ++ xs ∧ L taken

/-- An expression matches where the text ahead has some property. -/
def Fits (b : Regex) (E : List Char → Prop) : Prop := ∀ c, (∃ d, b.Moves c d) ↔ E c.rest

lemma Takes.congr (ha : a.Takes L) (h : ∀ taken, L taken ↔ M taken) : a.Takes M :=
  funext (fun taken => propext (h taken)) ▸ ha

lemma Fits.congr (hb : b.Fits E) (h : ∀ cs, E cs ↔ F cs) : b.Fits F :=
  fun c => (hb c).trans (h c.rest)

lemma Fits.isSome_matchStart? (hb : b.Fits E) (text : List Char) :
    (b.matchStart? text).isSome ↔ E text := by
  refine Iff.trans ⟨fun h => ?_, ?_⟩ (hb (.ofText text))
  · obtain ⟨m, hm⟩ := isSome_iff_exists.mp h
    obtain ⟨d, hd, -⟩ := exists_of_matchAt? hm
    exact ⟨d, hd⟩
  · rintro ⟨d, hd⟩
    rw [matchStart?, matchAt?, isSome_map]
    exact isSome_run hd rfl

lemma Takes.fits (ha : a.Takes L) (hb : b.Fits E) :
    (seq a b).Fits fun cs => ∃ taken left, cs = taken ++ left ∧ L taken ∧ E left := by
  intro c
  constructor
  · rintro ⟨d, e, he, hd⟩
    obtain ⟨taken, hrest, htaken⟩ := (ha c e.rest).mp ⟨e, he, rfl⟩
    exact ⟨taken, e.rest, hrest, htaken, (hb e).mp ⟨d, hd⟩⟩
  · rintro ⟨taken, left, hrest, htaken, hleft⟩
    obtain ⟨e, he, rfl⟩ := (ha c left).mpr ⟨taken, hrest, htaken⟩
    obtain ⟨d, hd⟩ := (hb e).mpr hleft
    exact ⟨d, e, he, hd⟩

lemma Takes.seq (ha : a.Takes L) (hb : b.Takes M) :
    (seq a b).Takes fun taken => ∃ first second, taken = first ++ second ∧ L first ∧ M second := by
  intro c xs
  constructor
  · rintro ⟨d, ⟨e, he, hd⟩, rfl⟩
    obtain ⟨first, hfirst, hL⟩ := (ha c e.rest).mp ⟨e, he, rfl⟩
    obtain ⟨second, hsecond, hM⟩ := (hb e d.rest).mp ⟨d, hd, rfl⟩
    exact ⟨first ++ second, by rw [hfirst, hsecond, append_assoc], first, second, rfl, hL, hM⟩
  · rintro ⟨_, hrest, first, second, rfl, hL, hM⟩
    obtain ⟨e, he, hrest⟩ := (ha c (second ++ xs)).mpr ⟨first, by rw [hrest, append_assoc], hL⟩
    obtain ⟨d, hd, hxs⟩ := (hb e xs).mpr ⟨second, hrest, hM⟩
    exact ⟨d, ⟨e, he, hd⟩, hxs⟩

lemma fits_finish : (finish false).Fits fun cs => cs = [] ∨ cs = ['\n'] := by
  intro c
  have hfinish : c.atFinish false ↔ c.rest = [] ∨ c.rest = ['\n'] := by
    rw [Cursor.atFinish]
    split
    · next hrest => simp [hrest]
    · next x xs hrest => simp [hrest]
  exact Iff.trans ⟨fun ⟨_, hhere, _⟩ => hhere, fun hhere => ⟨c, hhere, rfl⟩⟩ hfinish

lemma takes_empty : empty.Takes (· = []) := by
  intro c xs
  constructor
  · rintro ⟨_, rfl, rfl⟩
    exact ⟨[], rfl, rfl⟩
  · rintro ⟨_, hrest, rfl⟩
    exact ⟨c, rfl, hrest⟩

lemma takes_one : (one s).Takes fun taken => ∃ x, s.has x ∧ taken = [x] := by
  intro c xs
  constructor
  · rintro ⟨_, ⟨x, xs, hrest, hx, rfl⟩, rfl⟩
    exact ⟨[x], hrest, x, hx, rfl⟩
  · rintro ⟨_, hrest, x, hx, rfl⟩
    exact ⟨_, ⟨x, xs, hrest, hx, rfl⟩, rfl⟩

/-! ## Repetition -/

lemma exists_of_rounds (h : Rounds (one s).Moves n c d) :
    ∃ bs, c.rest = bs ++ d.rest ∧ bs.length = n ∧ ∀ b ∈ bs, s.has b := by
  induction h with
  | done c => exact ⟨[], rfl, rfl, by simp⟩
  | next hfirst _ ih =>
    obtain ⟨x, xs, hrest, hx, rfl⟩ := hfirst
    obtain ⟨bs, hbs, hlength, hall⟩ := ih
    exact ⟨x :: bs, by rw [hrest, cons_append, ← hbs]; rfl, by rw [length_cons, hlength], by simpa [hx] using hall⟩

lemma exists_of_repeats (h : Repeats (one s).Moves most c d) : ∃ bs, c.rest = bs ++ d.rest ∧ ∀ b ∈ bs, s.has b := by
  induction h with
  | done _ c => exact ⟨[], rfl, by simp⟩
  | next _ hfirst _ _ ih =>
    obtain ⟨x, xs, hrest, hx, rfl⟩ := hfirst
    obtain ⟨bs, hbs, hall⟩ := ih
    exact ⟨x :: bs, by rw [hrest, cons_append, ← hbs]; rfl, by simpa [hx] using hall⟩

lemma exists_repeats (hrest : c.rest = bs ++ xs) (hall : ∀ b ∈ bs, s.has b) :
    ∃ d, Repeats (one s).Moves none c d ∧ d.rest = xs := by
  induction bs generalizing c with
  | nil => exact ⟨c, .done none c, hrest⟩
  | cons b bs ih =>
    obtain ⟨hb, hall⟩ := forall_mem_cons.mp hall
    obtain ⟨d, hd, hdrest⟩ := ih (c := c.past b (bs ++ xs)) rfl hall
    exact ⟨d, .next (by simp) ⟨b, _, hrest, hb, rfl⟩ (Nat.succ_ne_self _) hd, hdrest⟩

lemma exists_rounds (hrest : c.rest = bs ++ xs) (hn : n ≤ bs.length) (hall : ∀ b ∈ bs, s.has b) :
    ∃ d, (rep n none isLazy (one s)).Moves c d ∧ d.rest = xs := by
  induction n generalizing c bs with
  | zero =>
    obtain ⟨d, hd, hdrest⟩ := exists_repeats hrest hall
    exact ⟨d, ⟨c, .done c, hd⟩, hdrest⟩
  | succ n ih =>
    cases bs with
    | nil => cases hn
    | cons b bs =>
      obtain ⟨hb, hall⟩ := forall_mem_cons.mp hall
      obtain ⟨d, ⟨e, he, hmore⟩, hdrest⟩ := ih (c := c.past b (bs ++ xs)) rfl (Nat.le_of_succ_le_succ hn) hall
      exact ⟨d, ⟨e, .next ⟨b, _, hrest, hb, rfl⟩ he, hmore⟩, hdrest⟩

lemma takes_run : (rep n none isLazy (one s)).Takes fun taken => n ≤ taken.length ∧ ∀ x ∈ taken, s.has x := by
  intro c xs
  constructor
  · rintro ⟨d, ⟨e, hrounds, hmore⟩, rfl⟩
    obtain ⟨bs, hbs, hlength, hall⟩ := exists_of_rounds hrounds
    obtain ⟨ds, hds, hmall⟩ := exists_of_repeats hmore
    refine ⟨bs ++ ds, by rw [hbs, hds, append_assoc], ?_, forall_mem_append.mpr ⟨hall, hmall⟩⟩
    rw [length_append, hlength]
    exact Nat.le_add_right n _
  · rintro ⟨bs, hrest, hn, hall⟩
    exact exists_rounds hrest hn hall

/-- What may be there or not, if it is something. -/
lemma Takes.maybe (ha : a.Takes L) (hsome : ¬ L []) :
    (rep 0 (some 1) isLazy a).Takes fun taken => taken = [] ∨ L taken := by
  intro c xs
  constructor
  · rintro ⟨d, ⟨_, ⟨⟩, hrepeats⟩, rfl⟩
    cases hrepeats with
    | done => exact ⟨[], rfl, .inl rfl⟩
    | next _ hfirst _ hmore =>
      cases hmore with
      | done =>
        obtain ⟨taken, hrest, htaken⟩ := (ha c d.rest).mp ⟨d, hfirst, rfl⟩
        exact ⟨taken, hrest, .inr htaken⟩
      | next hnone => exact absurd rfl hnone
  · rintro ⟨taken, hrest, rfl | htaken⟩
    · exact ⟨c, ⟨c, .done c, .done _ c⟩, hrest⟩
    · obtain ⟨d, hd, rfl⟩ := (ha c xs).mpr ⟨taken, hrest, htaken⟩
      refine ⟨d, ⟨c, .done c, .next (by simp) hd (fun hpos => hsome ?_) (.done _ d)⟩, rfl⟩
      -- what does not move on has taken nothing
      obtain ⟨cs, hcs, hlength⟩ := hd.passes
      have hnil : cs = [] := length_eq_zero_iff.mp (by omega)
      rw [hcs, hnil, nil_append, self_eq_append_left] at hrest
      rwa [hrest] at htaken

/-! ## Words -/

def letters : List Char → Regex → Regex
  | [], r => r
  | p :: w, r => .seq (char { anyCase := true } p) (letters w r)

def blanks (least : Nat) : Regex := .rep least none false (.one { negated := false, anyCase := false, items := [.blank] })

lemma takes_letter (hp : isAsciiLetter p) :
    (char { anyCase := true } p).Takes fun taken => ∃ x, foldCase x = foldCase p ∧ taken = [x] := by
  refine takes_one.congr fun taken => exists_congr fun x => and_congr_left fun _ => ?_
  rw [← mem_caseForms hp]
  simp [CharSet.has, ClassItem.has]

lemma fits_letters (hw : w.all isAsciiLetter) (hb : b.Fits E) :
    (letters w b).Fits fun cs => ∃ u xs, cs = u ++ xs ∧ u.map foldCase = w.map foldCase ∧ E xs := by
  induction w with
  | nil =>
    refine hb.congr fun cs => ⟨fun h => ⟨[], cs, rfl, rfl, h⟩, ?_⟩
    rintro ⟨u, xs, rfl, hu, hxs⟩
    rwa [map_eq_nil_iff.mp hu]
  | cons p w ih =>
    obtain ⟨hp, hw⟩ := Bool.and_eq_true_iff.mp hw
    refine ((takes_letter hp).fits (ih hw)).congr fun cs => ⟨?_, ?_⟩
    · rintro ⟨_, _, rfl, ⟨x, hx, rfl⟩, u, xs, rfl, hu, hxs⟩
      exact ⟨x :: u, xs, rfl, by rw [map_cons, map_cons, hx, hu], hxs⟩
    · rintro ⟨_, xs, rfl, hu, hxs⟩
      obtain ⟨x, u, rfl, hx, hu⟩ := map_eq_cons_iff.mp hu
      exact ⟨[x], u ++ xs, rfl, ⟨x, hx, rfl⟩, u, xs, rfl, hu, hxs⟩

lemma takes_blanks : (blanks n).Takes fun taken => n ≤ taken.length ∧ ∀ b ∈ taken, isBlank b :=
  takes_run.congr fun taken => by simp [CharSet.has, ClassItem.has]

end Regex

end CodeAudit

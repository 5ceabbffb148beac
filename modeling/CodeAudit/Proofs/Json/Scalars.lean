import CodeAudit.Json.Reader
import CodeAudit.Proofs.Decimal.Exact
import Mathlib.Tactic.IntervalCases

/-!
# Texts through JSON

A written text is read back, whatever follows its closing quote, but for one change, `mended`: the halves of a pair side
by side are two characters in a text and one after reading. The reader looks at most two escapes ahead, so the
induction is that of `mended`, two characters at a time; `Written` says what a single character can be written as.
-/

namespace CodeAudit.Json

open List Bool Text Char Nat Option

variable {n high low : Nat} {d c : Char} {after opening : Input} {acc : List Char}

/-! ## Escapes of four digits -/

lemma hexPadded_succ (hwidth : 0 < width) (n : Nat) :
    (hexPadded (width + 1) n).toList = (hexPadded width (n / 16)).toList ++ [(n % 16).digitChar] := by
  unfold hexPadded
  simp only [String.toList_ofList]
  by_cases hsmall : n < 16
  · have hdiv : n / 16 = 0 := by omega
    have hmod : n % 16 = n := by omega
    rw [hdiv, hmod, Nat.toDigits_of_lt_base hsmall, Nat.toDigits_zero]
    simp only [length_singleton, Nat.add_sub_cancel]
    rw [← replicate_succ', Nat.sub_add_cancel hwidth]
  · rw [Nat.toDigits_of_base_le (by omega) (by omega)]
    simp only [length_append, length_singleton, Nat.add_sub_add_right, append_assoc]

lemma toList_hexPadded_four (hn : n < 65536) : (hexPadded 4 n).toList =
    [(n / 16 / 16 / 16).digitChar, (n / 16 / 16 % 16).digitChar, (n / 16 % 16).digitChar, (n % 16).digitChar] := by
  have hfirst : n / 16 / 16 / 16 < 16 := by omega
  rw [hexPadded_succ (by omega), hexPadded_succ (by omega), hexPadded_succ (by omega)]
  have hone : (hexPadded 1 (n / 16 / 16 / 16)).toList = [(n / 16 / 16 / 16).digitChar] := by
    unfold hexPadded
    simp only [Nat.toDigits_of_lt_base hfirst, String.toList_ofList, length_singleton, Nat.sub_self,
      replicate_zero, nil_append]
  rw [hone]
  rfl

lemma hexDigit?_digitChar {d : Nat} (hd : d < 16) : hexDigit? d.digitChar = some d := by
  interval_cases d <;> decide

lemma hexUnit?_hexPadded (hn : n < 65536) (rest : Input) : hexUnit? ((hexPadded 4 n).toList ++ rest) = some n := by
  unfold hexUnit?
  rw [toList_hexPadded_four hn]
  have hvalue : ((n / 16 / 16 / 16 * 16 + n / 16 / 16 % 16) * 16 + n / 16 % 16) * 16 + n % 16 = n := by omega
  simp [List.take, hexDigit?_digitChar (show n / 16 / 16 / 16 < 16 by omega),
    hexDigit?_digitChar (mod_lt _ (by decide)), hvalue]

def unitChars (n : Nat) : List Char := '\\' :: 'u' :: (hexPadded 4 n).toList

lemma toList_unitEscape (n : Nat) : (unitEscape n).toList = unitChars n := by
  unfold unitEscape unitChars
  rw [String.toList_append]
  rfl

lemma length_hexPadded_four (hn : n < 65536) : (hexPadded 4 n).toList.length = 4 := by
  rw [toList_hexPadded_four hn]
  rfl

lemma drop_hexPadded (hn : n < 65536) (after : Input) (k : Nat) :
    ((hexPadded 4 n).toList ++ after).drop (4 + k) = after.drop k := by
  rw [← drop_drop, drop_left' (length_hexPadded_four hn)]

lemma lt_of_isSurrogate (h : isSurrogate n) : n < 65536 := by
  simp only [isSurrogate, and_eq_true, decide_eq_true_eq] at h
  omega

lemma isSurrogate_of_isHigh (h : isHighSurrogate n) : isSurrogate n := by
  simp only [isHighSurrogate, isSurrogate, and_eq_true, decide_eq_true_eq] at h ⊢
  omega

lemma isSurrogate_of_isLow (h : isLowSurrogate n) : isSurrogate n := by
  simp only [isLowSurrogate, isSurrogate, and_eq_true, decide_eq_true_eq] at h ⊢
  omega

lemma readUnit_pair (hhigh : isHighSurrogate high)
    (hlow : isLowSurrogate low) (hafter : after ≠ []) :
    readUnit ((hexPadded 4 high).toList ++ (unitChars low ++ after)) = .ok (ofNat (joinSurrogates high low), 10) := by
  have hhighSize := lt_of_isSurrogate (isSurrogate_of_isHigh hhigh)
  have hlowSize := lt_of_isSurrogate (isSurrogate_of_isLow hlow)
  have hdrop := drop_hexPadded hhighSize (unitChars low ++ after)
  have hdrop6 := (hdrop 2).trans (rfl : _ = (hexPadded 4 low).toList ++ after)
  have hdrop10 := (hdrop 6).trans (drop_hexPadded hlowSize after 0)
  unfold readUnit
  rw [hexUnit?_hexPadded hhighSize, hdrop 0, hdrop6, hdrop10, hexUnit?_hexPadded hlowSize]
  simp [hhigh, hlow, hafter, unitChars]

/-- What follows the escape of a high half is not the escape of a low one. -/
def NoLowNext (after : Input) : Prop :=
  after.take 2 = ['\\', 'u'] → ∃ u more, after = unitChars u ++ more ∧ u < 65536 ∧ isLowSurrogate u = false

lemma readUnit_lone (hhalf : isSurrogate half) (hafter : after ≠ []) (hnext : isHighSurrogate half → NoLowNext after) :
    readUnit ((hexPadded 4 half).toList ++ after) = .ok (loneSurrogate half, 4) := by
  have hsize := lt_of_isSurrogate hhalf
  unfold readUnit
  rw [hexUnit?_hexPadded hsize, drop_hexPadded hsize after 0, drop_hexPadded hsize after 2, drop_zero]
  simp only [List.isEmpty_iff, hafter, if_false, hhalf, if_true]
  split
  · next hpair =>
    simp only [and_eq_true, beq_iff_eq] at hpair
    obtain ⟨u, more, rfl, hu, hlow⟩ := hnext hpair.1.1 hpair.2
    have hdigits : (unitChars u ++ more).drop 2 = (hexPadded 4 u).toList ++ more := rfl
    rw [hdigits, hexUnit?_hexPadded hu]
    simp [hlow]
  · rfl

lemma readUnit_plain (hn : n < 65536) (hplain : isSurrogate n = false)
    (hafter : after ≠ []) : readUnit ((hexPadded 4 n).toList ++ after) = .ok (ofNat n, 4) := by
  have hhigh : isHighSurrogate n = false := by
    cases h : isHighSurrogate n with
    | false => rfl
    | true => rw [isSurrogate_of_isHigh h] at hplain; cases hplain
  unfold readUnit
  rw [hexUnit?_hexPadded hn, drop_hexPadded hn after 0]
  simp [hafter, hhigh, hplain]

/-! ## One character -/

/-- What a character can be written as. -/
inductive Written : Char → List Char → Prop
  | letter {c e : Char} (hread : escapeChar? e = some c) (hother : e ≠ 'u') (hwhole : surrogate? c = none) :
    Written c ['\\', e]
  | itself {c : Char} (hquote : c ≠ '"') (hslash : c ≠ '\\') (hsize : 0x20 ≤ c.toNat)
    (hascii : c.toNat < 127) (hwhole : surrogate? c = none) : Written c [c]
  | number {n : Nat} (hn : n < 65536) (hplain : isSurrogate n = false)
    (hwhole : surrogate? (Char.ofNat n) = none) : Written (Char.ofNat n) (unitChars n)
  | half {n : Nat} (hhalf : isSurrogate n) (hstands : surrogate? (loneSurrogate n) = some n) :
    Written (loneSurrogate n) (unitChars n)
  | pair {high low : Nat} (hhigh : isHighSurrogate high) (hlow : isLowSurrogate low)
    (hwhole : surrogate? (Char.ofNat (joinSurrogates high low)) = none) :
    Written (Char.ofNat (joinSurrogates high low)) (unitChars high ++ unitChars low)

lemma toNat_cases (c : Char) : c.toNat < 0xD800 ∨ (0xDFFF < c.toNat ∧ c.toNat < 0x110000) := c.valid

lemma toNat_charOfNat (hvalid : n.isValidChar) : (Char.ofNat n).toNat = n := by
  unfold Char.ofNat
  rw [dif_pos hvalid]
  rfl

lemma surrogate?_loneSurrogate (h : isSurrogate n) : surrogate? (loneSurrogate n) = some n := by
  simp only [isSurrogate, and_eq_true, decide_eq_true_eq] at h
  have hvalid : (firstStandIn + (n - 0xD800)).isValidChar := by
    unfold firstStandIn
    right
    omega
  unfold surrogate? loneSurrogate
  rw [toNat_charOfNat hvalid, if_pos (by omega), show 0xD800 + (firstStandIn + (n - 0xD800) -
    firstStandIn) = n by omega]

/-- A stand-in stands for a half, and is the stand-in of that half. -/
lemma surrogate?_eq_some (h : surrogate? c = some n) : isSurrogate n ∧ loneSurrogate n = c := by
  unfold surrogate? at h
  split at h
  · next hlarge =>
    cases some.inj h
    have hbound := toNat_cases c
    unfold firstStandIn at hlarge ⊢
    constructor
    · simp only [isSurrogate, and_eq_true, decide_eq_true_eq]
      omega
    · unfold loneSurrogate firstStandIn
      rw [show 0x10F800 + (0xD800 + (c.toNat - 0x10F800) - 0xD800) = c.toNat by omega, Char.ofNat_toNat]
  · cases h

lemma written_half (h : surrogate? c = some n) : Written c (unitEscape n).toList := by
  obtain ⟨hsurrogate, hstands⟩ := surrogate?_eq_some h
  rw [toList_unitEscape, ← hstands]
  exact .half hsurrogate (surrogate?_loneSurrogate hsurrogate)

lemma written_number (hsmall : c.toNat < 0x10000) (hwhole : surrogate? c = none) :
    Written c (unitEscape c.toNat).toList := by
  have hplain : isSurrogate c.toNat = false := by
    have hrange := toNat_cases c
    simp only [isSurrogate, and_eq_false_iff, decide_eq_false_iff_not]
    omega
  have hwritten := Written.number hsmall hplain (by rw [Char.ofNat_toNat]; exact hwhole)
  rw [Char.ofNat_toNat] at hwritten
  rw [toList_unitEscape]
  exact hwritten

lemma written_pair (hlarge : ¬ c.toNat < 0x10000) (hwhole : surrogate? c = none) :
    Written c (unitEscape (0xD800 + (c.toNat - 0x10000) / 0x400) ++
      unitEscape (0xDC00 + (c.toNat - 0x10000) % 0x400)).toList := by
  have hrange := toNat_cases c
  have hhigh : isHighSurrogate (0xD800 + (c.toNat - 0x10000) / 0x400) := by
    simp only [isHighSurrogate, and_eq_true, decide_eq_true_eq]
    omega
  have hlow : isLowSurrogate (0xDC00 + (c.toNat - 0x10000) % 0x400) := by
    simp only [isLowSurrogate, and_eq_true, decide_eq_true_eq]
    omega
  have hjoin : Char.ofNat (joinSurrogates (0xD800 + (c.toNat - 0x10000) / 0x400)
      (0xDC00 + (c.toNat - 0x10000) % 0x400)) = c := by
    unfold joinSurrogates
    rw [show 0x10000 + (0xD800 + (c.toNat - 0x10000) / 0x400 - 0xD800) * 0x400 +
      (0xDC00 + (c.toNat - 0x10000) % 0x400 - 0xDC00) = c.toNat by omega, Char.ofNat_toNat]
  have hwritten := Written.pair hhigh hlow (by rw [hjoin]; exact hwhole)
  rw [hjoin] at hwritten
  rw [String.toList_append, toList_unitEscape, toList_unitEscape]
  exact hwritten

/-- The characters with an escape of their own are tried one after the other. -/
lemma written_if {x e : Char} {escaped other : String} (hescaped : escaped.toList = ['\\', e])
    (hread : escapeChar? e = some x) (hother : e ≠ 'u') (hwhole : surrogate? x = none)
    (h : (c == x) = false → Written c other.toList) : Written c (if c == x then escaped else other).toList := by
  cases hc : c == x with
  | true =>
    cases eq_of_beq hc
    rw [if_pos rfl, hescaped]
    exact .letter hread hother hwhole
  | false =>
    rw [if_neg Bool.false_ne_true]
    exact h hc

lemma written_escapedChar (c : Char) : Written c (escapedChar c).toList := by
  unfold escapedChar
  dsimp only
  refine written_if rfl rfl (by decide) rfl fun hquote => ?_
  refine written_if rfl rfl (by decide) rfl fun hslash => ?_
  iterate 5 refine written_if rfl rfl (by decide) rfl fun _ => ?_
  by_cases hplain : (32 ≤ c.toNat && c.toNat < 127)
  · rw [if_pos hplain, String.toList_singleton]
    simp only [and_eq_true, decide_eq_true_eq] at hplain
    refine .itself (by simpa using hquote) (by simpa using hslash) hplain.1 hplain.2 ?_
    unfold surrogate? firstStandIn
    rw [if_neg (by omega)]
  rw [if_neg hplain]
  -- Outside ASCII the size of the number decides, stand-ins apart.
  cases hhalf : surrogate? c with
  | some half => exact written_half hhalf
  | none =>
    by_cases hsmall : c.toNat < 0x10000
    · simp only [hsmall, if_true]
      exact written_number hsmall hhalf
    · simp only [hsmall, if_false]
      exact written_pair hsmall hhalf

/-! ## Whole texts -/

/-- The character of two halves that belong together. -/
def pairChar? (c d : Char) : Option Char := do
  let high ← surrogate? c
  let low ← surrogate? d
  if isHighSurrogate high && isLowSurrogate low then some (Char.ofNat (joinSurrogates high low))
  else none

lemma pairChar?_eq_some {joined : Char} (h : pairChar? c d = some joined) :
    ∃ high low, surrogate? c = some high ∧ surrogate? d = some low ∧ isHighSurrogate high ∧
      isLowSurrogate low ∧ joined = Char.ofNat (joinSurrogates high low) := by
  obtain ⟨high, hhigh, low, hlow, hjoined⟩ : ∃ high, surrogate? c = some high ∧ ∃ low,
      surrogate? d = some low ∧ (if isHighSurrogate high && isLowSurrogate low then
        some (Char.ofNat (joinSurrogates high low)) else none) = some joined := by
    simpa [pairChar?, bind_eq_some_iff] using h
  split at hjoined
  · next hboth =>
    rw [and_eq_true] at hboth
    exact ⟨high, low, hhigh, hlow, hboth.1, hboth.2, (some.inj hjoined).symm⟩
  · cases hjoined

/-- A text in which halves that meet their partner have become one character. -/
def mended : List Char → List Char
  | c :: d :: cs =>
    match pairChar? c d with
    | some joined => joined :: mended cs
    | none => c :: mended (d :: cs)
  | cs => cs

def textChars (cs : List Char) : List Char := cs.flatMap fun c => (escapedChar c).toList

lemma textChars_cons (c : Char) (cs : List Char) : textChars (c :: cs) = (escapedChar c).toList ++ textChars cs :=
  flatMap_cons

lemma toList_foldl_escaped (cs : List Char) (start : String) :
    (cs.foldl (fun acc c => acc ++ escapedChar c) start).toList = start.toList ++ textChars cs := by
  induction cs generalizing start with
  | nil => simp [textChars]
  | cons c cs ih => rw [foldl_cons, ih, String.toList_append, textChars_cons, append_assoc]

lemma toList_writeText (s : String) : (writeText s).toList = '"' :: (textChars s.toList ++ ['"']) := by
  unfold writeText
  rw [String.toList_append, String.toList_append, toList_foldl_escaped]
  rfl

lemma readTextFrom_skip (opening : Input) (acc : List Char) (xs cs : List Char) :
    readTextFrom opening xs.length acc (xs ++ cs) = readTextFrom opening 0 acc cs := by
  induction xs with
  | nil => rfl
  | cons x xs ih => exact ih

lemma readTextFrom_unit {size : Nat} {digits after : List Char}
    (hunit : readUnit (digits ++ after) = .ok (c, size)) (hsize : digits.length = size) :
    readTextFrom opening 0 acc ('\\' :: 'u' :: (digits ++ after)) = readTextFrom opening 0 (c :: acc) after := by
  rw [readTextFrom, hunit]
  dsimp only
  rw [← hsize, readTextFrom_skip]

lemma readTextFrom_pair (hhigh : isHighSurrogate high) (hlow : isLowSurrogate low)
    (hafter : after ≠ []) : readTextFrom opening 0 acc (unitChars high ++ unitChars low ++ after) =
      readTextFrom opening 0 (ofNat (joinSurrogates high low) :: acc) after := by
  have hsize : ((hexPadded 4 high).toList ++ unitChars low).length = 10 := by
    rw [length_append, length_hexPadded_four (lt_of_isSurrogate (isSurrogate_of_isHigh hhigh))]
    simp [unitChars, length_hexPadded_four (lt_of_isSurrogate (isSurrogate_of_isLow hlow))]
  have hunit := readUnit_pair hhigh hlow hafter
  rw [← append_assoc] at hunit
  exact readTextFrom_unit hunit hsize

/-- One character is read back, unless it is a high half and its partner follows. -/
lemma readTextFrom_escapedChar (hafter : after ≠ [])
    (hnext : ∀ half, surrogate? c = some half → isHighSurrogate half → NoLowNext after) :
    readTextFrom opening 0 acc ((escapedChar c).toList ++ after) = readTextFrom opening 0 (c :: acc) after := by
  have hwritten := written_escapedChar c
  generalize (escapedChar c).toList = written at hwritten ⊢
  cases hwritten with
  | @letter _ e hread hother hwhole =>
    rw [cons_append, cons_append, nil_append, readTextFrom]
    · rw [hread]
    · intro hu
      exact hother hu
  | itself hquote hslash hsize hascii hwhole =>
    rw [singleton_append, readTextFrom]
    · rw [if_neg (by omega)]
    · exact fun h => hquote h
    · exact fun h _ => hslash h
    · exact fun _ h _ => hslash h
    · exact fun _ _ h _ => hslash h
  | number hn hplain hwhole =>
    exact readTextFrom_unit (readUnit_plain hn hplain hafter) (length_hexPadded_four hn)
  | half hhalf hstands =>
    exact readTextFrom_unit (readUnit_lone hhalf hafter (hnext _ hstands))
      (length_hexPadded_four (lt_of_isSurrogate hhalf))
  | pair hhigh hlow hwhole => exact readTextFrom_pair hhigh hlow hafter

lemma toList_escapedChar_of_surrogate? (h : surrogate? c = some n) : (escapedChar c).toList = unitChars n := by
  have hwritten := written_escapedChar c
  generalize (escapedChar c).toList = written at hwritten ⊢
  cases hwritten with
  | half hhalf hstands =>
    rw [hstands] at h
    cases h
    rfl
  | letter _ _ hwhole | itself _ _ _ _ hwhole | number _ _ hwhole | pair _ _ hwhole =>
    rw [hwhole] at h
    cases h

lemma noLowNext_textChars (hlow : ∀ low, surrogate? d = some low → isLowSurrogate low = false)
    (after : Input) : NoLowNext ((escapedChar d).toList ++ after) := by
  have hwritten := written_escapedChar d
  generalize (escapedChar d).toList = written at hwritten ⊢
  intro hstart
  cases hwritten with
  | letter hread hother hwhole => simp [hother] at hstart
  | itself hquote hslash hsize hascii hwhole => simp [hslash] at hstart
  | @number n hn hplain hwhole =>
    refine ⟨n, after, rfl, hn, ?_⟩
    cases h : isLowSurrogate n with
    | false => rfl
    | true => rw [isSurrogate_of_isLow h] at hplain; cases hplain
  | @half n hhalf hstands => exact ⟨n, after, rfl, lt_of_isSurrogate hhalf, hlow n hstands⟩
  | @pair high low hhigh hlow hwhole =>
    refine ⟨high, unitChars low ++ after, append_assoc .., lt_of_isSurrogate (isSurrogate_of_isHigh hhigh), ?_⟩
    simp only [isHighSurrogate, and_eq_true, decide_eq_true_eq] at hhigh
    simp only [isLowSurrogate, and_eq_false_iff, decide_eq_false_iff_not]
    omega

lemma noLowNext_close (rest : Input) : NoLowNext ('"' :: rest) := by
  intro hstart
  simp at hstart

/-- The characters of a text are read back up to its closing quote. -/
lemma readTextFrom_textChars (opening : Input) (acc cs : List Char) (rest : Input) :
    readTextFrom opening 0 acc (textChars cs ++ '"' :: rest) =
      .ok (String.ofList (acc.reverse ++ mended cs), rest) := by
  fun_induction mended cs generalizing acc with
  | case1 c d cs joined hpair ih =>
    -- Two halves: the escapes of both are taken together.
    obtain ⟨high, low, hhigh, hlow, hishigh, hislow, hjoined⟩ := pairChar?_eq_some hpair
    rw [textChars_cons, textChars_cons, toList_escapedChar_of_surrogate? hhigh,
      toList_escapedChar_of_surrogate? hlow, ← append_assoc, append_assoc,
      readTextFrom_pair hishigh hislow (by simp), ih, hjoined]
    simp
  | case2 c d cs hpair ih =>
    rw [textChars_cons, append_assoc, readTextFrom_escapedChar, ih]
    · simp
    · simp
    · intro half hhalf hhigh
      rw [textChars_cons, append_assoc]
      refine noLowNext_textChars (fun low hlow => ?_) _
      cases hislow : isLowSurrogate low with
      | false => rfl
      | true => simp [pairChar?, hhalf, hlow, hhigh, hislow] at hpair
  | case3 cs hshort =>
    match cs, hshort with
    | [], _ => simp [textChars, readTextFrom]
    | [c], _ =>
      have hchars : textChars [c] ++ '"' :: rest = (escapedChar c).toList ++ '"' :: rest := by simp [textChars]
      rw [hchars, readTextFrom_escapedChar (by simp) fun _ _ _ => noLowNext_close rest]
      simp [readTextFrom]
    | c :: d :: cs, hshort => exact absurd rfl (hshort c d cs)

/-- **A written text is read back**, its halves mended. -/
lemma readText_writeText (s : String) (rest : Input) :
    readText ((writeText s).toList ++ rest) = .ok (String.ofList (mended s.toList), rest) := by
  rw [toList_writeText, cons_append, append_assoc, singleton_append]
  unfold readText
  exact readTextFrom_textChars _ [] s.toList rest

/-!
## Numbers through JSON

A `Numeral` is a sign, whole digits without a zero in front, and perhaps a fraction and an exponent. The reader takes
exactly its characters, if what follows cannot belong to a number. Whole numbers and doubles are written as numerals;
for doubles that rests on the shortest decimal having as many digits as it says. A double comes back as it was.
-/

open Option Decimal

variable {n : Numeral}

variable {rest : Input} {p : Char → Bool} {ds es : List Char} {d : Digits} {x : Float}
  {c : Char}

/-! ## What follows a value -/

/-- What can follow a value in a document: the end, a comma, a closing bracket or a blank. -/
def Ends (rest : Input) : Prop :=
  ∀ c, rest.head? = some c → c = ',' ∨ c = ']' ∨ c = '}' ∨ isGap c

/-- What a reader gives that keeps something and leaves the rest. -/
def outcome {α : Type} (result : Except Fault α) (rest : Input) : Except Stop (α × Input) :=
  match result with
  | .ok a => .ok (a, rest)
  | .error fault => .error (.beyond fault)

/-- The start of a text is not of some kind of characters. -/
def NoHead (p : Char → Bool) (rest : Input) : Prop := ∀ c, rest.head? = some c → p c = false

lemma Ends.noHead (h : Ends rest) (hp : [',', ']', '}', ' ', '\t', '\n', '\r'].any p = false) : NoHead p rest := by
  intro c hc
  refine eq_false_of_ne_true (any_eq_false.mp hp c ?_)
  rcases h c hc with rfl | rfl | rfl | hgap
  · simp
  · simp
  · simp
  · simp only [isGap, or_eq_true, beq_iff_eq] at hgap
    simp only [mem_cons]
    tauto

lemma noHead_cons {cs : Input} (h : p c = false) : NoHead p (c :: cs) := by
  intro d hd
  cases some.inj hd
  exact h

lemma split_append_noHead (hds : ∀ d ∈ ds, p d) (hrest : NoHead p rest) :
    (ds ++ rest).takeWhile p = ds ∧ (ds ++ rest).dropWhile p = rest := by
  rw [takeWhile_append_of_pos hds, dropWhile_append_of_pos hds]
  cases rest with
  | nil => simp
  | cons c cs => simp [hrest c rfl]

/-! ## Numerals -/

def AreDigits (ds : List Char) : Prop := ∀ d ∈ ds, isAsciiDigit d

/-- A number as it stands in a document. -/
structure Numeral where
  negative : Bool
  whole : List Char
  /-- The digits after the point; there is no point where there are none. -/
  fraction : List Char
  /-- Whether the exponent is negative, and its digits. -/
  exponent : Option (Bool × List Char)

namespace Numeral

def fractionChars (n : Numeral) : List Char := if n.fraction.isEmpty then [] else '.' :: n.fraction

def exponentChars (n : Numeral) : List Char :=
  match n.exponent with
  | none => []
  | some (negative, ds) => 'e' :: (if negative then '-' else '+') :: ds

def body (n : Numeral) : List Char := n.whole ++ (n.fractionChars ++ n.exponentChars)

def chars (n : Numeral) : List Char := (if n.negative then ['-'] else []) ++ n.body

/-- The digits stand as the grammar wants them. -/
structure IsProper (n : Numeral) : Prop where
  whole : n.whole = ['0'] ∨ (AreDigits n.whole ∧ ∃ d ds, n.whole = d :: ds ∧ d ≠ '0')
  fraction : AreDigits n.fraction
  exponent : ∀ negative ds, n.exponent = some (negative, ds) → AreDigits ds ∧ ds ≠ []

def power (n : Numeral) : Option Int :=
  n.exponent.map fun (negative, ds) => if negative then -(digitsValue ds : Int) else digitsValue ds

def value (n : Numeral) : Except Fault Value :=
  if n.fraction.isEmpty && n.exponent.isNone then
    if !(n.whole.drop mostDigits).isEmpty then .error .meaningless
    else .ok (.int (if n.negative then -(digitsValue n.whole : Int) else digitsValue n.whole))
  else
    let x := Decimal.ofScientific (digitsValue (n.whole ++ n.fraction))
      (n.power.getD 0 - (n.fraction.length : Int))
    .ok (.float (if n.negative then -x else x))

/-- The double as which a numeral is read, but for its sign. -/
def size (n : Numeral) : Float :=
  Decimal.ofScientific (digitsValue (n.whole ++ n.fraction)) (n.power.getD 0 - (n.fraction.length : Int))

/-! ### Reading the parts -/

variable {after rest : Input}

lemma readWhole_whole (h : n.IsProper) (hafter : NoHead isAsciiDigit after) :
    readWhole (n.whole ++ after) = some (n.whole, after) := by
  rcases h.whole with hzero | ⟨hdigits, d, ds, hwhole, hfirst⟩
  · rw [hzero]
    rfl
  · obtain ⟨htake, hdrop⟩ := split_append_noHead hdigits hafter
    have hd : isAsciiDigit d := hdigits d (by simp [hwhole])
    rw [hwhole, cons_append] at htake hdrop ⊢
    unfold readWhole
    split
    · next heq =>
      cases heq
      exact absurd rfl hfirst
    · next heq =>
      cases heq
      rw [if_pos hd, htake, hdrop]
    · next heq => cases heq

lemma readFraction_fraction (h : n.IsProper)
    (hdigit : NoHead isAsciiDigit after) (hpoint : NoHead (· == '.') after) :
    readFraction (n.fractionChars ++ after) = (n.fraction, after) := by
  unfold fractionChars
  cases hfraction : n.fraction with
  | nil =>
    unfold readFraction
    split
    · next rest heq =>
      have hhead := hpoint '.' (by rw [show after = '.' :: rest from heq]; rfl)
      simp at hhead
    · rfl
  | cons d ds =>
    have hdigits : AreDigits (d :: ds) := hfraction ▸ h.fraction
    obtain ⟨htake, hdrop⟩ := split_append_noHead hdigits hdigit
    simp only [isEmpty_cons, false_eq_true, if_false, cons_append, readFraction]
    rw [cons_append] at htake hdrop
    rw [htake, hdrop]

lemma readExponent_exponent (h : n.IsProper)
    (hdigit : NoHead isAsciiDigit rest) (hmark : NoHead (fun c => c == 'e' || c == 'E') rest) :
    readExponent (n.exponentChars ++ rest) = (n.power, rest) := by
  unfold exponentChars power
  cases hexponent : n.exponent with
  | none =>
    cases rest with
    | nil => rfl
    | cons c cs => simp [readExponent, hmark c rfl]
  | some exponent =>
    obtain ⟨negative, ds⟩ := exponent
    obtain ⟨hdigits, hne⟩ := h.exponent negative ds hexponent
    obtain ⟨htake, hdrop⟩ := split_append_noHead hdigits hdigit
    cases negative <;> simp [readExponent, Decimal.sign, htake, hdrop]

/-- A numeral is read as its number, and what follows is left. -/
lemma readUnsigned_body (h : n.IsProper) (hrest : Ends rest) (start : Input) :
    readUnsigned n.negative start (n.body ++ rest) = outcome n.value rest := by
  have hdigit : NoHead isAsciiDigit rest := hrest.noHead (by decide)
  have hmark : NoHead (fun c => c == 'e' || c == 'E') rest := hrest.noHead (by decide)
  have hexponent : ∀ {p}, NoHead p rest → p 'e' = false → NoHead p (n.exponentChars ++ rest) := by
    intro p hp he
    unfold exponentChars
    split
    · exact hp
    · exact noHead_cons he
  have hdigit' : NoHead isAsciiDigit (n.exponentChars ++ rest) := hexponent hdigit (by decide)
  have hafter : NoHead isAsciiDigit (n.fractionChars ++ (n.exponentChars ++ rest)) := by
    unfold fractionChars
    split
    · exact hdigit'
    · exact noHead_cons (by decide)
  unfold readUnsigned body value
  rw [append_assoc, append_assoc, readWhole_whole h hafter]
  simp only [readFraction_fraction h hdigit' (hexponent (hrest.noHead (by decide)) (by decide)),
    readExponent_exponent h hdigit hmark]
  have hpower : n.power.isNone = n.exponent.isNone := by simp [power]
  rw [hpower]
  split
  · split <;> rfl
  · rfl

lemma body_eq_cons (h : n.IsProper) : ∃ d cs, n.body = d :: cs ∧ isAsciiDigit d := by
  unfold body
  rcases h.whole with hzero | ⟨hdigits, d, ds, hwhole, -⟩
  · exact ⟨'0', n.fractionChars ++ n.exponentChars, by rw [hzero]; rfl, by decide⟩
  · exact ⟨d, ds ++ (n.fractionChars ++ n.exponentChars), by rw [hwhole]; rfl, hdigits d (by simp [hwhole])⟩

lemma find_wordValues_eq_none {d : Char} (hd : isAsciiDigit d) (cs : Input) :
    wordValues.find? (·.1.isPrefixOf (d :: cs)) = none ∧ wordValues.find? (·.1.isPrefixOf ('-' :: d :: cs)) = none := by
  have hne : ∀ c, isAsciiDigit c = false → (c == d) = false := by
    intro c hc
    rw [beq_eq_false_iff_ne]
    rintro rfl
    rw [hd] at hc
    cases hc
  simp [wordValues, find?, isPrefixOf, hne 'n' (by decide), hne 't' (by decide), hne 'f' (by decide),
    hne 'N' (by decide), hne 'I' (by decide), hne '-' (by decide)]

/-- **A numeral in a document is read as its number.** -/
lemma readScalar_chars (h : n.IsProper) (hrest : Ends rest) : readScalar (n.chars ++ rest) = outcome n.value rest := by
  obtain ⟨d, cs, hbody, hd⟩ := body_eq_cons h
  obtain ⟨hword, hsignedWord⟩ := find_wordValues_eq_none hd (cs ++ rest)
  have hread := readUnsigned_body h hrest
  unfold readScalar chars
  rw [hbody] at hread ⊢
  cases hnegative : n.negative <;> rw [hnegative] at hread
  case true =>
    simp only [if_true, nil_append, cons_append, hsignedWord]
    exact hread _
  case false =>
    simp only [false_eq_true, if_false, nil_append, cons_append, hword]
    split
    · next heq =>
      cases heq
      cases hd
    · exact hread _

end Numeral

/-! ## Whole numbers -/

lemma isAsciiDigit_of_isDigit (h : c.isDigit) : isAsciiDigit c := by
  simp only [Char.isDigit, Bool.and_eq_true, decide_eq_true_eq] at h
  exact decide_eq_true h

lemma areDigits_toDigits (n : Nat) : AreDigits (toDigits 10 n) := fun _ hd =>
  isAsciiDigit_of_isDigit (isDigit_of_mem_toDigits (by decide) (by decide) hd)

lemma toDigits_eq_cons {n : Nat} (hn : 0 < n) : ∃ d ds, toDigits 10 n = d :: ds ∧ d ≠ '0' := by
  induction n using Nat.strongRecOn with
  | ind n ih =>
    by_cases hsmall : n < 10
    · refine ⟨n.digitChar, [], toDigits_of_lt_base hsmall, ?_⟩
      interval_cases n <;> decide
    · obtain ⟨d, ds, hdigits, hfirst⟩ := ih (n / 10) (by omega) (by omega)
      refine ⟨d, ds ++ [(n % 10).digitChar], ?_, hfirst⟩
      rw [toDigits_of_base_le (by decide) (by omega), hdigits, cons_append]

lemma digitsValue_toDigits (n : Nat) : digitsValue (toDigits 10 n) = n := by
  have hvalue := @Nat.ofDigitChars_ten_toDigits n
  rw [Nat.ofDigitChars_eq_foldl] at hvalue
  unfold digitsValue
  simp only [mul_comm _ 10]
  exact hvalue

lemma signed_natAbs (n : Int) : (if decide (n < 0) then -(n.natAbs : Int) else n.natAbs) = n := by
  simp only [decide_eq_true_eq]
  split <;> omega

def Numeral.ofInt (n : Int) : Numeral :=
  { negative := decide (n < 0), whole := toDigits 10 n.natAbs, fraction := [], exponent := none }

lemma Numeral.isProper_ofInt (n : Int) : (Numeral.ofInt n).IsProper := by
  refine ⟨?_, ?_, ?_⟩
  · by_cases hn : n.natAbs = 0
    · left
      simp [Numeral.ofInt, hn]
    · right
      exact ⟨areDigits_toDigits _, toDigits_eq_cons (pos_of_ne_zero hn)⟩
  · intro d hd
    cases hd
  · intro negative ds h
    cases h

lemma Numeral.chars_ofInt (n : Int) : (Numeral.ofInt n).chars = (toString n).toList := by
  have hbody : (Numeral.ofInt n).body = toDigits 10 n.natAbs := by
    simp [body, Numeral.ofInt, fractionChars, exponentChars]
  unfold chars
  rw [hbody, Int.toString_eq_repr, Int.repr_eq_if]
  by_cases hn : 0 ≤ n
  · have habs : n.natAbs = n.toNat := by omega
    have hsign : (Numeral.ofInt n).negative = false := decide_eq_false (by omega)
    rw [if_pos hn, hsign, habs, toList_repr]
    rfl
  · have habs : n.natAbs = (-n).toNat := by omega
    have hsign : (Numeral.ofInt n).negative := decide_eq_true (by omega)
    rw [if_neg hn, hsign, habs, String.toList_append, toList_repr]
    rfl

/-- A whole number comes back, unless it has more digits than the reader takes. -/
lemma Numeral.value_ofInt (n : Int) : (Numeral.ofInt n).value =
    if n.natAbs < 10 ^ mostDigits then .ok (.int n) else .error .meaningless := by
  have hlength : (!((toDigits 10 n.natAbs).drop mostDigits).isEmpty) ↔ ¬ n.natAbs < 10 ^ mostDigits := by
    rw [← length_toDigits_le_iff (by decide) (by decide), ← drop_eq_nil_iff]
    simp
  unfold Numeral.value Numeral.ofInt
  simp only [isEmpty_nil, isNone_none, Bool.and_self, if_true, digitsValue_toDigits, hlength]
  by_cases hbound : n.natAbs < 10 ^ mostDigits
  · rw [if_neg (not_not.mpr hbound), if_pos hbound, signed_natAbs]
  · rw [if_pos hbound, if_neg hbound]

/-! ## Doubles -/

lemma AreDigits.append (hds : AreDigits ds) (hes : AreDigits es) : AreDigits (ds ++ es) :=
  forall_mem_append.mpr ⟨hds, hes⟩

lemma digitsValue_append (ds es : List Char) :
    digitsValue (ds ++ es) = digitsValue ds * 10 ^ es.length + digitsValue es := by
  induction es using reverseRecOn with
  | nil => simp [digitsValue]
  | append_singleton es e ih =>
    unfold digitsValue at ih ⊢
    rw [← append_assoc, foldl_append, ih, foldl_append, length_append]
    simp only [foldl_cons, foldl_nil, length_singleton, pow_succ]
    ring

lemma digitsValue_zeros (k : Nat) : digitsValue (replicate k '0') = 0 := by
  induction k with
  | zero => rfl
  | succ k ih =>
    rw [replicate_succ', digitsValue_append, ih]
    rfl

/-- Zeros in front do not change a number. -/
lemma digitsValue_zeroPadded (width n : Nat) : digitsValue (zeroPadded width (n : Int)).toList = n := by
  unfold zeroPadded
  dsimp only
  rw [if_neg (by omega), String.empty_append, String.toList_append, String.toList_ofList, Int.natAbs_natCast,
    toString_eq_repr, toList_repr, digitsValue_append, digitsValue_zeros, digitsValue_toDigits, zero_mul, zero_add]

lemma areDigits_zeros (k : Nat) : AreDigits (replicate k '0') := by
  intro d hd
  rw [eq_of_mem_replicate hd]
  decide

lemma AreDigits.sublist (h : AreDigits ds) (hsub : es.Sublist ds) : AreDigits es :=
  fun d hd => h d (hsub.subset hd)

/-- The text of proper digits has as many characters as it says, the first of them not zero. -/
lemma toDigits_of_isProper (h : d.IsProper) :
    (toDigits 10 d.digits).length = d.count ∧ ∃ c cs, toDigits 10 d.digits = c :: cs ∧ c ≠ '0' := by
  obtain ⟨hcount, hlow, hhigh⟩ := h
  have hpos : 0 < d.digits := Nat.lt_of_lt_of_le (Nat.pow_pos (by decide)) hlow
  refine ⟨le_antisymm ?_ ?_, toDigits_eq_cons hpos⟩
  · exact (length_toDigits_le_iff (by decide) hcount).mpr hhigh
  · by_contra hshort
    have hlength := @Nat.length_toDigits_pos 10 d.digits
    have hless : d.digits < 10 ^ (d.count - 1) :=
      (length_toDigits_le_iff (by decide) (by omega)).mp (by omega)
    omega

/-- A text is a numeral of a double. -/
def IsBodyOf (text : String) (x : Float) (negative : Bool) : Prop :=
  ∃ n : Numeral, n.IsProper ∧ (n.fraction ≠ [] ∨ n.exponent.isSome) ∧ n.negative = negative ∧
    n.body = text.toList ∧ n.size = x

/-- Proper digits in positional notation are a numeral with a fraction. -/
lemma isBodyOf_positional {style : Style} (h : d.IsProper) (hstyle : style.isPositional d) (negative : Bool) :
    IsBodyOf (positional d) (d.read style) negative := by
  obtain ⟨hlength, c, cs, hdigits, hfirst⟩ := toDigits_of_isProper h
  have hall := areDigits_toDigits d.digits
  have hcount := h.count_pos
  unfold positional Digits.read
  dsimp only
  rw [toString_eq_repr, hstyle, Bool.true_and]
  split
  · -- All digits stand after the point.
    refine ⟨⟨negative, ['0'], replicate (-d.point).toNat '0' ++ toDigits 10 d.digits, none⟩,
      ⟨.inl rfl, (areDigits_zeros _).append hall, nofun⟩, .inl (by simp), rfl, ?_, ?_⟩
    · simp [Numeral.body, Numeral.fractionChars, Numeral.exponentChars]
    · have hplaces : (0 : Int) - ((replicate (-d.point).toNat '0' ++ toDigits 10 d.digits).length : Int) =
          d.point - d.count := by
        rw [length_append, length_replicate, hlength]
        omega
      have hzeros : digitsValue ['0'] = 0 := rfl
      rw [if_neg (by rw [decide_eq_true_eq]; omega)]
      unfold Numeral.size Numeral.power
      dsimp only
      rw [digitsValue_append, digitsValue_append, digitsValue_zeros, digitsValue_toDigits, hzeros, map_none,
        getD_none, hplaces, zero_mul, zero_mul, zero_add, zero_add]
  · next hpoint =>
    split
    · next hwhole =>
      -- All stand before it.
      refine ⟨⟨negative, toDigits 10 d.digits ++ replicate (d.point.toNat - d.count) '0', ['0'], none⟩,
        ⟨.inr ⟨hall.append (areDigits_zeros _), c, cs ++ replicate (d.point.toNat - d.count) '0', ?_, hfirst⟩,
          areDigits_zeros 1, nofun⟩, .inl (by simp), rfl, ?_, ?_⟩
      · rw [hdigits, cons_append]
      · simp [Numeral.body, Numeral.fractionChars, Numeral.exponentChars]
      · have hzero : digitsValue ['0'] = 0 := rfl
        rw [if_pos (by rw [decide_eq_true_eq]; omega)]
        unfold Numeral.size Numeral.power
        dsimp only
        rw [digitsValue_append, digitsValue_append, digitsValue_zeros, digitsValue_toDigits, length_replicate, hzero,
          pow_succ, ← mul_assoc]
        rfl
    · next hwhole =>
      -- The point stands among them, with digits on both sides.
      have hrest : (toDigits 10 d.digits).drop d.point.toNat ≠ [] := by
        rw [Ne, drop_eq_nil_iff]
        omega
      obtain ⟨k, hk⟩ : ∃ k, d.point.toNat = k + 1 := ⟨d.point.toNat - 1, by omega⟩
      refine ⟨⟨negative, (toDigits 10 d.digits).take d.point.toNat, (toDigits 10 d.digits).drop d.point.toNat, none⟩,
        ⟨.inr ⟨hall.sublist (take_sublist _ _), c, cs.take k, ?_, hfirst⟩, hall.sublist (drop_sublist _ _),
          nofun⟩, .inl hrest, rfl, ?_, ?_⟩
      · rw [hdigits, hk, take_succ_cons]
      · simp [Numeral.body, Numeral.fractionChars, Numeral.exponentChars, hrest]
      · have hplaces : (0 : Int) - (((toDigits 10 d.digits).drop d.point.toNat).length : Int) = d.point - d.count := by
          rw [length_drop, hlength]
          omega
        rw [if_neg (by rw [decide_eq_true_eq]; omega)]
        unfold Numeral.size Numeral.power
        dsimp only
        rw [take_append_drop, digitsValue_toDigits, map_none, getD_none, hplaces]

/-- Proper digits with an exponent are a numeral with one. -/
lemma isBodyOf_scientific {style : Style} (h : d.IsProper) (hstyle : style.isPositional d = false) (negative : Bool) :
    IsBodyOf (scientific d) (d.read style) negative := by
  obtain ⟨hlength, c, cs, hdigits, hfirst⟩ := toDigits_of_isProper h
  have hall := areDigits_toDigits d.digits
  have hvalue := digitsValue_toDigits d.digits
  rw [hdigits] at hall hvalue hlength
  obtain ⟨es, hes, hne, hexponent, hpadded⟩ : ∃ es, AreDigits es ∧ es ≠ [] ∧ digitsValue es = (d.point - 1).natAbs ∧
      (if (toString (d.point - 1).natAbs).length < 2 then "0" ++ toString (d.point - 1).natAbs
        else toString (d.point - 1).natAbs).toList = es := by
    split
    · refine ⟨'0' :: toDigits 10 (d.point - 1).natAbs, (areDigits_zeros 1).append (areDigits_toDigits _), by simp, ?_, ?_⟩
      · rw [← singleton_append, digitsValue_append, digitsValue_toDigits, show digitsValue ['0'] = 0 from rfl, zero_mul,
          zero_add]
      · simp
    · exact ⟨toDigits 10 (d.point - 1).natAbs, areDigits_toDigits _, by simp, digitsValue_toDigits _, by simp⟩
  refine ⟨⟨negative, [c], cs, some (decide (d.point - 1 < 0), es)⟩,
    ⟨.inr ⟨hall.sublist (by simp), c, [], rfl, hfirst⟩, hall.sublist (by simp), ?_⟩, .inr rfl, rfl, ?_, ?_⟩
  · rintro _ _ ⟨⟩
    exact ⟨hes, hne⟩
  · unfold scientific
    dsimp only
    simp only [String.toList_append, hpadded]
    rw [toString_eq_repr, toList_repr, hdigits]
    cases cs <;> by_cases hsign : d.point - 1 < 0 <;>
      simp [Numeral.body, Numeral.fractionChars, Numeral.exponentChars, hsign]
  · have hpower : (if decide (d.point - 1 < 0) then -(digitsValue es : Int) else digitsValue es) = d.point - 1 := by
      rw [hexponent, signed_natAbs]
    have hplaces : d.point - 1 - (cs.length : Int) = d.point - d.count := by
      rw [length_cons] at hlength
      omega
    unfold Numeral.size Numeral.power Digits.read
    dsimp only
    rw [map_some, getD_some, hpower, hplaces, singleton_append, hvalue, hstyle, Bool.false_and,
      if_neg Bool.false_ne_true]

lemma Numeral.value_eq (hreal : n.fraction ≠ [] ∨ n.exponent.isSome) :
    n.value = .ok (.float (if n.negative then -n.size else n.size)) := by
  unfold Numeral.value
  rw [if_neg]
  · rfl
  · rcases hreal with hfraction | hexponent
    · simp [hfraction]
    · simp [isSome_iff_ne_none.mp hexponent]

lemma Numeral.value_zero {negative : Bool} {q : Int} (hx : Parts.ofFloat x = .finite negative 0 q) :
    (⟨negative, ['0'], ['0'], none⟩ : Numeral).value = .ok (.float x) := by
  obtain ⟨hcanonical, -⟩ := ofFloat_eq_finite hx
  have hq : q = -1074 := hcanonical.full.resolve_left (by decide)
  subst hq
  have hzero : (if negative then -0.0 else 0.0) = x := ofFloat_inj (by rw [hx]; cases negative <;> decide +kernel)
  rw [← hzero]
  cases negative <;> rfl

/-- A double is written as a word of its own or as a numeral, and either way stands for the double. -/
inductive WrittenFloat (x : Float) : List Char → Prop
  | word {cs : List Char} (h : (cs, Value.float x) ∈ wordValues) : WrittenFloat x cs
  | numeral {n : Numeral} (h : n.IsProper) (hvalue : n.value = .ok (.float x)) : WrittenFloat x n.chars

lemma WrittenFloat.of_body (h : n.IsProper) (hvalue : n.value = .ok (.float x))
    {text : String} (hbody : n.body = text.toList) :
    WrittenFloat x ((if n.negative then "-" else "") ++ text).toList := by
  have hchars : n.chars = ((if n.negative then "-" else "") ++ text).toList := by
    unfold Numeral.chars
    rw [hbody, String.toList_append]
    split <;> rfl
  rw [← hchars]
  exact .numeral h hvalue

lemma WrittenFloat.of_isBodyOf {text : String} {negative : Bool} {y : Float} (h : IsBodyOf text y negative)
    (hx : (if negative then -y else y) = x) : WrittenFloat x ((if negative then "-" else "") ++ text).toList := by
  obtain ⟨n, hn, hreal, rfl, hbody, rfl⟩ := h
  exact .of_body hn ((Numeral.value_eq hreal).trans (by rw [hx])) hbody

lemma writtenFloat_write (x : Float) : WrittenFloat x (Decimal.write numberStyle x).toList := by
  unfold Decimal.write
  cases hparts : Parts.ofFloat x with
  | notANumber =>
    have hx : (0.0 / 0.0 : Float) = x := Decimal.ofFloat_inj (by rw [hparts]; decide +kernel)
    exact .word (hx ▸ by simp [wordValues, numberStyle])
  | infinite negative =>
    have hx : (if negative then -1.0 / 0.0 else 1.0 / 0.0) = x :=
      Decimal.ofFloat_inj (by rw [hparts]; cases negative <;> decide +kernel)
    exact .word (hx ▸ by cases negative <;> simp [wordValues, numberStyle])
  | finite negative m q =>
    dsimp only
    split
    · next hm =>
      rw [beq_iff_eq] at hm
      subst hm
      have hzero : (⟨negative, ['0'], ['0'], none⟩ : Numeral).IsProper :=
        ⟨.inl rfl, areDigits_zeros 1, nofun⟩
      exact WrittenFloat.of_body hzero (Numeral.value_zero hparts) rfl
    · next hm =>
      rw [beq_iff_eq] at hm
      have hsize := isPositive_pack (ofFloat_eq_finite hparts).1 (pos_of_ne_zero hm)
      obtain ⟨hproper, hreads⟩ := shortest_reads numberStyle hsize
      refine WrittenFloat.of_isBodyOf ?_ (signed_eq hreads hparts)
      split
      · next hstyle => exact isBodyOf_positional hproper hstyle negative
      · next hstyle => exact isBodyOf_scientific hproper (eq_false_of_not_eq_true hstyle) negative

lemma float_mem_wordValues {cs : List Char} (h : (cs, Value.float x) ∈ wordValues) :
    cs = "NaN".toList ∧ x = 0.0 / 0.0 ∨ cs = "Infinity".toList ∧ x = 1.0 / 0.0 ∨
      cs = "-Infinity".toList ∧ x = -1.0 / 0.0 := by
  simpa [wordValues] using h

/-- What was written as a double is read as that double, and what follows is left. -/
lemma WrittenFloat.readScalar (h : WrittenFloat x cs) (hrest : Ends rest) :
    readScalar (cs ++ rest) = .ok (.float x, rest) := by
  cases h with
  | word h =>
    rcases float_mem_wordValues h with ⟨rfl, rfl⟩ | ⟨rfl, rfl⟩ | ⟨rfl, rfl⟩ <;> rfl
  | numeral h hvalue =>
    rw [Numeral.readScalar_chars h hrest, hvalue]
    rfl

/-- The double that is read where another was written. -/
def reread (x : Float) : Value :=
  match readScalar (Decimal.write numberStyle x).toList with
  | .ok (v, _) => v
  | .error _ => .null

/-- **A double that is written and read is the same double**, the infinities and what is not a number included. -/
lemma reread_eq (x : Float) : reread x = .float x := by
  have hread : readScalar ((Decimal.write numberStyle x).toList ++ []) = .ok (.float x, []) :=
    (writtenFloat_write x).readScalar nofun
  rw [append_nil] at hread
  rw [reread, hread]

lemma readScalar_write (x : Float) (hrest : Ends rest) :
    readScalar ((Decimal.write numberStyle x).toList ++ rest) = .ok (reread x, rest) := by
  rw [reread_eq]
  exact (writtenFloat_write x).readScalar hrest

end CodeAudit.Json

import CodeAudit.Proofs.Json.Scalars
import CodeAudit.Proofs.Outcome

/-!
# What JSON keeps of a document

`kept` says by recursion on a document what reading makes of its text: groups become lists, records with other names
become records, what JSON has no form for becomes its text, texts are mended, and what is too deep or too large is
refused. Within the bounds what comes back is `carried`, which knows nothing of them (`gives_kept`).
-/

namespace CodeAudit.Json

open Value Record Nat

def mendedText (s : String) : String := String.ofList (mended s.toList)

def deeper {α : Type} (room : Nat) (inner : Nat → Except Fault α) : Except Fault α :=
  match room with
  | 0 => .error .tooDeep
  | inside + 1 => inner inside

mutual

/-- What is kept of a value, with room for so many levels. -/
def kept (room : Nat) : Value → Except Fault Value
  | .null => .ok .null
  | .bool b => .ok (.bool b)
  | .int n => if n.natAbs < 10 ^ Decimal.mostDigits then .ok (.int n) else .error .meaningless
  | .float x | .estimate x => .ok (reread x)
  | .str s => .ok (.str (mendedText s))
  | .list items | .tuple items => (deeper room (keptAll · items)).map .list
  | .obj fields => (deeper room (keptFields · fields)).map fun kept => .obj (Record.ofFields kept)
  | .map entries => (deeper room (keptEntries · entries)).map fun kept => .obj (Record.ofFields kept)
  | .again inRecord => .ok (.str (mendedText (again inRecord).text))
  | .set items => .ok (.str (mendedText (set items).text))
  | .foreign t q => .ok (.str (mendedText (foreign t q).text))

def keptAll (room : Nat) : List Value → Except Fault (List Value)
  | [] => .ok []
  | v :: vs => do
    let first ← kept room v
    return first :: (← keptAll room vs)

def keptFields (room : Nat) : List (String × Value) → Except Fault (List (String × Value))
  | [] => .ok []
  | (name, v) :: rest => do
    let first ← kept room v
    return (mendedText name, first) :: (← keptFields room rest)

/-- What is kept of the entries of a record whose names are not all texts. -/
def keptEntries (room : Nat) : List (Value × Value) → Except Fault (List (String × Value))
  | [] => .ok []
  | (k, v) :: rest => do
    let first ← kept room v
    return (mendedText (nameText k), first) :: (← keptEntries room rest)

end

lemma deeper_succ (inside : Nat) (inner : Nat → Except Fault α) : deeper (inside + 1) inner = inner inside := rfl

/-! ## Bounds -/

/-- A value is within the bounds of the reader. -/
def Fits (room : Nat) (v : Value) : Prop := depth v ≤ room ∧ numbersFit v

/-- What is within the bounds is written, and nothing else. -/
lemma writeWithin_eq_ok_iff : writeWithin l v = .ok s ↔ Fits deepest v ∧ write l v = s := by
  unfold writeWithin Fits
  by_cases hdepth : deepest < depth v
  · rw [if_pos hdepth]
    exact ⟨nofun, fun h => absurd h.1.1 (not_le.mpr hdepth)⟩
  · rw [if_neg hdepth]
    by_cases hnumbers : numbersFit v
    · rw [if_pos hnumbers, Except.ok.injEq]
      exact ⟨fun h => ⟨⟨not_lt.mp hdepth, hnumbers⟩, h⟩, fun h => h.2⟩
    · rw [if_neg hnumbers]
      exact ⟨nofun, fun h => absurd h.1.2 hnumbers⟩

mutual

/-- A value as it comes back, bounds apart. -/
def carried : Value → Value
  | .float x | .estimate x => reread x
  | .str s => .str (mendedText s)
  | .list items | .tuple items => .list (carriedAll items)
  | .obj fields => .obj (Record.ofFields (carriedFields fields))
  | .map entries => .obj (Record.ofFields (carriedEntries entries))
  | .again inRecord => .str (mendedText (again inRecord).text)
  | .set items => .str (mendedText (set items).text)
  | .foreign t q => .str (mendedText (foreign t q).text)
  | v => v

def carriedAll : List Value → List Value
  | [] => []
  | v :: vs => carried v :: carriedAll vs

def carriedFields : List (String × Value) → List (String × Value)
  | [] => []
  | (name, v) :: rest => (mendedText name, carried v) :: carriedFields rest

def carriedEntries : List (Value × Value) → List (String × Value)
  | [] => []
  | (k, v) :: rest => (mendedText (nameText k), carried v) :: carriedEntries rest

end

/-! ## Within the bounds -/

/-- The faults of documents that are out of bounds. -/
def IsBound (fault : Fault) : Prop := fault = .tooDeep ∨ fault = .meaningless

/-- How a document within bounds, or beyond them, comes back. -/
inductive Gives {α : Type} (fits : Prop) (a : α) : Except Fault α → Prop
  | within (h : fits) : Gives fits a (.ok a)
  | beyond {fault : Fault} (h : ¬ fits) (hfault : IsBound fault) : Gives fits a (.error fault)

section Gives

variable {α β : Type} {fits : Prop} {a : α}

lemma Gives.map (h : Gives fits a result) (f : α → β) : Gives fits (f a) (result.map f) := by
  cases h with
  | within h => exact .within h
  | beyond h hfault => exact .beyond h hfault

lemma Gives.deeper {inner} (h : ∀ inside, Gives (levels ≤ inside ∧ fits) a (inner inside)) (room : Nat) :
    Gives (levels + 1 ≤ room ∧ fits) a (deeper room inner) := by
  cases room with
  | zero => exact .beyond (fun h => not_succ_le_zero levels h.1) (.inl rfl)
  | succ inside =>
    rw [deeper_succ, add_le_add_iff_right]
    exact h inside

lemma Gives.cons {first : Except Fault α} {more : Except Fault (List β)} {as : List β} {room d₁ d₂ : Nat}
    {n₁ n₂ : Bool} (hfirst : Gives (d₁ ≤ room ∧ n₁) a first)
    (hmore : Gives (d₂ ≤ room ∧ n₂) as more) (f : α → β) :
    Gives (max d₁ d₂ ≤ room ∧ (n₁ && n₂)) (f a :: as) (do
      let first ← first
      return f first :: (← more)) := by
  rw [Nat.max_le, Bool.and_eq_true]
  cases hfirst with
  | beyond hnot hfault => exact .beyond (fun h => hnot ⟨h.1.1, h.2.1⟩) hfault
  | within h₁ =>
    cases hmore with
    | beyond hnot hfault => exact .beyond (fun h => hnot ⟨h.1.2, h.2.2⟩) hfault
    | within h₂ => exact .within ⟨⟨h₁.1, h₂.1⟩, h₁.2, h₂.2⟩

end Gives

lemma gives_int (room : Nat) (n : Int) : Gives (Fits room (.int n)) (.int n) (kept room (.int n)) := by
  simp only [kept, Fits, depth, numbersFit, zero_le, true_and, decide_eq_true_eq]
  by_cases hn : n.natAbs < 10 ^ Decimal.mostDigits
  · rw [if_pos hn]
    exact .within hn
  · rw [if_neg hn]
    exact .beyond hn (.inr rfl)

mutual

/-- **Within the bounds, and only there, a value comes back as it is carried.** -/
lemma gives_kept (room : Nat) : ∀ v, Gives (Fits room v) (carried v) (kept room v)
  | .null => by simpa only [kept, carried] using Gives.within ⟨zero_le room, rfl⟩
  | .bool b => by simpa only [kept, carried] using Gives.within ⟨zero_le room, rfl⟩
  | .int n => by simpa only [carried] using gives_int room n
  | .float _ | .estimate _ | .str _ | .again _ | .set _ | .foreign _ _ => by
    simpa only [kept, carried] using Gives.within ⟨zero_le room, rfl⟩
  | .list items => by
    simpa only [kept, carried, Fits, depth, numbersFit] using
      (Gives.deeper (fun inside => gives_keptAll inside items) room).map list
  | .tuple items => by
    simpa only [kept, carried, Fits, depth, numbersFit] using
      (Gives.deeper (fun inside => gives_keptAll inside items) room).map list
  | .obj fields => by
    simpa only [kept, carried, Fits, depth, numbersFit] using
      (Gives.deeper (fun inside => gives_keptFields inside fields) room).map fun kept => obj (ofFields kept)
  | .map entries => by
    simpa only [kept, carried, Fits, depth, numbersFit] using
      (Gives.deeper (fun inside => gives_keptEntries inside entries) room).map fun kept => obj (ofFields kept)

lemma gives_keptAll (room : Nat) : ∀ items,
    Gives (depthAll items ≤ room ∧ numbersFitAll items) (carriedAll items) (keptAll room items)
  | [] => by simpa only [keptAll, carriedAll] using Gives.within ⟨zero_le room, rfl⟩
  | v :: vs => by
    simpa only [keptAll, carriedAll, depthAll, numbersFitAll, id_eq] using
      (gives_kept room v).cons (gives_keptAll room vs) id

lemma gives_keptFields (room : Nat) : ∀ fields,
    Gives (depthFields fields ≤ room ∧ numbersFitFields fields) (carriedFields fields) (keptFields room fields)
  | [] => by simpa only [keptFields, carriedFields] using Gives.within ⟨zero_le room, rfl⟩
  | (name, v) :: rest => by
    simpa only [keptFields, carriedFields, depthFields, numbersFitFields] using
      (gives_kept room v).cons (gives_keptFields room rest) (mendedText name, ·)

lemma gives_keptEntries (room : Nat) : ∀ entries,
    Gives (depthEntries entries ≤ room ∧ numbersFitEntries entries) (carriedEntries entries)
      (keptEntries room entries)
  | [] => by simpa only [keptEntries, carriedEntries] using Gives.within ⟨zero_le room, rfl⟩
  | (k, v) :: rest => by
    simpa only [keptEntries, carriedEntries, depthEntries, numbersFitEntries] using
      (gives_kept room v).cons (gives_keptEntries room rest) (mendedText (nameText k), ·)

end

lemma kept_of_fits (h : Fits room v) : kept room v = .ok (carried v) := by
  have hgives := gives_kept room v
  generalize kept room v = result at hgives ⊢
  cases hgives with
  | within _ => rfl
  | beyond hnot _ => exact absurd h hnot

end CodeAudit.Json

/-!
## Documents through JSON

What is read of a written document is what is kept of it, for every layout in which a reader finds its commas and
colons. The induction is on the document; what follows the text of a value is left open, as far as it cannot belong to
the value.
-/

namespace CodeAudit.Json

open Proofs List Numeral Text

variable {gap between cs : List Char} {items : List Value} {fields : List (String × Value)} {v : Value}
  {c close : Char} {x : Float} {level fuel room : Nat} {s : String} {rest : Input} {l : Layout}

lemma outcome_map (f : α → β) (result : Except Fault α) (rest : Input) :
    (outcome result rest).map (fun kept => (f kept.1, kept.2)) = outcome (result.map f) rest := by
  cases result <;> rfl

/-! ## Layouts -/

/-- Commas and colons stand where the reader looks for them, with nothing but blanks after them. -/
structure Layout.IsSound (l : Layout) : Prop where
  comma : ∃ gap, l.comma.toList = ',' :: gap ∧ ∀ c ∈ gap, isGap c
  colon : ∃ gap, l.colon.toList = ':' :: gap ∧ ∀ c ∈ gap, isGap c

lemma Layout.isSound_pretty : Layout.pretty.IsSound := ⟨⟨[], rfl, nofun⟩, ⟨[' '], rfl, all_eq_true.mp rfl⟩⟩

lemma Layout.isGap_newline (l : Layout) (level : Nat) : ∀ c ∈ (l.newline level).toList, isGap c := by
  unfold Layout.newline
  cases l.indent with
  | none => simp
  | some width =>
    intro c hc
    simp only [String.toList_append, String.toList_ofList, mem_append] at hc
    rcases hc with hfeed | hblank
    · have hc : c = '\n' := by simpa using hfeed
      rw [hc]
      rfl
    · rw [eq_of_mem_replicate hblank]
      rfl

lemma skipGaps_append (hgap : ∀ c ∈ gap, isGap c) (hc : isGap c = false)
    (cs : Input) : skipGaps (gap ++ c :: cs) = c :: cs :=
  (split_append_noHead hgap (noHead_cons hc)).2

lemma skipGaps_cons (hc : isGap c = false) (cs : Input) : skipGaps (c :: cs) = c :: cs :=
  dropWhile_cons_of_neg (by simp [hc])

/-! ## How values start -/

def startsScalar (c : Char) : Bool := ['n', 't', 'f', 'N', 'I', '-'].contains c || isAsciiDigit c

def startsValue (c : Char) : Bool := ['"', '[', '\x7b'].contains c || startsScalar c

lemma ne_of_startsValue (h : startsValue c) : isGap c = false ∧ c ≠ ']' ∧ c ≠ '\x7d' := by
  refine ⟨?_, ?_, ?_⟩
  · cases hgap : isGap c with
    | false => rfl
    | true =>
      simp only [isGap, Bool.or_eq_true, beq_iff_eq] at hgap
      rcases hgap with ((rfl | rfl) | rfl) | rfl <;> revert h <;> decide
  · rintro rfl
    revert h
    decide
  · rintro rfl
    revert h
    decide

def IsScalarText (cs : List Char) : Prop := ∃ c rest, cs = c :: rest ∧ startsScalar c

lemma Numeral.isScalarText_chars {n : Numeral} (h : n.IsProper) : IsScalarText n.chars := by
  obtain ⟨d, cs, hbody, hd⟩ := body_eq_cons h
  unfold chars
  rw [hbody]
  split
  · exact ⟨'-', d :: cs, rfl, by decide⟩
  · exact ⟨d, cs, rfl, by simp [startsScalar, hd]⟩

lemma WrittenFloat.isScalarText (h : WrittenFloat x cs) : IsScalarText cs := by
  cases h with
  | numeral h _ => exact isScalarText_chars h
  | word h =>
    rcases float_mem_wordValues h with ⟨rfl, -⟩ | ⟨rfl, -⟩ | ⟨rfl, -⟩
    · exact ⟨'N', ['a', 'N'], rfl, by decide⟩
    · exact ⟨'I', "nfinity".toList, rfl, by decide⟩
    · exact ⟨'-', "Infinity".toList, rfl, by decide⟩

/-- Words and numbers are left to the reader of scalars. -/
lemma readValue_scalar (h : IsScalarText cs) (fuel room : Nat) (rest : Input) :
    readValue (fuel + 1) room (cs ++ rest) = readScalar (cs ++ rest) := by
  obtain ⟨c, tail, rfl, hc⟩ := h
  rw [cons_append, readValue]
  all_goals
    rintro _ ⟨⟩
    revert hc
    decide

def IsValueText (cs : List Char) : Prop := ∃ c tail, cs = c :: tail ∧ startsValue c

lemma IsScalarText.isValueText (h : IsScalarText cs) : IsValueText cs := by
  obtain ⟨c, tail, hcs, hc⟩ := h
  exact ⟨c, tail, hcs, by simp [startsValue, hc]⟩

lemma isValueText_writeText (s : String) : IsValueText (writeText s).toList :=
  ⟨'"', _, toList_writeText s, by decide⟩

lemma IsValueText.append (h : IsValueText cs) (ds : List Char) : IsValueText (cs ++ ds) := by
  obtain ⟨c, tail, rfl, hc⟩ := h
  exact ⟨c, tail ++ ds, rfl, hc⟩

lemma IsValueText.skipGaps (h : IsValueText cs) (hgap : ∀ c ∈ gap, isGap c) (rest : Input) :
    skipGaps (gap ++ (cs ++ rest)) = cs ++ rest := by
  obtain ⟨c, tail, rfl, hc⟩ := h
  exact skipGaps_append hgap (ne_of_startsValue hc).1 _

lemma ends_cons (hc : c = ',' ∨ c = ']' ∨ c = '\x7d') (cs : Input) : Ends (c :: cs) := by
  rintro d ⟨⟩
  tauto

lemma ends_append (hgap : ∀ c ∈ gap, isGap c) (hcs : Ends cs) : Ends (gap ++ cs) := by
  cases gap with
  | nil => exact hcs
  | cons g gs =>
    rintro d ⟨⟩
    exact .inr (.inr (.inr (hgap g mem_cons_self)))

/-! ## Reading parts back -/

def IsClose (c : Char) : Prop := c = ']' ∨ c = '\x7d'

lemma IsClose.isGap (h : IsClose c) : isGap c = false := by rcases h with rfl | rfl <;> rfl

lemma IsClose.ne_comma (h : IsClose c) : c ≠ ',' := by rcases h with rfl | rfl <;> decide

section Parts

variable {α β : Type} {one : Input → Except Stop (α × Input)} {limit : Nat} {xs : List β} {text : β → String}
  {result : β → Except Fault α} {first : Except Fault α} {sep : String}

/-- A part is read back from its text, if that is short enough, whatever follows that cannot belong to it. -/
def ReadsPart (one : Input → Except Stop (α × Input)) (limit : Nat) (text : String) (result : Except Fault α) : Prop :=
  IsValueText text.toList ∧
    ∀ rest, Ends rest → text.toList.length < limit → one (text.toList ++ rest) = outcome result rest

lemma readParts_last (hclose : IsClose close) (hgap : ∀ c ∈ gap, isGap c)
    (h : one cs = outcome first (gap ++ close :: rest)) :
    readParts close one (fuel + 1) cs = outcome (first.map ([·])) rest := by
  rw [readParts, h]
  cases first with
  | error fault => rfl
  | ok a =>
    simp only [outcome, ok_bind]
    rw [skipGaps_append hgap hclose.isGap]
    simp only [beq_self_eq_true, if_true]
    rfl

lemma readParts_more (hclose : IsClose close) (h : one cs = outcome first (',' :: later))
    (hmore : readParts close one fuel (skipGaps later) = outcome more rest) :
    readParts close one (fuel + 1) cs = outcome (do let a ← first return a :: (← more)) rest := by
  rw [readParts, h]
  cases first with
  | error fault => rfl
  | ok a =>
    simp only [outcome, ok_bind]
    rw [show skipGaps (',' :: later) = ',' :: later from rfl]
    dsimp only
    rw [if_neg (by simpa using hclose.ne_comma.symm), if_pos (beq_self_eq_true ','), hmore]
    cases more <;> rfl

lemma toList_join_cons_cons (hsep : sep.toList = ',' :: between) (t u : String) (us : List String) :
    (join sep (t :: u :: us)).toList = t.toList ++ ',' :: (between ++ (join sep (u :: us)).toList) := by
  unfold join
  simp only [String.intercalate_cons_cons, String.toList_append, append_assoc, hsep, cons_append]

lemma isValueText_join (h : IsValueText t.toList) (ts : List String) : IsValueText (join sep (t :: ts)).toList := by
  unfold join
  cases ts with
  | nil => rwa [String.intercalate_singleton]
  | cons u us =>
    simp only [String.intercalate_cons_cons, String.toList_append, append_assoc]
    exact h.append _

/-- Parts with commas between them are read back up to the closing bracket. -/
lemma readParts_join (hclose : IsClose close) (hsep : sep.toList = ',' :: between)
    (hbetween : ∀ c ∈ between, isGap c) (hgap : ∀ c ∈ gap, isGap c) (rest : Input) (hne : xs ≠ [])
    (hparts : ∀ x ∈ xs, ReadsPart one limit (text x) (result x))
    (hlimit : (join sep (xs.map text)).toList.length < limit)
    (hfuel : (join sep (xs.map text)).toList.length < fuel) :
    readParts close one fuel ((join sep (xs.map text)).toList ++ (gap ++ close :: rest)) =
      outcome (xs.mapM result) rest := by
  induction xs generalizing fuel with
  | nil => exact absurd rfl hne
  | cons x xs ih =>
    obtain ⟨fuel, rfl⟩ : ∃ k, fuel = k + 1 := ⟨fuel - 1, by omega⟩
    obtain ⟨hx, hmore⟩ := forall_mem_cons.mp hparts
    cases xs with
    | nil =>
      have htext : join sep ([x].map text) = text x := String.intercalate_singleton
      rw [htext] at hlimit ⊢
      rw [readParts_last hclose hgap (hx.2 _ (ends_append hgap (ends_cons (.inr hclose) rest)) hlimit), mapM_cons]
      cases result x <;> rfl
    | cons y ys =>
      have htext := toList_join_cons_cons hsep (text x) (text y) (ys.map text)
      have hstart : IsValueText (join sep ((y :: ys).map text)).toList :=
        isValueText_join (hmore y mem_cons_self).1 (ys.map text)
      have hlength := congrArg length htext
      simp only [length_append, length_cons] at hlength
      simp only [map_cons] at hlimit hfuel hstart ih ⊢
      -- what follows the comma is shorter
      have hrest : readParts close one fuel
          ((join sep (text y :: ys.map text)).toList ++ (gap ++ close :: rest)) = _ :=
        ih (by simp) hmore (by omega) (by omega)
      rw [← hstart.skipGaps hbetween] at hrest
      rw [htext, append_assoc, cons_append, append_assoc, mapM_cons]
      exact readParts_more hclose (hx.2 _ (ends_cons (.inl rfl) _) (by omega)) hrest

lemma Layout.IsSound.comma_newline (hl : l.IsSound) (level : Nat) :
    ∃ gap, (l.comma ++ l.newline level).toList = ',' :: gap ∧ ∀ c ∈ gap, isGap c := by
  obtain ⟨commaGap, hcomma, hgap⟩ := hl.comma
  refine ⟨commaGap ++ (l.newline level).toList, by rw [String.toList_append, hcomma, cons_append], ?_⟩
  exact forall_mem_append.mpr ⟨hgap, l.isGap_newline level⟩

/-- What stands between brackets is read back, if there is room for it. -/
lemma readInside_inside {one : Nat → Input → Except Stop (α × Input)} {result : Nat → β → Except Fault α}
    (hl : l.IsSound) (hclose : IsClose close)
    (hparts : ∀ inside, ∀ x ∈ xs, ReadsPart (one inside) fuel (text x) (result inside x))
    (hfuel : (l.inside level (xs.map text)).toList.length < fuel) (room : Nat) (rest : Input) :
    readInside close one fuel room ((l.inside level (xs.map text)).toList ++ close :: rest) =
      outcome (deeper room fun inside => xs.mapM (result inside)) rest := by
  unfold readInside
  cases room with
  | zero => rfl
  | succ inside =>
    cases xs with
    | nil =>
      rw [map_nil, Layout.inside, String.toList_empty, nil_append, skipGaps_cons hclose.isGap]
      simp only [head?_cons, beq_self_eq_true, if_true]
      rfl
    | cons x xs =>
      obtain ⟨between, hsep, hbetween⟩ := hl.comma_newline (level + 1)
      have hstart : IsValueText (join (l.comma ++ l.newline (level + 1)) ((x :: xs).map text)).toList :=
        isValueText_join (hparts inside x mem_cons_self).1 (xs.map text)
      have htext : (l.inside level ((x :: xs).map text)).toList = (l.newline (level + 1)).toList ++
          ((join (l.comma ++ l.newline (level + 1)) ((x :: xs).map text)).toList ++ (l.newline level).toList) := by
        simp [Layout.inside]
      rw [htext, length_append, length_append] at hfuel
      have hread := readParts_join hclose hsep hbetween (l.isGap_newline level) rest (cons_ne_nil x xs) (hparts inside)
        (Nat.lt_of_le_of_lt (Nat.le_add_right _ _) (Nat.lt_of_le_of_lt (Nat.le_add_left _ _) hfuel))
        (Nat.lt_of_le_of_lt (Nat.le_add_right _ _) (Nat.lt_of_le_of_lt (Nat.le_add_left _ _) hfuel))
      rw [htext, append_assoc, append_assoc, hstart.skipGaps (l.isGap_newline _), deeper_succ, ← hread]
      obtain ⟨c, tail, hcs, hc⟩ := hstart
      obtain ⟨-, hbracket, hbrace⟩ := ne_of_startsValue hc
      rw [hcs]
      refine if_neg ?_
      rcases hclose with rfl | rfl <;> simpa

end Parts

/-! ## Every value is read back -/

/-- A value is read back, whatever follows it and with fuel for all its characters. -/
def ReadsBack (l : Layout) (v : Value) : Prop :=
  ∀ level room fuel, ReadsPart (readValue fuel room) fuel (writeAt l level v) (kept room v)

lemma readsBack_scalar (htext : ∀ level, (writeAt l level v).toList = cs)
    (hcs : IsScalarText cs) (hread : ∀ room rest, Ends rest → readScalar (cs ++ rest) = outcome (kept room v) rest) :
    ReadsBack l v := by
  intro level room fuel
  unfold ReadsPart
  rw [htext]
  refine ⟨hcs.isValueText, fun rest hrest hfuel => ?_⟩
  obtain ⟨fuel, rfl⟩ : ∃ k, fuel = k + 1 := ⟨fuel - 1, by omega⟩
  rw [readValue_scalar hcs, hread room rest hrest]

lemma readsBack_text (htext : ∀ level, writeAt l level v = writeText s)
    (hkept : ∀ room, kept room v = .ok (.str (mendedText s))) : ReadsBack l v := by
  intro level room fuel
  rw [htext, hkept]
  refine ⟨isValueText_writeText s, fun rest hrest hfuel => ?_⟩
  obtain ⟨fuel, rfl⟩ : ∃ k, fuel = k + 1 := ⟨fuel - 1, by omega⟩
  have hread := readText_writeText s rest
  rw [toList_writeText, cons_append] at hread ⊢
  rw [readValue, hread]
  rfl

lemma readsBack_null : ReadsBack l .null :=
  readsBack_scalar (fun _ => by simp [writeAt]) ⟨'n', "ull".toList, rfl, by decide⟩ fun _ _ _ => by
    rw [kept]
    rfl

lemma readsBack_bool (b : Bool) : ReadsBack l (.bool b) := by
  cases b with
  | true =>
    exact readsBack_scalar (fun _ => by simp [writeAt]) ⟨'t', "rue".toList, rfl, by decide⟩ fun _ _ _ => by
      rw [kept]
      rfl
  | false =>
    exact readsBack_scalar (fun _ => by simp [writeAt]) ⟨'f', "alse".toList, rfl, by decide⟩ fun _ _ _ => by
      rw [kept]
      rfl

lemma readsBack_int (n : Int) : ReadsBack l (.int n) := by
  have hproper := isProper_ofInt n
  refine readsBack_scalar (fun _ => by rw [writeAt, chars_ofInt]) (isScalarText_chars hproper)
    fun room rest hrest => ?_
  rw [readScalar_chars hproper hrest, value_ofInt, kept]

lemma readsBack_float (htext : ∀ level, writeAt l level v = Decimal.write numberStyle x)
    (hkept : ∀ room, kept room v = .ok (reread x)) : ReadsBack l v := by
  refine readsBack_scalar (fun level => by rw [htext]) (writtenFloat_write x).isScalarText fun room rest hrest => ?_
  rw [readScalar_write x hrest, hkept]
  rfl

/-! ### Lists -/

lemma writeItems_eq (l : Layout) (level : Nat) (items : List Value) :
    writeItems l level items = items.map (writeAt l level) := by
  induction items with
  | nil => simp [writeItems]
  | cons v vs ih => simp [writeItems, ih]

lemma keptAll_eq (room : Nat) (items : List Value) : keptAll room items = items.mapM (kept room) := by
  induction items with
  | nil => simp [keptAll]
  | cons v vs ih => rw [keptAll, mapM_cons, ih]

lemma readsBack_list (hl : l.IsSound) (hback : ∀ v ∈ items, ReadsBack l v) : ReadsBack l (.list items) := by
  intro level room fuel
  have htext : (writeAt l level (.list items)).toList =
      '[' :: ((l.inside level (items.map (writeAt l (level + 1)))).toList ++ [']']) := by
    simp [writeAt, writeItems_eq]
  refine ⟨⟨'[', _, htext, by decide⟩, fun rest hrest hfuel => ?_⟩
  obtain ⟨fuel, rfl⟩ : ∃ k, fuel = k + 1 := ⟨fuel - 1, by omega⟩
  rw [htext, length_cons, length_append] at hfuel
  have hinner : (l.inside level (items.map (writeAt l (level + 1)))).toList.length < fuel := by omega
  rw [htext, cons_append, append_assoc, singleton_append, readValue, kept]
  rw [readInside_inside hl (.inl rfl) (fun inside v hv => hback v hv (level + 1) inside fuel) hinner room rest,
    outcome_map]
  simp only [keptAll_eq]

lemma readsBack_tuple (hl : l.IsSound) (hback : ∀ v ∈ items, ReadsBack l v) : ReadsBack l (.tuple items) := by
  intro level room fuel
  have hlist := readsBack_list hl hback level room fuel
  simp only [writeAt, kept] at hlist ⊢
  exact hlist

/-! ### Records -/

/-- A name with a value that is read back. -/
lemma readsPart_field (hl : l.IsSound) (hback : ReadsBack l v) (name : String) (level room fuel : Nat) :
    ReadsPart (readField (readValue fuel room)) fuel (l.field name (writeAt l level v))
      ((kept room v).map (mendedText name, ·)) := by
  obtain ⟨colonGap, hcolon, hgap⟩ := hl.colon
  have htext : (l.field name (writeAt l level v)).toList =
      (writeText name).toList ++ ':' :: (colonGap ++ (writeAt l level v).toList) := by
    simp [Layout.field, hcolon]
  obtain ⟨hstart, hread⟩ := hback level room fuel
  unfold ReadsPart
  rw [htext]
  refine ⟨(isValueText_writeText name).append _, fun rest hrest hlimit => ?_⟩
  rw [length_append, length_cons, length_append] at hlimit
  rw [append_assoc, cons_append, append_assoc, readField, readText_writeText, ok_bind]
  change (readValue fuel room (skipGaps (colonGap ++ _))).map _ = _
  rw [hstart.skipGaps hgap, hread rest hrest (by omega)]
  cases kept room v <;> rfl

lemma writeFields_eq (l : Layout) (level : Nat) (fields : List (String × Value)) :
    writeFields l level fields = fields.map fun f => l.field f.1 (writeAt l level f.2) := by
  induction fields with
  | nil => simp [writeFields]
  | cons f fs ih => simp [writeFields, ih]

lemma keptFields_eq (room : Nat) (fields : List (String × Value)) :
    keptFields room fields = fields.mapM fun f => (kept room f.2).map (mendedText f.1, ·) := by
  induction fields with
  | nil => simp [keptFields]
  | cons f fs ih =>
    rw [keptFields, mapM_cons, ih]
    cases kept room f.2 <;> rfl

lemma readsBack_obj (hl : l.IsSound) (hback : ∀ f ∈ fields, ReadsBack l f.2) : ReadsBack l (.obj fields) := by
  intro level room fuel
  have htext : (writeAt l level (.obj fields)).toList = '\x7b' :: ((l.inside level
      (fields.map fun f => l.field f.1 (writeAt l (level + 1) f.2))).toList ++ ['\x7d']) := by
    simp [writeAt, writeFields_eq]
  refine ⟨⟨'\x7b', _, htext, by decide⟩, fun rest hrest hfuel => ?_⟩
  obtain ⟨fuel, rfl⟩ : ∃ k, fuel = k + 1 := ⟨fuel - 1, by omega⟩
  rw [htext, length_cons, length_append] at hfuel
  rw [htext, cons_append, append_assoc, singleton_append, readValue, kept]
  rw [readInside_inside hl (.inr rfl)
      (fun inside f hf => readsPart_field hl (hback f hf) f.1 (level + 1) inside fuel) (by omega) room rest,
    outcome_map fun kept => Value.obj (Record.ofFields kept)]
  simp only [keptFields_eq]

/-- The entries of a record with their names as texts. -/
def namedEntries (entries : List (Value × Value)) : List (String × Value) :=
  entries.map fun entry => (nameText entry.1, entry.2)

/-- Such a record is written as one whose names are texts. -/
lemma writeEntries_eq (l : Layout) (level : Nat) (entries : List (Value × Value)) :
    writeEntries l level entries = writeFields l level (namedEntries entries) := by
  induction entries with
  | nil => simp [writeEntries, writeFields, namedEntries]
  | cons entry rest ih => simp_all [writeEntries, writeFields, namedEntries]

lemma keptEntries_eq (room : Nat) (entries : List (Value × Value)) :
    keptEntries room entries = keptFields room (namedEntries entries) := by
  induction entries with
  | nil => simp [keptEntries, keptFields, namedEntries]
  | cons entry rest ih =>
    simp only [namedEntries, map_cons] at ih ⊢
    rw [keptEntries, keptFields, ih]

lemma readsBack_map (hl : l.IsSound) (hback : ∀ e ∈ entries, ReadsBack l e.2) : ReadsBack l (.map entries) := by
  intro level room fuel
  have hnamed : ∀ f ∈ namedEntries entries, ReadsBack l f.2 := forall_mem_map.mpr hback
  have hobj := readsBack_obj hl hnamed level room fuel
  simp only [writeAt, kept, writeEntries_eq, keptEntries_eq] at hobj ⊢
  exact hobj

mutual

lemma readsBack (hl : l.IsSound) : ∀ v : Value, ReadsBack l v
  | .null => readsBack_null
  | .bool b => readsBack_bool b
  | .int n => readsBack_int n
  | .float _ => readsBack_float (fun _ => by rw [writeAt]) fun _ => by rw [kept]
  | .estimate _ => readsBack_float (fun _ => by rw [writeAt]) fun _ => by rw [kept]
  | .str _ => readsBack_text (fun _ => by rw [writeAt]) fun _ => by rw [kept]
  | .again _ => readsBack_text (fun _ => by rw [writeAt]) fun _ => by rw [kept]
  | .set _ => readsBack_text (fun _ => by rw [writeAt]) fun _ => by rw [kept]
  | .foreign _ _ => readsBack_text (fun _ => by rw [writeAt]) fun _ => by rw [kept]
  | .list items => readsBack_list hl (readsBack_items hl items)
  | .tuple items => readsBack_tuple hl (readsBack_items hl items)
  | .obj fields => readsBack_obj hl (readsBack_fields hl fields)
  | .map entries => readsBack_map hl (readsBack_entries hl entries)

lemma readsBack_items (hl : l.IsSound) : ∀ items : List Value, ∀ v ∈ items, ReadsBack l v
  | [] => nofun
  | v :: vs => forall_mem_cons.mpr ⟨readsBack hl v, readsBack_items hl vs⟩

lemma readsBack_fields (hl : l.IsSound) : ∀ fields : List (String × Value), ∀ f ∈ fields, ReadsBack l f.2
  | [] => nofun
  | (_, v) :: fs => forall_mem_cons.mpr ⟨readsBack hl v, readsBack_fields hl fs⟩

lemma readsBack_entries (hl : l.IsSound) : ∀ entries : List (Value × Value), ∀ e ∈ entries, ReadsBack l e.2
  | [] => nofun
  | (_, v) :: es => forall_mem_cons.mpr ⟨readsBack hl v, readsBack_entries hl es⟩

end

/-- **What is read of a document that was written is what is kept of it**, whatever blanks follow. -/
lemma read_write (hl : l.IsSound) (v : Value)
    (hs : s.toList = (write l v).toList ++ gap) (hgap : ∀ c ∈ gap, isGap c) : read s = kept deepest v := by
  have hends : Ends gap := by
    have hnothing : Ends [] := by simp [Ends]
    simpa using ends_append hgap hnothing
  obtain ⟨hstart, hback⟩ := readsBack hl v 0 deepest (s.toList.length + 1)
  have hskip : skipGaps s.toList = (write l v).toList ++ gap := by
    rw [hs]
    exact hstart.skipGaps (forall_mem_nil _) gap
  have hread := hback gap hends (by
    rw [hs, length_append]
    unfold write
    omega)
  unfold read
  dsimp only
  rw [hskip, show write l v = writeAt l 0 v from rfl, hread]
  cases kept deepest v with
  | error fault => rfl
  | ok w =>
    have hnone := (split_append_noHead hgap (show NoHead isGap [] from nofun)).2
    rw [append_nil] at hnone
    simp only [outcome, skipGaps, hnone]

end CodeAudit.Json

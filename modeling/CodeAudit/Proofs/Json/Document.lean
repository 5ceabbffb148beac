import CodeAudit.Proofs.Files.Writing
import CodeAudit.Proofs.Json.Plain
import CodeAudit.Proofs.Json.RoundTrip
import CodeAudit.Proofs.Record
import CodeAudit.Value.Access

/-!
# Data that JSON carries as it is

Numbers, words, texts, lists, and records with distinct names come back as they were (`carried_of_isData`), unless a
text has the two halves of a character side by side, which come back as one. Data shown inside a message is such a text
again (`mendedText_text`).
-/

namespace CodeAudit.Json

open List Bool String Value

variable {c : Char} {s before : String}

/-! ## Texts that come back as they are -/

lemma pairChar?_of_left (h : Text.surrogate? c = none) (d : Char) : pairChar? c d = none := by
  rw [pairChar?, h]
  rfl

lemma pairChar?_of_right (h : Text.surrogate? d = none) (c : Char) : pairChar? c d = none := by
  rw [pairChar?, h]
  cases Text.surrogate? c <;> rfl

lemma mended_cons_of_left (h : Text.surrogate? c = none) (cs : List Char) : mended (c :: cs) = c :: mended cs := by
  cases cs with
  | nil => rfl
  | cons d cs => rw [mended, pairChar?_of_left h]

/-- Where a character that is no half stands between two texts, each is mended on its own. -/
lemma mended_append_cons (hp : Text.surrogate? p = none) (cs ds : List Char) :
    mended (cs ++ p :: ds) = mended cs ++ p :: mended ds := by
  fun_induction mended cs with
  | case1 c d cs joined hjoined ih =>
    rw [cons_append, cons_append, mended, hjoined]
    dsimp only
    rw [ih, cons_append]
  | case2 c d cs hnone ih =>
    rw [cons_append, cons_append, mended, hnone]
    dsimp only
    rw [← cons_append, ih, cons_append]
  | case3 cs hshort =>
    rcases cs with _ | ⟨c, _ | ⟨d, cs⟩⟩
    · exact mended_cons_of_left hp ds
    · rw [cons_append, nil_append, mended, pairChar?_of_right hp, mended_cons_of_left hp ds]
      rfl
    · exact absurd rfl (hshort c d cs)

lemma surrogate?_of_isEncodable (h : Text.isEncodable s) : ∀ c ∈ s.toList, Text.surrogate? c = none := by
  intro c hc
  exact Option.isNone_iff_eq_none.mp (all_eq_true.mp h c hc)

lemma mended_append_of_left (h : ∀ c ∈ cs, Text.surrogate? c = none) (ds : List Char) :
    mended (cs ++ ds) = cs ++ mended ds := by
  induction cs with
  | nil => rfl
  | cons c cs ih =>
    rw [forall_mem_cons] at h
    rw [cons_append, mended_cons_of_left h.1, ih h.2, cons_append]

lemma mendedText_eq_self_iff : mendedText s = s ↔ mended s.toList = s.toList := by
  rw [mendedText, ← toList_inj, toList_ofList]

lemma mendedText_after (hbefore : Text.isEncodable before) (hs : mendedText s = s) :
    mendedText (before ++ s) = before ++ s := by
  rw [mendedText_eq_self_iff] at hs ⊢
  rw [toList_append, mended_append_of_left (surrogate?_of_isEncodable hbefore), hs]

lemma mendedText_of_isEncodable (h : Text.isEncodable s) : mendedText s = s := by
  have hsame := mendedText_after h (show mendedText "" = "" from rfl)
  rwa [append_empty] at hsame

lemma carried_of_isEncodable (h : Text.isEncodable s) : carried (.str s) = .str s := by
  rw [carried, mendedText_of_isEncodable h]

lemma mendedText_between {after : String} (hs : Text.isEncodable s) (hne : s ≠ "")
    (hbefore : mendedText before = before) (hafter : mendedText after = after) :
    mendedText (before ++ s ++ after) = before ++ s ++ after := by
  have htail := mendedText_after hs hafter
  rw [mendedText_eq_self_iff] at hbefore htail ⊢
  cases hchars : s.toList with
  | nil => exact absurd (toList_eq_nil_iff.mp hchars) hne
  | cons p ps =>
    have hp : Text.surrogate? p = none := surrogate?_of_isEncodable hs p (hchars ▸ mem_cons_self)
    rw [toList_append, hchars, cons_append, mended_cons_of_left hp] at htail
    rw [String.append_assoc, String.toList_append, String.toList_append, hchars, cons_append,
      mended_append_cons hp, hbefore, htail]

/-! ## Data -/

mutual

/-- Whether a value is data that JSON carries as it is. -/
def isData : Value → Bool
  | .null | .bool _ | .int _ | .float _ => true
  | .str s => mendedText s == s
  | .list items => areData items
  | .obj fields => decide (Record.names fields).Nodup && haveData fields
  | .estimate _ | .tuple _ | .map _ | .again _ | .set _ | .foreign _ _ => false

def areData : List Value → Bool
  | [] => true
  | v :: vs => isData v && areData vs

def haveData : List (String × Value) → Bool
  | [] => true
  | (name, v) :: rest => mendedText name == name && isData v && haveData rest

end

lemma haveData_iff {fields : Record} : haveData fields ↔ ∀ f ∈ fields, mendedText f.1 = f.1 ∧ isData f.2 := by
  induction fields with
  | nil => simp [haveData]
  | cons f fs ih => rw [haveData, and_eq_true, and_eq_true, beq_iff_eq, ih, forall_mem_cons]

lemma isData_obj {fields : Record} : isData (.obj fields) ↔
    (Record.names fields).Nodup ∧ ∀ f ∈ fields, mendedText f.1 = f.1 ∧ isData f.2 := by
  rw [isData, and_eq_true, decide_eq_true_eq, haveData_iff]

mutual

/-- **Data comes back as it was.** -/
lemma carried_of_isData : ∀ v : Value, isData v → carried v = v
  | .null | .bool _ | .int _ => fun _ => by simp only [carried]
  | .float x => fun _ => by rw [carried, reread_eq]
  | .str s => fun h => by
    rw [isData, beq_iff_eq] at h
    rw [carried, h]
  | .list items => fun h => by
    rw [isData] at h
    rw [carried, carriedAll_of_areData items h]
  | .obj fields => fun h => by
    rw [isData, and_eq_true, decide_eq_true_eq] at h
    rw [carried, carriedFields_of_haveData fields h.2, Record.ofFields_of_nodup h.1]
  | .estimate _ | .tuple _ | .map _ | .again _ | .set _ | .foreign _ _ => fun h => by
    rw [isData] at h
    cases h

lemma carriedAll_of_areData : ∀ items : List Value, areData items → carriedAll items = items
  | [] => fun _ => by rw [carriedAll]
  | v :: vs => fun h => by
    rw [areData, and_eq_true] at h
    rw [carriedAll, carried_of_isData v h.1, carriedAll_of_areData vs h.2]

lemma carriedFields_of_haveData : ∀ fields : List (String × Value), haveData fields → carriedFields fields = fields
  | [] => fun _ => by rw [carriedFields]
  | (name, v) :: rest => fun h => by
    rw [haveData, and_eq_true, and_eq_true, beq_iff_eq] at h
    rw [carriedFields, h.1.1, carried_of_isData v h.1.2, carriedFields_of_haveData rest h.2]

end

/-! ## Data inside a message -/

lemma isEncodable_append (s t : String) : Text.isEncodable (s ++ t) = (Text.isEncodable s && Text.isEncodable t) := by
  unfold Text.isEncodable
  rw [toList_append, all_append]

lemma isEncodable_of_areShown (h : Text.AreShown s.toList) : Text.isEncodable s := by
  refine all_eq_true.mpr fun c hc => ?_
  rcases or_eq_true_iff.mp (h c hc) with hplain | hshown
  · rw [surrogate?_of_isPlain hplain]
    rfl
  · exact (and_eq_true_iff.mp (and_eq_true_iff.mp hshown).1).2

mutual

/-- Data in quoted form has no halves in it. -/
lemma isEncodable_quoted_of_isData : ∀ v : Value, isData v → Text.isEncodable v.quoted
  | .null => fun _ => by
    rw [quoted]
    decide
  | .bool b => fun _ => by
    rw [quoted]
    cases b <;> decide
  | .int n => fun _ => by
    rw [quoted]
    exact (Text.arePlain_toString n).isEncodable
  | .float x => fun _ => by
    rw [quoted]
    exact (Text.arePlain_plain x).isEncodable
  | .str s => fun _ => by
    rw [quoted]
    exact isEncodable_of_areShown (Text.areShown_quoted s)
  | .list items => fun h => by
    rw [isData] at h
    rw [quoted, isEncodable_append, isEncodable_append, isEncodable_quotedItems items h]
    decide
  | .obj fields => fun h => by
    rw [isData, and_eq_true] at h
    rw [quoted, isEncodable_append, isEncodable_append, isEncodable_quotedFields fields h.2]
    decide
  | .estimate _ | .tuple _ | .map _ | .again _ | .set _ | .foreign _ _ => fun h => by
    rw [isData] at h
    cases h

lemma isEncodable_quotedItems : ∀ items : List Value, areData items → Text.isEncodable (quotedItems items)
  | [] => fun _ => by
    rw [quotedItems]
    decide
  | [v] => fun h => by
    rw [areData, and_eq_true] at h
    rw [quotedItems]
    exact isEncodable_quoted_of_isData v h.1
  | v :: w :: vs => fun h => by
    rw [areData, and_eq_true] at h
    rw [quotedItems]
    · rw [isEncodable_append, isEncodable_append, isEncodable_quoted_of_isData v h.1,
        isEncodable_quotedItems (w :: vs) h.2]
      decide
    · simp

lemma isEncodable_quotedFields : ∀ fields : List (String × Value), haveData fields →
    Text.isEncodable (quotedFields fields)
  | [] => fun _ => by
    rw [quotedFields]
    decide
  | [(name, v)] => fun h => by
    rw [haveData, and_eq_true, and_eq_true] at h
    rw [quotedFields, isEncodable_append, isEncodable_append,
      isEncodable_of_areShown (Text.areShown_quoted name), isEncodable_quoted_of_isData v h.1.2]
    decide
  | (name, v) :: f :: fs => fun h => by
    rw [haveData, and_eq_true, and_eq_true] at h
    rw [quotedFields]
    · rw [isEncodable_append, isEncodable_append, isEncodable_append, isEncodable_append,
        isEncodable_of_areShown (Text.areShown_quoted name), isEncodable_quoted_of_isData v h.1.2,
        isEncodable_quotedFields (f :: fs) h.2]
      decide
    · simp

end

/-- **Data inside a message comes back as it was shown.** -/
lemma mendedText_text (h : isData v) : mendedText v.text = v.text := by
  have hquoted := mendedText_of_isEncodable (isEncodable_quoted_of_isData v h)
  cases v with
  | str s =>
    rw [isData, beq_iff_eq] at h
    rw [text, h]
  | estimate x | foreign t q =>
    rw [isData] at h
    cases h
  | _ => exact hquoted

/-!
## Documents that JSON keeps as they are

A document is data nested no deeper than there is room for, and its whole numbers have no more digits than the reader
takes. It comes back from a file as it was written (`read_file`), and its parts are documents again.
-/

open Proofs

variable {room : Nat} {items : List Value} {fields : Record}

mutual

/-- Whether a value is a document that fits into so many levels. -/
def isDocument (room : Nat) : Value → Bool
  | .null => true
  | .bool _ => true
  | .int n => decide (n.natAbs < 10 ^ Decimal.mostDigits)
  | .float _ => true
  | .str s => mendedText s == s
  | .list items => match room with
    | 0 => false
    | inside + 1 => areDocuments inside items
  | .obj fields => match room with
    | 0 => false
    | inside + 1 => decide (Record.names fields).Nodup && areFields inside fields
  | .estimate _ | .tuple _ | .map _ | .again _ | .set _ | .foreign _ _ => false

def areDocuments (room : Nat) : List Value → Bool
  | [] => true
  | v :: vs => isDocument room v && areDocuments room vs

def areFields (room : Nat) : List (String × Value) → Bool
  | [] => true
  | (name, v) :: rest => mendedText name == name && isDocument room v && areFields room rest

end

/-! ## Parts of documents -/

lemma areDocuments_iff : areDocuments room items ↔ ∀ v ∈ items, isDocument room v := by
  induction items with
  | nil => simp [areDocuments]
  | cons v vs ih => rw [areDocuments, and_eq_true, ih, forall_mem_cons]

lemma areFields_iff : areFields room fields ↔ ∀ f ∈ fields, mendedText f.1 = f.1 ∧ isDocument room f.2 := by
  induction fields with
  | nil => simp [areFields]
  | cons f fs ih => rw [areFields, and_eq_true, and_eq_true, beq_iff_eq, ih, forall_mem_cons]

lemma isDocument_list : isDocument (room + 1) (.list items) ↔ ∀ v ∈ items, isDocument room v := by
  rw [isDocument, areDocuments_iff]

lemma isDocument_obj : isDocument (room + 1) (.obj fields) ↔
      (Record.names fields).Nodup ∧ ∀ f ∈ fields, mendedText f.1 = f.1 ∧ isDocument room f.2 := by
  rw [isDocument, and_eq_true, decide_eq_true_eq, areFields_iff]

lemma inside_of_list (h : isDocument room (.list items)) : ∃ inside, room = inside + 1 ∧ areDocuments inside items := by
  cases room with
  | zero =>
    rw [isDocument] at h
    cases h
  | succ inside =>
    rw [isDocument] at h
    exact ⟨inside, rfl, h⟩

lemma inside_of_obj (h : isDocument room (.obj fields)) :
    ∃ inside, room = inside + 1 ∧ (Record.names fields).Nodup ∧ areFields inside fields := by
  cases room with
  | zero =>
    rw [isDocument] at h
    cases h
  | succ inside =>
    rw [isDocument, and_eq_true, decide_eq_true_eq] at h
    exact ⟨inside, rfl, h⟩

/-! ## Documents through a file -/

mutual

lemma isDocument_iff (room : Nat) : ∀ v : Value, isDocument room v ↔ isData v ∧ Fits room v
  | .null | .bool _ | .int _ | .float _ | .str _ => by simp [isDocument, isData, Fits, depth, numbersFit]
  | .list items => by
    cases room with
    | zero => simp [isDocument, Fits, depth]
    | succ inside =>
      simp only [isDocument, isData, Fits, depth, numbersFit, Nat.add_le_add_iff_right]
      exact areDocuments_iff_fit inside items
  | .obj fields => by
    cases room with
    | zero => simp [isDocument, Fits, depth]
    | succ inside =>
      simp only [isDocument, isData, Fits, depth, numbersFit, and_eq_true, Nat.add_le_add_iff_right,
        areFields_iff_fit inside fields]
      tauto
  | .estimate _ | .tuple _ | .map _ | .again _ | .set _ | .foreign _ _ => by simp [isDocument, isData]

lemma areDocuments_iff_fit (room : Nat) : ∀ items : List Value, areDocuments room items ↔
    areData items ∧ depthAll items ≤ room ∧ numbersFitAll items
  | [] => by simp [areDocuments, areData, depthAll, numbersFitAll]
  | v :: vs => by
    simp only [areDocuments, areData, depthAll, numbersFitAll, and_eq_true, Nat.max_le, isDocument_iff room v,
      areDocuments_iff_fit room vs, Fits]
    tauto

lemma areFields_iff_fit (room : Nat) : ∀ fields : List (String × Value), areFields room fields ↔
    haveData fields ∧ depthFields fields ≤ room ∧ numbersFitFields fields
  | [] => by simp [areFields, haveData, depthFields, numbersFitFields]
  | (name, v) :: rest => by
    simp only [areFields, haveData, depthFields, numbersFitFields, and_eq_true, Nat.max_le, isDocument_iff room v,
      areFields_iff_fit room rest, Fits]
    tauto

end

/-- A document is kept as it is. -/
lemma kept_of_isDocument (room : Nat) (v : Value) (h : isDocument room v) : kept room v = .ok v := by
  obtain ⟨hdata, hfits⟩ := (isDocument_iff room v).mp h
  rw [kept_of_fits hfits, carried_of_isData v hdata]

/-- A document that fits into some levels fits into more. -/
lemma isDocument_mono (hle : room ≤ more) (v : Value) (h : isDocument room v) : isDocument more v := by
  obtain ⟨hdata, hdepth, hnumbers⟩ := (isDocument_iff room v).mp h
  exact (isDocument_iff more v).mpr ⟨hdata, hdepth.trans hle, hnumbers⟩

mutual

lemma expressible_of_isDocument (room : Nat) : ∀ v : Value, isDocument room v → expressible v
  | .null | .bool _ | .int _ | .float _ | .str _ => fun _ => by simp [expressible]
  | .list items => fun h => by
    obtain ⟨inside, rfl, hitems⟩ := inside_of_list h
    rw [expressible, expressibleAll_of_areDocuments inside items hitems]
  | .obj fields => fun h => by
    obtain ⟨inside, rfl, -, hfields⟩ := inside_of_obj h
    rw [expressible, expressibleFields_of_areFields inside fields hfields]
  | .estimate _ | .tuple _ | .map _ | .again _ | .set _ | .foreign _ _ => fun h => by
    rw [isDocument] at h
    cases h

lemma expressibleAll_of_areDocuments (room : Nat) :
    ∀ items : List Value, areDocuments room items → expressibleAll items
  | [] => fun _ => by rw [expressibleAll]
  | v :: vs => fun h => by
    rw [areDocuments, and_eq_true] at h
    rw [expressibleAll, expressible_of_isDocument room v h.1, expressibleAll_of_areDocuments room vs h.2, Bool.and_self]

lemma expressibleFields_of_areFields (room : Nat) :
    ∀ fields : List (String × Value), areFields room fields → expressibleFields fields
  | [] => fun _ => by rw [expressibleFields]
  | (_, v) :: rest => fun h => by
    rw [areFields, and_eq_true, and_eq_true] at h
    rw [expressibleFields, expressible_of_isDocument room v h.1.2, expressibleFields_of_areFields room rest h.2,
      Bool.and_self]

end

lemma Layout.isSound_line : Layout.line.IsSound :=
  ⟨⟨[' '], rfl, all_eq_true.mp rfl⟩, ⟨[' '], rfl, all_eq_true.mp rfl⟩⟩

lemma Layout.isPlain_line : Layout.line.IsPlain := ⟨arePlain_of_all (by decide), arePlain_of_all (by decide)⟩

lemma writeStrict_of_isDocument (h : isDocument room v) (l : Layout) : writeStrict l v = .ok (write l v) := by
  unfold writeStrict
  rw [if_pos (expressible_of_isDocument room v h)]

/-- What is read of a value on one line of a file is what is kept of it. -/
lemma read_line (v : Value) : read (ofList (Text.unifyLineEnds (write .line v).toList)) = kept deepest v := by
  have hreturn : ∀ c ∈ (write .line v).toList, c ≠ '\r' := by
    intro c hc hreturn
    have hplain := arePlain_write Layout.isPlain_line v c hc
    rw [hreturn] at hplain
    exact absurd hplain (by decide)
  have hgap : ∀ c ∈ ([] : List Char), isGap c := fun c hc => absurd hc not_mem_nil
  rw [FileTree.unifyLineEnds_of_forall_ne hreturn, ofList_toList]
  exact read_write Layout.isSound_line v (append_nil _).symm hgap

/-- **A document on one line of a file is read as it was written.** -/
lemma read_file (h : isDocument deepest v) :
    read (ofList (Text.unifyLineEnds (write .line v).toList)) = .ok v := by
  rw [read_line, kept_of_isDocument deepest v h]

/-!
## Parts of documents

What is taken out of a document is a document: a field, the elements of a list, the beginning of a text. A field fits
into one level less.
-/

open Record

/-! ## Texts -/

lemma length_mended_le (cs : List Char) : (mended cs).length ≤ cs.length := by
  fun_induction mended cs with
  | case1 c d cs joined hjoined ih =>
    rw [length_cons, length_cons, length_cons]
    omega
  | case2 c d cs hjoined ih =>
    rw [length_cons, length_cons]
    omega
  | case3 cs h => exact Nat.le_refl _

lemma mended_take (h : mended cs = cs) (n : Nat) : mended (cs.take n) = cs.take n := by
  fun_induction mended cs generalizing n with
  | case1 c d cs joined hjoined ih =>
    have hlength := congrArg List.length h
    have hle := length_mended_le cs
    rw [length_cons, length_cons, length_cons] at hlength
    omega
  | case2 c d cs hjoined ih =>
    have hrest := ih (cons.inj h).2
    rcases n with _ | _ | n
    · rfl
    · rfl
    · have hnext := hrest (n + 1)
      rw [take_succ_cons] at hnext
      rw [take_succ_cons, take_succ_cons, mended, hjoined, hnext]
  | case3 cs hshort =>
    rcases cs with _ | ⟨c, _ | ⟨d, cs⟩⟩
    · rw [take_nil]
      rfl
    · rcases n with _ | n
      · rfl
      · rw [take_succ_cons, take_nil]
        rfl
    · exact absurd rfl (hshort c d cs)

lemma isDocument_singleton (room : Nat) (c : Char) : isDocument room (.str (singleton c)) := by
  have hmended : mended [c] = [c] := rfl
  rw [isDocument, beq_iff_eq, mendedText, toList_singleton, hmended]
  rfl

/-! ## Fields, elements and beginnings -/

section Parts

variable {room : Nat} {v x : Value}

variable {name : String} {default : Value}

lemma isDocument_get? (h : isDocument room v) (hfields : v.namedFields = some fields) (hx : get? fields name = some x) :
    ∃ inside, room = inside + 1 ∧ isDocument inside x := by
  obtain ⟨f, hf, rfl⟩ := Option.map_eq_some_iff.mp hx
  cases v with
  | obj found =>
    cases hfields
    obtain ⟨inside, rfl, -, hfields⟩ := inside_of_obj h
    exact ⟨inside, rfl, (areFields_iff.mp hfields f (mem_of_find?_eq_some hf)).2⟩
  | map entries =>
    rw [isDocument] at h
    cases h
  | _ => cases hfields

lemma part_cases (hx : v.part name default = .ok x) :
    x = default ∨ ∃ fields, v.namedFields = some fields ∧ get? fields name = some x := by
  unfold part fields at hx
  cases hfields : v.namedFields with
  | none =>
    rw [hfields] at hx
    cases hx
  | some fields =>
    rw [hfields] at hx
    cases hx
    unfold Record.getD
    cases hget : get? fields name with
    | none => exact .inl rfl
    | some found => exact .inr ⟨fields, rfl, hget⟩

lemma isDocument_field (h : isDocument (room + 1) v)
    (hdefault : isDocument room default) (hx : v.part name default = .ok x) : isDocument room x := by
  rcases part_cases hx with rfl | ⟨fields, hfields, hget⟩
  · exact hdefault
  · obtain ⟨inside, hroom, hinside⟩ := isDocument_get? h hfields hget
    exact Nat.succ.inj hroom ▸ hinside

lemma isDocument_part (h : isDocument room v)
    (hdefault : isDocument room default) (hx : v.part name default = .ok x) : isDocument room x :=
  isDocument_field (isDocument_mono (Nat.le_succ _) v h) hdefault hx

lemma isDocument_need (h : isDocument room v) (hx : v.need name = .ok x) : isDocument room x := by
  unfold need at hx
  split at hx
  next fields hfields =>
    split at hx
    next found hget =>
      cases hx
      obtain ⟨inside, rfl, hinside⟩ := isDocument_get? h hfields hget
      exact isDocument_mono (Nat.le_succ _) _ hinside
    next => cases hx
  next => cases hx

/-- The elements of a document are documents, and fit into a level less; characters and names count as texts. -/
lemma isDocument_inside (h : isDocument room v) (hitems : v.elements = .ok items) :
    ∀ item ∈ items, isDocument (room - 1) item := by
  intro item hitem
  cases v with
  | list found =>
    cases hitems
    obtain ⟨inside, rfl, hfound⟩ := inside_of_list h
    exact areDocuments_iff.mp hfound item hitem
  | str s =>
    cases hitems
    obtain ⟨c, -, rfl⟩ := mem_map.mp hitem
    exact isDocument_singleton _ c
  | obj fields =>
    cases hitems
    obtain ⟨f, hf, rfl⟩ := mem_map.mp hitem
    obtain ⟨inside, rfl, -, hfields⟩ := inside_of_obj h
    rw [isDocument, beq_iff_eq]
    exact (areFields_iff.mp hfields f hf).1
  | tuple found =>
    rw [isDocument] at h
    cases h
  | set found =>
    rw [isDocument] at h
    cases h
  | map entries =>
    rw [isDocument] at h
    cases h
  | _ => cases hitems

lemma isDocument_elements (h : isDocument room v) (hitems : v.elements = .ok items) :
    ∀ item ∈ items, isDocument room item :=
  fun item hitem => isDocument_mono (Nat.sub_le _ _) item (isDocument_inside h hitems item hitem)

lemma isDocument_cut (h : isDocument room v) (hx : v.cut n = .ok x) : isDocument room x := by
  cases v with
  | str s =>
    cases hx
    rw [isDocument, beq_iff_eq, mendedText] at h ⊢
    have hmended : mended s.toList = s.toList := by rw [← toList_ofList (l := mended s.toList), h]
    rw [Text.take, toList_ofList, mended_take hmended]
  | list items =>
    cases hx
    obtain ⟨inside, rfl, hitems⟩ := inside_of_list h
    exact isDocument_list.mpr fun item hitem => areDocuments_iff.mp hitems item (mem_of_mem_take hitem)
  | tuple items =>
    rw [isDocument] at h
    cases h
  | _ => cases hx

end Parts

end CodeAudit.Json

import CodeAudit.Proofs.Json.Scalars

/-!
# The characters of written JSON

Whatever a document holds, its text is printable ASCII and line feeds. So it can be written in any encoding, and its
line ends come back as they were.
-/

namespace CodeAudit.Json

open List String Numeral Text Bool

variable {cs : List Char}

/-- Printable ASCII and the line feed. -/
def isPlain (c : Char) : Bool := c == '\n' || (32 ≤ c.toNat && c.toNat < 127)

def ArePlain (cs : List Char) : Prop := ∀ c ∈ cs, isPlain c

lemma ArePlain.append (hcs : ArePlain cs) (hds : ArePlain ds) : ArePlain (cs ++ ds) :=
  forall_mem_append.mpr ⟨hcs, hds⟩

lemma ArePlain.cons {c : Char} (hc : isPlain c) (hcs : ArePlain cs) : ArePlain (c :: cs) :=
  forall_mem_cons.mpr ⟨hc, hcs⟩

lemma arePlain_nil : ArePlain [] := nofun

lemma arePlain_of_all (h : cs.all isPlain) : ArePlain cs := all_eq_true.mp h

/-! ## Texts -/

lemma isPlain_digitChar (hd : d < 16) : isPlain d.digitChar := by
  interval_cases d <;> decide

lemma arePlain_unitChars (hn : n < 65536) : ArePlain (unitChars n) := by
  unfold unitChars
  rw [toList_hexPadded_four hn]
  refine .cons (by decide) (.cons (by decide) (.cons ?_ (.cons ?_ (.cons ?_ (.cons ?_ arePlain_nil)))))
  all_goals exact isPlain_digitChar (by omega)

lemma arePlain_escapedChar (c : Char) : ArePlain (escapedChar c).toList := by
  have hwritten := written_escapedChar c
  generalize (escapedChar c).toList = written at hwritten ⊢
  cases hwritten with
  | @letter _ e hread hother hwhole =>
    refine .cons (by decide) (.cons ?_ arePlain_nil)
    unfold escapeChar? at hread
    split at hread
    all_goals first | decide | cases hread
  | itself hquote hslash hsize hascii hwhole =>
    refine .cons ?_ arePlain_nil
    simp [isPlain, hsize, hascii]
  | number hn hplain hwhole => exact arePlain_unitChars hn
  | half hhalf hstands => exact arePlain_unitChars (lt_of_isSurrogate hhalf)
  | pair hhigh hlow hwhole =>
    exact (arePlain_unitChars (lt_of_isSurrogate (isSurrogate_of_isHigh hhigh))).append
      (arePlain_unitChars (lt_of_isSurrogate (isSurrogate_of_isLow hlow)))

lemma arePlain_writeText (s : String) : ArePlain (writeText s).toList := by
  rw [toList_writeText]
  refine .cons (by decide) (.append ?_ (.cons (by decide) arePlain_nil))
  intro c hc
  obtain ⟨d, -, hd⟩ := mem_flatMap.mp hc
  exact arePlain_escapedChar d c hd

/-! ## Numbers -/

lemma AreDigits.arePlain (h : AreDigits ds) : ArePlain ds := by
  intro c hc
  have hdigit := h c hc
  simp only [isAsciiDigit, decide_eq_true_eq] at hdigit
  have hlow : 48 ≤ c.toNat := hdigit.1
  have hhigh : c.toNat ≤ 57 := hdigit.2
  simp only [isPlain, or_eq_true, and_eq_true, decide_eq_true_eq]
  omega

lemma Numeral.arePlain_chars {n : Numeral} (h : n.IsProper) : ArePlain n.chars := by
  have hwhole : ArePlain n.whole := by
    rcases h.whole with hzero | ⟨hdigits, -⟩
    · rw [hzero]
      exact .cons (by decide) arePlain_nil
    · exact hdigits.arePlain
  have hfraction : ArePlain n.fractionChars := by
    unfold fractionChars
    split
    · exact arePlain_nil
    · exact .cons (by decide) h.fraction.arePlain
  have hexponent : ArePlain n.exponentChars := by
    unfold exponentChars
    split
    · exact arePlain_nil
    · next negative ds hsome =>
      refine .cons (by decide) (.cons ?_ (h.exponent negative ds hsome).1.arePlain)
      split <;> decide
  unfold chars body
  refine .append ?_ (hwhole.append (hfraction.append hexponent))
  split
  · exact .cons (by decide) arePlain_nil
  · exact arePlain_nil

lemma WrittenFloat.arePlain (h : WrittenFloat x cs) : ArePlain cs := by
  cases h with
  | numeral h _ => exact arePlain_chars h
  | word h =>
    rcases float_mem_wordValues h with ⟨rfl, -⟩ | ⟨rfl, -⟩ | ⟨rfl, -⟩ <;> exact arePlain_of_all (by decide)

/-! ## Documents -/

/-- A layout whose separators are plain. -/
structure Layout.IsPlain (l : Layout) : Prop where
  comma : ArePlain l.comma.toList
  colon : ArePlain l.colon.toList

lemma Layout.isPlain_pretty : Layout.pretty.IsPlain := ⟨arePlain_of_all (by decide), arePlain_of_all (by decide)⟩

lemma Layout.arePlain_newline (l : Layout) (level : Nat) : ArePlain (l.newline level).toList := by
  unfold Layout.newline
  cases l.indent with
  | none => exact arePlain_nil
  | some width =>
    rw [toList_append]
    refine .append (.cons (by decide) arePlain_nil) fun c hc => ?_
    rw [toList_ofList] at hc
    rw [eq_of_mem_replicate hc]
    decide

variable {l : Layout}

lemma arePlain_join (hsep : ArePlain sep.toList)
    (hparts : ∀ part ∈ parts, ArePlain part.toList) : ArePlain (join sep parts).toList := by
  unfold Text.join
  induction parts with
  | nil => exact arePlain_nil
  | cons part parts ih =>
    obtain ⟨hpart, hmore⟩ := forall_mem_cons.mp hparts
    cases parts with
    | nil => rwa [String.intercalate_singleton]
    | cons next parts =>
      simp only [String.intercalate_cons_cons, toList_append]
      exact (hpart.append hsep).append (ih hmore)

lemma Layout.IsPlain.inside (hl : l.IsPlain) (level : Nat)
    (hparts : ∀ part ∈ parts, ArePlain part.toList) : ArePlain (l.inside level parts).toList := by
  cases parts with
  | nil => exact arePlain_nil
  | cons part parts =>
    simp only [Layout.inside, toList_append]
    refine ((l.arePlain_newline _).append (arePlain_join ?_ hparts)).append (l.arePlain_newline _)
    rw [toList_append]
    exact hl.comma.append (l.arePlain_newline _)

lemma arePlain_bracketed {opening closing inner : String} (hopening : opening.toList.all isPlain)
    (hclosing : closing.toList.all isPlain) (hinner : ArePlain inner.toList) :
    ArePlain (opening ++ inner ++ closing).toList := by
  simp only [toList_append]
  exact ((arePlain_of_all hopening).append hinner).append (arePlain_of_all hclosing)

lemma Layout.IsPlain.field (hl : l.IsPlain) (name : String) {value : String} (hvalue : ArePlain value.toList) :
    ArePlain (l.field name value).toList := by
  simp only [Layout.field, toList_append]
  exact ((arePlain_writeText name).append hl.colon).append hvalue

mutual

lemma arePlain_writeAt (hl : l.IsPlain) (level : Nat) : ∀ v, ArePlain (writeAt l level v).toList
  | .null => by
    rw [writeAt]
    exact arePlain_of_all (by decide)
  | .bool b => by
    rw [writeAt]
    cases b <;> exact arePlain_of_all (by decide)
  | .int n => by
    rw [writeAt, ← chars_ofInt]
    exact arePlain_chars (isProper_ofInt n)
  | .float x | .estimate x => by
    rw [writeAt]
    exact (writtenFloat_write x).arePlain
  | .str _ | .again _ | .set _ | .foreign _ _ => by
    rw [writeAt]
    exact arePlain_writeText _
  | .list items | .tuple items => by
    rw [writeAt]
    exact arePlain_bracketed (by decide) (by decide) (hl.inside level (arePlain_writeItems hl (level + 1) items))
  | .obj fields => by
    rw [writeAt]
    exact arePlain_bracketed (by decide) (by decide) (hl.inside level (arePlain_writeFields hl (level + 1) fields))
  | .map entries => by
    rw [writeAt]
    exact arePlain_bracketed (by decide) (by decide) (hl.inside level (arePlain_writeEntries hl (level + 1) entries))

lemma arePlain_writeItems (hl : l.IsPlain) (level : Nat) :
    ∀ items, ∀ part ∈ writeItems l level items, ArePlain part.toList
  | [] => by simp [writeItems]
  | v :: vs => by
    rw [writeItems]
    exact forall_mem_cons.mpr ⟨arePlain_writeAt hl level v, arePlain_writeItems hl level vs⟩

lemma arePlain_writeFields (hl : l.IsPlain) (level : Nat) :
    ∀ fields, ∀ part ∈ writeFields l level fields, ArePlain part.toList
  | [] => by simp [writeFields]
  | (name, v) :: fs => by
    rw [writeFields]
    exact forall_mem_cons.mpr ⟨hl.field name (arePlain_writeAt hl level v), arePlain_writeFields hl level fs⟩

lemma arePlain_writeEntries (hl : l.IsPlain) (level : Nat) :
    ∀ entries, ∀ part ∈ writeEntries l level entries, ArePlain part.toList
  | [] => by simp [writeEntries]
  | (k, v) :: es => by
    rw [writeEntries]
    exact forall_mem_cons.mpr ⟨hl.field (nameText k) (arePlain_writeAt hl level v), arePlain_writeEntries hl level es⟩

end

/-- **The text of a document is plain.** -/
lemma arePlain_write (hl : l.IsPlain) (v : Value) : ArePlain (write l v).toList := arePlain_writeAt hl 0 v

lemma surrogate?_of_isPlain (h : isPlain c) : surrogate? c = none := by
  simp only [isPlain, or_eq_true, beq_iff_eq, and_eq_true, decide_eq_true_eq] at h
  have hsmall : c.toNat < 127 := by
    rcases h with rfl | hrange
    · decide
    · exact hrange.2
  unfold surrogate? firstStandIn
  rw [if_neg (by omega)]

lemma ArePlain.isEncodable (h : ArePlain s.toList) : isEncodable s := by
  unfold Text.isEncodable
  rw [all_eq_true]
  intro c hc
  rw [surrogate?_of_isPlain (h c hc)]
  rfl

end CodeAudit.Json

/-!
## The characters of quoted texts

A quoted text shows plain characters and others that can be printed; all else stands there by its escapes.
-/

namespace CodeAudit.Text

open Json List String

variable {cs ds : List Char}

/-- Plain characters, and those that are shown as they are. -/
def isShown (c : Char) : Bool := isPlain c || (c != '\r' && (surrogate? c).isNone && isPrintable c)

def AreShown (cs : List Char) : Prop := ∀ c ∈ cs, isShown c

lemma areShown_of_arePlain (h : ArePlain cs) : AreShown cs := fun c hc => Bool.or_eq_true_iff.mpr (.inl (h c hc))

lemma AreShown.append (hcs : AreShown cs) (hds : AreShown ds) : AreShown (cs ++ ds) := forall_mem_append.mpr ⟨hcs, hds⟩

/-! ## Numbers -/

lemma arePlain_toDigits (n : Nat) : ArePlain (Nat.toDigits 16 n) := by
  induction n using Nat.strong_induction_on with
  | _ n ih =>
    by_cases hsmall : n < 16
    · rw [Nat.toDigits_of_lt_base hsmall]
      exact .cons (isPlain_digitChar hsmall) arePlain_nil
    · rw [Nat.toDigits_of_base_le (by decide) (by omega)]
      exact (ih (n / 16) (by omega)).append (.cons (isPlain_digitChar (by omega)) arePlain_nil)

lemma arePlain_hexPadded (width n : Nat) : ArePlain (hexPadded width n).toList := by
  unfold hexPadded
  rw [toList_ofList]
  refine ArePlain.append (fun c hc => ?_) (arePlain_toDigits n)
  rw [eq_of_mem_replicate hc]
  decide

lemma arePlain_toString (n : Int) : ArePlain (toString n).toList := by
  rw [← Numeral.chars_ofInt]
  exact Numeral.arePlain_chars (Numeral.isProper_ofInt n)

/-- A number is shown as it is written, but for the words for what is not finite. -/
lemma arePlain_plain (x : Float) : ArePlain (Decimal.plain x).toList := by
  have hwritten := (writtenFloat_write x).arePlain
  unfold Decimal.plain
  unfold Decimal.write at hwritten ⊢
  cases hparts : Decimal.Parts.ofFloat x with
  | notANumber => exact arePlain_of_all (by decide)
  | infinite negative => cases negative <;> exact arePlain_of_all (by decide)
  | finite negative m q =>
    rw [hparts] at hwritten
    exact hwritten

/-! ## Texts -/

lemma areShown_quotedChar {quote : Char} (hquote : isPlain quote) (c : Char) :
    AreShown (quotedChar quote c).toList := by
  have hescape : ∀ {mark : String} (width n : Nat), ArePlain mark.toList →
      AreShown (mark ++ hexPadded width n).toList := by
    intro mark width n hmark
    rw [toList_append]
    exact areShown_of_arePlain (hmark.append (arePlain_hexPadded width n))
  unfold quotedChar
  split
  · next hmarked =>
    rw [Bool.or_eq_true, beq_iff_eq, beq_iff_eq] at hmarked
    have hc : isPlain c := by rcases hmarked with rfl | rfl <;> first | exact hquote | decide
    rw [toList_ofList]
    exact areShown_of_arePlain (.cons (by decide) (.cons hc arePlain_nil))
  split
  · exact areShown_of_arePlain (arePlain_of_all (by decide))
  split
  · exact areShown_of_arePlain (arePlain_of_all (by decide))
  next hreturn =>
  split
  · exact areShown_of_arePlain (arePlain_of_all (by decide))
  cases hhalf : surrogate? c with
  | some half => exact hescape 4 half (arePlain_of_all (by decide))
  | none =>
    dsimp only
    split
    · next hprintable =>
      rw [toList_singleton]
      refine forall_mem_singleton.mpr ?_
      rw [isShown, hhalf, hprintable, bne, eq_false_of_ne_true hreturn]
      exact Bool.or_true _
    split
    · exact hescape 2 _ (arePlain_of_all (by decide))
    split
    · exact hescape 4 _ (arePlain_of_all (by decide))
    · exact hescape 8 _ (arePlain_of_all (by decide))

lemma areShown_quoted (s : String) : AreShown (quoted s).toList := by
  unfold quoted
  dsimp only
  generalize hquote : (if s.toList.contains '\'' && !s.toList.contains '"' then '"' else '\'') = quote
  have hplain : isPlain quote := by
    rw [← hquote]
    split <;> decide
  have hends : AreShown (singleton quote).toList := by
    rw [toList_singleton]
    exact areShown_of_arePlain (.cons hplain arePlain_nil)
  have hbody : ∀ (cs : List Char) (start : String), AreShown start.toList →
      AreShown (cs.foldl (fun acc c => acc ++ quotedChar quote c) start).toList := by
    intro cs
    induction cs with
    | nil => exact fun _ h => h
    | cons c cs ih =>
      intro start hstart
      refine ih _ ?_
      rw [toList_append]
      exact hstart.append (areShown_quotedChar hplain c)
  rw [toList_append, toList_append]
  exact (hends.append (hbody s.toList "" nofun)).append hends

lemma areShown_quotedItems (h : ∀ v ∈ items, AreShown v.quoted.toList) : AreShown (Value.quotedItems items).toList := by
  induction items with
  | nil => exact nofun
  | cons v rest ih =>
    obtain ⟨hv, hrest⟩ := forall_mem_cons.mp h
    cases rest with
    | nil => exact hv
    | cons w rest =>
      rw [Value.quotedItems, toList_append, toList_append]
      · exact (hv.append (areShown_of_arePlain (arePlain_of_all (by decide)))).append (ih hrest)
      · exact cons_ne_nil w rest

end CodeAudit.Text

import CodeAudit.Proofs.Files.Writing
import CodeAudit.Proofs.Json.RoundTrip
import CodeAudit.Proofs.Record
import CodeAudit.Report.Html

/-!
# Markup in the HTML report

Findings reach the page in three ways: escaped in cells, as they are in the cell of the line, and as JSON inside the
script. So the page has no markup but its own exactly when no line has any and no shown type ends the script
(`unbroken_iff`).
-/

namespace CodeAudit.HtmlReport

open CodeAudit.Proofs List Json Text Except Nat

/-! ## Ends of scripts -/

/-- What ends a script. -/
def closing : List Char := ['<', '/', 's', 'c', 'r', 'i', 'p', 't']

/-- How often a text ends a script. -/
def closings : List Char → Nat
  | [] => 0
  | c :: cs => (closing.isPrefixOf (c :: cs)).toNat + closings cs

/-- A text that ends scripts so often, whatever follows it. -/
def Closes (a : List Char) (n : Nat) : Prop := ∀ b, closings (a ++ b) = n + closings b

variable {a b cs : List Char} {c : Char} {n m : Nat}

lemma Closes.closings_eq (h : Closes a n) : closings a = n := by
  have hend := h []
  rwa [append_nil] at hend

lemma Closes.append (ha : Closes a n) (hb : Closes b m) : Closes (a ++ b) (n + m) := by
  intro more
  rw [append_assoc, ha, hb, add_assoc]

variable {s : String}

lemma Closes.and (hs : Closes s.toList n) (ht : Closes t.toList m) : Closes (s ++ t).toList (n + m) := by
  rw [String.toList_append]
  exact hs.append ht

lemma closings_cons (h : c ≠ '<') : closings (c :: cs) = closings cs := by
  have hnot : closing.isPrefixOf (c :: cs) = false := by
    change (('<' == c) && _) = false
    rw [beq_eq_false_iff_ne.mpr h.symm, Bool.false_and]
  rw [closings, hnot, Bool.toNat_false, zero_add]

lemma closes_of_notMem (h : '<' ∉ a) : Closes a 0 := by
  intro b
  rw [zero_add]
  induction a with
  | nil => rfl
  | cons c a ih =>
    rw [mem_cons, not_or] at h
    rw [cons_append, closings_cons (Ne.symm h.1), ih h.2]

/-- An end of a script needs each of its characters. -/
lemma closings_eq_zero (hc : c ∈ closing) (h : c ∉ cs) : closings cs = 0 := by
  induction cs with
  | nil => rfl
  | cons d cs ih =>
    have hnot : closing.isPrefixOf (d :: cs) = false := by
      rw [Bool.eq_false_iff, ne_eq, isPrefixOf_iff_prefix]
      exact fun hfirst => h (hfirst.subset hc)
    rw [closings, hnot, Bool.toNat_false, zero_add]
    exact ih fun hmem => h (mem_cons_of_mem _ hmem)

lemma isPrefixOf_append_cons {p : List Char} (h : c ∉ p) (a b : List Char) :
    p.isPrefixOf (a ++ c :: b) = p.isPrefixOf a := by
  induction p generalizing a with
  | nil => simp
  | cons d p ih =>
    rw [mem_cons, not_or] at h
    cases a with
    | nil => simp [isPrefixOf, Ne.symm h.1]
    | cons e a => rw [cons_append, isPrefixOf_cons_cons, isPrefixOf_cons_cons, ih h.2]

/-- Nothing ends a script across a character that cannot go on with it. -/
lemma closings_append (h : c ∉ closing.tail) (a b : List Char) :
    closings (a ++ c :: b) = closings a + closings (c :: b) := by
  induction a with
  | nil => exact (zero_add _).symm
  | cons d a ih =>
    have hsame : closing.isPrefixOf (d :: a ++ c :: b) = closing.isPrefixOf (d :: a) :=
      congrArg (('<' == d) && ·) (isPrefixOf_append_cons h a b)
    rw [cons_append, closings, closings, ih, add_assoc, ← cons_append, hsame]

lemma closes_concat (a : List Char) (h : c ∉ closing) : Closes (a ++ [c]) (closings a) := by
  intro b
  have hopening : c ≠ '<' := fun heq => h (heq ▸ mem_cons_self)
  rw [append_assoc, singleton_append, closings_append (fun hc => h (mem_of_mem_tail hc)), closings_cons hopening]

/-- A text that is given, with its last character. -/
lemma closes_text (h : closings s.toList = n ∧ s.toList.getLast?.all (· ∉ closing)) : Closes s.toList n := by
  obtain ⟨rfl, hlast⟩ := h
  rcases eq_nil_or_concat' s.toList with hnil | ⟨init, c, hinit⟩
  · rw [hnil]
    exact closes_of_notMem not_mem_nil
  · have hc : c ∉ closing := by simpa [hinit] using hlast
    have hwhole := closes_concat init hc
    rw [← hwhole.closings_eq] at hwhole
    rwa [hinit]

/-- Of an element, what stands between its tags counts. -/
lemma closes_element {opening text ending : String} (hopening : Closes opening.toList 0) (htext : closings text.toList = n)
    (hending : closings ending.toList = 0 ∧ ending.toList.head? = some '<' ∧ ending.toList.getLast? = some '>') :
    Closes (opening ++ text ++ ending).toList n := by
  obtain ⟨hzero, hfirst, hlast⟩ := hending
  obtain ⟨rest, hrest⟩ := head?_eq_some_iff.mp hfirst
  rw [String.append_assoc, ← zero_add n]
  refine hopening.and (closes_text ⟨?_, ?_⟩)
  · rw [String.toList_append, hrest, closings_append (by decide), ← hrest, htext, hzero, add_zero]
  · rw [String.toList_append, getLast?_append, hlast]
    rfl

/-! ## Lines -/

lemma closes_join (hsep : '<' ∉ sep.toList)
    (h : Forall₂ (fun part n => Closes part.toList n) parts counts) : Closes (join sep parts).toList counts.sum := by
  rw [join, String.toList_intercalate]
  induction h with
  | nil => exact closes_of_notMem not_mem_nil
  | @cons part count parts counts hpart hrest ih =>
    by_cases hnil : parts = []
    · cases hnil
      cases hrest
      simpa using hpart
    · rw [map_cons, intercalate_cons_of_ne_nil (by simpa using hnil), sum_cons]
      exact .append (hpart.append (closes_of_notMem hsep)) ih

lemma closes_join_map (sep : String) (hsep : '<' ∉ sep.toList) {α : Type} {items : List α} {text : α → String}
    {count : α → Nat} (h : ∀ x ∈ items, Closes (text x).toList (count x)) :
    Closes (join sep (items.map text)).toList (items.map count).sum :=
  closes_join hsep (forall₂_map_left_iff.mpr (forall₂_map_right_iff.mpr (forall₂_same.mpr h)))

lemma closes_join_zero (h : ∀ part ∈ parts, Closes part.toList 0) : Closes (join "\n" parts).toList 0 := by
  have hall := closes_join_map "\n" (by decide) h
  rwa [map_id', sum_map_zero] at hall

/-- A page's lines are read from their characters. -/
lemma closes_lines (h : Forall₂ (fun part line => part = String.ofList line) parts lines)
    (hn : closings (['\n'].intercalate lines) = n ∧ (['\n'].intercalate lines).getLast?.all (· ∉ closing)) :
    Closes (join "\n" parts).toList n := by
  have hlines : parts.map String.toList = lines := by
    clear hn
    induction h with
    | nil => rfl
    | cons hline _ ih => rw [map_cons, ih, hline, String.toList_ofList]
  refine closes_text ?_
  rwa [join, String.toList_intercalate, hlines]

lemma closes_start : Closes Page.start.toList 0 := closes_lines (by repeat' constructor) (by decide +kernel)

lemma closes_charts : Closes Page.charts.toList 0 := closes_lines (by repeat' constructor) (by decide +kernel)

lemma closes_footer : Closes Page.footer.toList 0 := closes_lines (by repeat' constructor) (by decide +kernel)

lemma closes_script : Closes Page.script.toList 0 := closes_lines (by repeat' constructor) (by decide +kernel)

lemma closes_finish : Closes Page.finish.toList 1 := closes_lines (by repeat' constructor) (by decide +kernel)

/-! ## Numbers -/

lemma notMem_padded (k n : Nat) : '<' ∉ replicate k '0' ++ (toString n).toList := by
  rw [mem_append, not_or, toString_eq_repr, toList_repr]
  exact ⟨fun h => absurd (eq_of_mem_replicate h) (by decide), fun h => absurd (areDigits_toDigits n _ h) (by decide)⟩

lemma closes_nat (n : Nat) : Closes (toString n).toList 0 := closes_of_notMem (notMem_padded 0 n)

lemma notMem_zeroPadded (width n : Nat) : '<' ∉ (zeroPadded width (n : Int)).toList := by
  unfold zeroPadded
  rw [if_neg (by omega)]
  simpa using notMem_padded 0 n

lemma notMem_withPoint (places units : Nat) : '<' ∉ (Decimal.withPoint places units).toList := by
  have hpadded := notMem_padded (places + 1 - (toString units).toList.length) units
  unfold Decimal.withPoint
  dsimp only
  split
  · rwa [String.toList_ofList]
  · simp only [String.toList_append, String.toList_ofList, mem_append, not_or]
    exact ⟨⟨fun h => hpadded (mem_of_mem_take h), by decide⟩, fun h => hpadded (mem_of_mem_drop h)⟩

lemma closes_twoPlaces (h : Report.twoPlaces v = .ok s) : Closes s.toList 0 := by
  apply closes_of_notMem
  obtain ⟨x, rfl⟩ : ∃ x, Decimal.fixed 2 x = s := by
    unfold Report.twoPlaces at h
    split at h
    · cases h
    · obtain ⟨x, -, hx⟩ := of_bind h
      exact ⟨x, ok.inj hx⟩
  unfold Decimal.fixed
  split
  · decide
  · rw [String.toList_append, mem_append, not_or]
    exact ⟨by split <;> decide, by decide⟩
  · rw [String.toList_append, mem_append, not_or]
    exact ⟨by split <;> decide, notMem_withPoint _ _⟩

/-! ## JSON -/

lemma toList_escapedChar (h : c ∈ closing) : (escapedChar c).toList = [c] := by
  have hall : closing.all fun c => (escapedChar c).toList = [c] := by decide
  exact of_decide_eq_true (all_eq_true.mp hall c h)

lemma notMem_escapedChar (h : c ∉ closing) : '<' ∉ (escapedChar c).toList ∧
    ∃ d more, (escapedChar c).toList = d :: more ∧ d ∉ closing := by
  have hdigit : ∀ d < 16, '<' ≠ d.digitChar := by decide
  have hunit : ∀ {n}, n < 65536 → '<' ∉ unitChars n := by
    intro n hn
    unfold unitChars
    rw [toList_hexPadded_four hn]
    simp [hdigit, show n / 16 / 16 / 16 < 16 by omega, mod_lt]
  have hwritten := written_escapedChar c
  generalize (escapedChar c).toList = written at hwritten ⊢
  cases hwritten with
  | @letter _ e hread hother hwhole =>
    refine ⟨?_, _, _, rfl, by decide⟩
    rw [mem_pair, not_or]
    exact ⟨by decide, by rintro rfl; cases hread⟩
  | itself =>
    refine ⟨fun hmem => h ?_, _, _, rfl, h⟩
    rw [← mem_singleton.mp hmem]
    exact mem_cons_self
  | number hn => exact ⟨hunit hn, _, _, rfl, by decide⟩
  | half hhalf => exact ⟨hunit (lt_of_isSurrogate hhalf), _, _, rfl, by decide⟩
  | pair hhigh hlow =>
    refine ⟨?_, _, _, rfl, by decide⟩
    rw [mem_append, not_or]
    exact ⟨hunit (lt_of_isSurrogate (isSurrogate_of_isHigh hhigh)),
      hunit (lt_of_isSurrogate (isSurrogate_of_isLow hlow))⟩

/-- Escapes neither hide nor make the start of an end of a script. -/
lemma isPrefixOf_textChars {p : List Char} (hp : ∀ d ∈ p, d ∈ closing) (cs : List Char) :
    p.isPrefixOf (textChars cs) = p.isPrefixOf cs := by
  induction p generalizing cs with
  | nil => simp
  | cons d p ih =>
    rw [forall_mem_cons] at hp
    cases cs with
    | nil => rfl
    | cons c cs =>
      rw [textChars_cons]
      by_cases hc : c ∈ closing
      · rw [toList_escapedChar hc, singleton_append, isPrefixOf_cons_cons, isPrefixOf_cons_cons, ih hp.2]
      · obtain ⟨-, e, more, hmore, he⟩ := notMem_escapedChar hc
        have hother : ∀ x ∉ closing, (d == x) = false := fun x hx => beq_eq_false_iff_ne.mpr fun heq => hx (heq ▸ hp.1)
        rw [hmore, cons_append, isPrefixOf_cons_cons, isPrefixOf_cons_cons, hother e he, hother c hc]
        rfl

lemma closings_textChars (cs : List Char) : closings (textChars cs) = closings cs := by
  induction cs with
  | nil => rfl
  | cons c cs ih =>
    by_cases hc : c ∈ closing
    · have hsame := isPrefixOf_textChars (fun d hd => hd) (c :: cs)
      rw [textChars_cons, toList_escapedChar hc, singleton_append] at hsame ⊢
      rw [closings, closings, hsame, ih]
    · have hopening : c ≠ '<' := fun heq => hc (heq ▸ mem_cons_self)
      rw [textChars_cons, closes_of_notMem (notMem_escapedChar hc).1, zero_add, ih, closings_cons hopening]

lemma closes_writeText (s : String) : Closes (writeText s).toList (closings s.toList) := by
  rw [toList_writeText, ← closings_textChars, ← zero_add (closings _)]
  exact .append (a := ['"']) (closes_of_notMem (by decide)) (closes_concat _ (by decide))

lemma closes_scriptList {items : List Value} {count : Value → Nat}
    (h : ∀ v ∈ items, Closes (writeAt .line 1 v).toList (count v)) :
    Closes (scriptList items).toList (items.map count).sum := by
  have hinside : Closes (Layout.line.inside 0 (items.map (writeAt .line 1))).toList (items.map count).sum := by
    cases items with
    | nil => exact closes_of_notMem not_mem_nil
    | cons v vs =>
      have hjoined := closes_join_map ", " (by decide) h
      simpa [Layout.inside, Layout.newline, Layout.line] using hjoined
  unfold scriptList Json.write
  rw [writeAt, writeItems_eq, ← zero_add (sum _)]
  exact (Closes.and (s := "[") (closes_of_notMem (by decide)) hinside).and (t := "]") (closes_of_notMem (by decide))

lemma closes_scriptList_zero {items : List Value} (h : ∀ v ∈ items, Closes (writeAt .line 1 v).toList 0) :
    Closes (scriptList items).toList 0 := by
  have hall := closes_scriptList h
  rwa [sum_map_zero] at hall

/-! ## Rows -/

/-- A text without the signs of markup. -/
def IsUnmarked (s : String) : Prop := '<' ∉ s.toList ∧ '>' ∉ s.toList

lemma isUnmarked_escapeText (s : String) : IsUnmarked (escapeText s) := by
  have hchars : ∀ c, '<' ∉ escapeChar c ∧ '>' ∉ escapeChar c := by
    intro c
    unfold escapeChar
    split
    any_goals decide
    next hless hgreater _ _ =>
      exact ⟨fun h => hless (mem_singleton.mp h).symm, fun h => hgreater (mem_singleton.mp h).symm⟩
  unfold IsUnmarked escapeText
  simp only [String.toList_ofList, mem_flatMap, not_exists, not_and]
  exact ⟨fun c _ => (hchars c).1, fun c _ => (hchars c).2⟩

lemma isUnmarked_escape (v : Value) : IsUnmarked (escape v) := by
  unfold escape
  split
  · exact isUnmarked_escapeText _
  · exact ⟨not_mem_nil, not_mem_nil⟩

lemma IsUnmarked.closings_eq {s : String} (h : IsUnmarked s) : closings s.toList = 0 :=
  closings_eq_zero mem_cons_self h.1

/-- What a row shows of a finding, the line apart. -/
def Row.texts (r : Row) : List String := [r.file, r.function, r.kind, r.detail, r.remedy, r.score]

/-- All that a row shows of a finding. -/
def Row.cells (r : Row) : List String := r.line :: r.texts

lemma Level.notMem (level : Level) : '<' ∉ level.color.toList ∧ '<' ∉ (upper level.word).toList ∧
    '<' ∉ (capitalize level.word).toList := by
  cases level <;> decide

lemma Level.closings_badge (level : Level) : closings ("<span class=\"severity-badge\" style=\"background:"
    ++ level.color ++ "\">" ++ upper level.word ++ "</span>").toList = 0 := by
  have hstart : Closes "<span class=\"severity-badge\" style=\"background:".toList 0 :=
    closes_text (by decide)
  have hcolor := hstart.and (closes_of_notMem level.notMem.1)
  have hopening := hcolor.and (t := "\">") (closes_of_notMem (by decide))
  exact (closes_element hopening (closings_eq_zero mem_cons_self level.notMem.2.1) (by decide)).closings_eq

lemma Row.closes_markup {r : Row} (h : ∀ s ∈ r.texts, IsUnmarked s) (number : Nat) :
    Closes (r.markup number).toList (closings r.line.toList) := by
  have hcell : ∀ {s n}, closings s.toList = n → Closes ("          <td>" ++ s ++ "</td>").toList n := fun hs =>
    closes_element (closes_text (by decide)) hs (by decide)
  have hfile : Closes ("          <td class=\"filepath\">" ++ r.file ++ "</td>").toList 0 :=
    closes_element (closes_text (by decide)) (h r.file mem_cons_self).closings_eq (by decide)
  have htext : ∀ s ∈ r.texts, Closes ("          <td>" ++ s ++ "</td>").toList 0 := fun s hs => hcell (h s hs).closings_eq
  have hsum : closings r.line.toList = [0, 0, 0, 0, 0, closings r.line.toList, 0, 0, 0, 0, 0, 0].sum := by simp
  rw [hsum]
  refine closes_join (by decide) ?_
  simp only [forall₂_cons]
  simp only [texts, forall_mem_cons] at htext
  obtain ⟨-, hfunction, hkind, hdetail, hremedy, hscore, -⟩ := htext
  exact ⟨closes_of_notMem (by decide), closes_text (by decide), hcell (closes_nat number).closings_eq,
    hcell r.level.closings_badge, hfile, hcell rfl, hfunction, hkind, hdetail, hremedy, hscore,
    closes_text (by decide), .nil⟩

lemma closes_rowsMarkup (h : ∀ r ∈ table, ∀ s ∈ r.texts, IsUnmarked s) :
    Closes (rowsMarkup table).toList (table.map fun r => closings r.line.toList).sum := by
  have hrows : (table.zip (range table.length)).map Prod.fst = table := map_fst_zip (by simp)
  rw [← hrows, map_map, hrows]
  exact closes_join_map "\n" (by decide) fun entry hentry => Row.closes_markup (h entry.1 (of_mem_zip hentry).1) _

/-! ## What findings say -/

/-- The values of all fields are texts. -/
def IsTextual (r : Record) : Prop := ∀ field ∈ r, ∃ s, field.2 = .str s

/-- What the row of a finding shows as its line. -/
def lineText (r : Record) : String := (Report.firstOf r ["line", "lineno"] (.str "—")).text

lemma IsTextual.firstOf (h : IsTextual r) (names : List String) (default : String) :
    ∃ s, Report.firstOf r names (.str default) = .str s := by
  induction names with
  | nil => exact ⟨default, rfl⟩
  | cons name names ih =>
    unfold Report.firstOf
    split
    · next v hv => exact h _ (Record.mem_of_get? hv)
    · exact ih

/-- A row shows the line of its finding as it is, and the rest without the signs of markup. -/
lemma exists_of_rowOf (h : rowOf level finding = .ok row) :
    ∃ r, finding.fields = .ok r ∧ row.line = lineText r ∧ (IsTextual r → ∀ s ∈ row.texts, IsUnmarked s) := by
  obtain ⟨r, hfields, hrest⟩ := of_bind h
  obtain ⟨advice, -, hrest⟩ := of_bind hrest
  obtain ⟨score, hscore, hrow⟩ := of_bind hrest
  cases ok.inj hrow
  refine ⟨r, hfields, rfl, fun hr => ?_⟩
  have hnone : (r.getD "score" .null).number? = none := by
    unfold Record.getD
    cases hget : r.get? "score" with
    | none => rfl
    | some v =>
      obtain ⟨s, hs⟩ := hr _ (Record.mem_of_get? hget)
      cases hs
      rfl
  have hdash : score = "—" := by
    unfold scoreText at hscore
    rw [hnone] at hscore
    exact (ok.inj hscore).symm
  simp only [Row.texts, forall_mem_cons]
  exact ⟨isUnmarked_escape _, isUnmarked_escape _, isUnmarked_escape _, isUnmarked_escape _, isUnmarked_escapeText _,
    hdash ▸ ⟨by decide, by decide⟩, nofun⟩

variable {findings : List Record}

/-- The rows show the lines of all findings, in some order. -/
lemma lines_of_rows (hall : ∀ r ∈ findings, IsTextual r) (h : rows (findings.map .obj) = .ok table) :
    (table.map (·.line)).Perm (findings.map lineText) ∧ ∀ row ∈ table, ∀ s ∈ row.texts, IsUnmarked s := by
  obtain ⟨levelled, hlevelled, hrows⟩ := of_bind h
  have hsecond : ∀ f entry, (do return (← levelOf f, f) : Except Fault (Level × Value)) = .ok entry → entry.2 = f := by
    intro f entry hentry
    obtain ⟨level, -, hlevel⟩ := of_bind hentry
    cases ok.inj hlevel
    rfl
  have horder := mergeSort_perm levelled fun a b => decide (a.1.rank ≤ b.1.rank)
  constructor
  · have hlines : table.map (fun row => ok row.line) = (levelled.mergeSort fun a b => decide (a.1.rank ≤ b.1.rank)).map
        fun entry => entry.2.fields.map lineText := map_eq_of_mapM hrows fun entry row hrow => by
      obtain ⟨r, hfields, hline, -⟩ := exists_of_rowOf hrow
      rw [hfields, hline]
      rfl
    have hgiven : levelled.map (fun entry => entry.2.fields.map lineText) =
        (findings.map Value.obj).map fun f => f.fields.map lineText :=
      map_eq_of_mapM hlevelled fun f entry hentry => by rw [hsecond f entry hentry]
    have hperm := horder.map fun entry => entry.2.fields.map lineText
    rw [← hlines, hgiven, map_map] at hperm
    have hinj : Function.Injective (ok : String → Except Fault String) := fun _ _ => ok.inj
    rw [← map_perm_map_iff hinj, map_map, map_map]
    exact hperm
  · intro row hrow
    obtain ⟨entry, hentry, hrow⟩ := exists_mem_of_mapM hrows hrow
    obtain ⟨f, hf, hlevel⟩ := exists_mem_of_mapM hlevelled (horder.mem_iff.mp hentry)
    obtain ⟨r, hr, rfl⟩ := mem_map.mp hf
    obtain ⟨r', hfields, -, htexts⟩ := exists_of_rowOf hrow
    rw [hsecond _ _ hlevel] at hfields
    cases ok.inj hfields
    exact htexts (hall _ hr)

/-! ## Charts -/

variable {counts : List (Value × Nat)}

lemma mem_of_mem_tally (h : tally values = .ok counts) : ∀ entry ∈ counts, entry.1 ∈ values := by
  refine foldlM_invariant h (fun counts => ∀ entry ∈ counts, entry.1 ∈ values) nofun ?_
  intro v hv counts hcounts next hnext
  split at hnext
  · cases hnext
  split at hnext
  · cases ok.inj hnext
    intro entry hentry
    obtain ⟨old, hold, rfl⟩ := mem_map.mp hentry
    split <;> exact hcounts old hold
  · cases ok.inj hnext
    rw [forall_mem_append, forall_mem_singleton]
    exact ⟨hcounts, hv⟩

lemma mem_of_mem_mostCommon (h : entry ∈ mostCommon limit counts) : entry ∈ counts := by
  unfold mostCommon at h
  split at h
  · exact mem_mergeSort.mp (mem_of_mem_take h)
  · exact mem_mergeSort.mp h

/-- How often the labels of a chart end a script. -/
def Chart.closings (c : Chart) : Nat := (c.labels.map fun v => HtmlReport.closings v.text.toList).sum

lemma closes_counts (counts : List Nat) : Closes (scriptList (counts.map .nat)).toList 0 := by
  refine closes_scriptList_zero fun v hv => ?_
  obtain ⟨n, -, rfl⟩ := mem_map.mp hv
  rw [Value.nat, writeAt]
  exact closes_nat n

lemma Chart.closes_script {c : Chart} (h : ∀ v ∈ c.labels, ∃ s, v = .str s) : Closes c.script.toList c.closings := by
  have hlabels : Closes (scriptList c.labels).toList c.closings := by
    refine closes_scriptList fun v hv => ?_
    obtain ⟨s, rfl⟩ := h v hv
    rw [writeAt]
    exact closes_writeText s
  exact (hlabels.and (t := ", ") (closes_of_notMem (by decide))).and (closes_counts c.values)

/-- A chart whose labels end no script. -/
lemma Chart.closes_script_zero {c : Chart} (h : ∀ v ∈ c.labels, ∃ s, v = .str s ∧ HtmlReport.closings s.toList = 0) :
    Closes c.script.toList 0 := by
  have hzero : c.closings = 0 := by
    unfold closings
    rw [map_congr_left (g := fun _ => 0), sum_map_zero]
    intro v hv
    obtain ⟨s, rfl, hs⟩ := h v hv
    exact hs
  rw [← hzero]
  exact c.closes_script fun v hv => (h v hv).imp fun _ => And.left

variable (levels : List Level)

lemma closes_levelChart : Closes (levelChart levels).script.toList 0 := by
  refine Chart.closes_script_zero fun v hv => ?_
  obtain ⟨entry, -, rfl⟩ := mem_map.mp hv
  exact ⟨_, rfl, closings_eq_zero mem_cons_self entry.1.notMem.2.2⟩

lemma notMem_of_mem_fieldsAt (h : field ∈ Chars.fieldsAt sep cs) : sep ∉ field := by
  induction cs generalizing field with
  | nil =>
    cases mem_singleton.mp h
    exact not_mem_nil
  | cons c cs ih =>
    unfold Chars.fieldsAt at h
    split at h
    · rcases mem_cons.mp h with rfl | hrest
      · exact not_mem_nil
      · exact ih hrest
    · next hsep =>
      have hc : sep ≠ c := fun heq => hsep (beq_iff_eq.mpr heq.symm)
      obtain ⟨first, fields, hfields⟩ := exists_cons_of_ne_nil (Chars.fieldsAt_ne_nil sep cs)
      rw [hfields] at h ih
      rcases mem_cons.mp h with rfl | hrest
      · exact not_mem_cons_of_ne_of_not_mem hc (ih mem_cons_self)
      · exact ih (mem_cons_of_mem _ hrest)

/-- The last component of a path has no slash. -/
lemma closings_lastField (path : String) : closings ((fields '/' path).getLast?.getD "").toList = 0 := by
  refine closings_eq_zero (c := '/') (by decide) ?_
  cases hlast : (fields '/' path).getLast? with
  | none => exact not_mem_nil
  | some last =>
    obtain ⟨field, hfield, rfl⟩ := mem_map.mp (mem_of_getLast? hlast)
    rw [Option.getD_some, String.toList_ofList]
    exact notMem_of_mem_fieldsAt hfield

lemma closes_fileChart {findings : List Value} (h : fileChart findings = .ok files) : Closes files.script.toList 0 := by
  unfold fileChart at h
  obtain ⟨names, -, hrest⟩ := of_bind h
  obtain ⟨counts, -, hrest⟩ := of_bind hrest
  obtain ⟨limit, -, hrest⟩ := of_bind hrest
  obtain ⟨labels, hlabels, hfiles⟩ := of_bind hrest
  cases ok.inj hfiles
  refine Chart.closes_script_zero fun v hv => ?_
  obtain ⟨entry, -, hentry⟩ := exists_mem_of_mapM hlabels hv
  obtain ⟨path, -, hpath⟩ := of_bind hentry
  exact ⟨_, (ok.inj hpath).symm, closings_lastField path⟩

lemma closes_typeChart (hall : ∀ r ∈ findings, IsTextual r)
    (h : typeChart (findings.map .obj) = .ok types) : Closes types.script.toList types.closings := by
  obtain ⟨kinds, hkinds, hrest⟩ := of_bind h
  obtain ⟨counts, hcounts, htypes⟩ := of_bind hrest
  cases ok.inj htypes
  refine Chart.closes_script fun v hv => ?_
  obtain ⟨entry, hentry, rfl⟩ := mem_map.mp hv
  obtain ⟨finding, hfinding, hkind⟩ := exists_mem_of_mapM hkinds
    (mem_of_mem_tally hcounts entry (mem_of_mem_mostCommon hentry))
  obtain ⟨r, hr, rfl⟩ := mem_map.mp hfinding
  rw [← ok.inj hkind]
  exact (hall r hr).firstOf _ _

/-! ## The page -/

lemma closes_card (hstyle : '<' ∉ style.toList) (hnumber : '<' ∉ number.toList)
    (hlabel : '<' ∉ label.toList) : ∀ line ∈ card style number label, Closes line.toList 0 := by
  have hdiv : Closes "      <div class=\"number\"".toList 0 := closes_text (by decide)
  have hopening := (hdiv.and (closes_of_notMem hstyle)).and (t := ">") (closes_of_notMem (by decide))
  simp only [card, forall_mem_cons]
  exact ⟨closes_text (by decide), closes_element hopening (closings_eq_zero mem_cons_self hnumber) (by decide),
    closes_element (closes_text (by decide)) (closings_eq_zero mem_cons_self hlabel) (by decide),
    closes_text (by decide), nofun⟩

lemma closes_levelCard (level : Level) : ∀ line ∈ levelCard levels level, Closes line.toList 0 := by
  refine closes_card ?_ (notMem_padded 0 _) level.notMem.2.2
  simp only [String.toList_append, mem_append, not_or]
  exact ⟨⟨by decide, level.notMem.1⟩, by decide⟩

lemma closes_now (m : Moment) : Closes (m.dateText ++ " " ++ m.secondText ++ " UTC").toList 0 := by
  apply closes_of_notMem
  unfold Moment.dateText Moment.secondText Moment.minuteText Date.text
  simp only [String.toList_append, mem_append, notMem_zeroPadded, false_or, or_false]
  decide

lemma closes_colors : Closes (scriptList ((levelColors levels).map .str)).toList 0 := by
  refine closes_scriptList_zero fun v hv => ?_
  obtain ⟨color, hcolor, rfl⟩ := mem_map.mp hv
  obtain ⟨entry, -, rfl⟩ := mem_map.mp hcolor
  rw [writeAt, ← closings_eq_zero mem_cons_self entry.1.notMem.1]
  exact closes_writeText _

lemma closings_write (hall : ∀ r ∈ findings, IsTextual r) (hfiles : facts.fileCount = .nat files)
    (h : write facts (findings.map .obj) = .ok report) :
    ∃ table types, rows (findings.map .obj) = .ok table ∧ typeChart (findings.map .obj) = .ok types ∧
      closings report.toList = 1 + (findings.map fun r => closings (lineText r).toList).sum + types.closings := by
  obtain ⟨levels, -, hrest⟩ := of_bind h
  obtain ⟨names, hnames, hrest⟩ := of_bind hrest
  obtain ⟨types, htypes, hrest⟩ := of_bind hrest
  obtain ⟨table, htable, hrest⟩ := of_bind hrest
  obtain ⟨duration, hduration, hreport⟩ := of_bind hrest
  refine ⟨table, types, htable, htypes, ?_⟩
  cases ok.inj hreport
  obtain ⟨hlines, htexts⟩ := lines_of_rows hall htable
  have hcount : facts.fileCount.text = toString files := by
    rw [hfiles]
    rfl
  rw [hcount]
  have hcards : Closes (join "\n" (card "" (toString (findings.map Value.obj).length) "Total Findings"
      ++ [Level.critical, .high, .medium, .low].flatMap (levelCard levels)
      ++ card "" (toString files) "Files Scanned")).toList 0 := by
    refine closes_join_zero ?_
    simp only [forall_mem_append]
    refine ⟨⟨closes_card (by decide) (notMem_padded 0 _) (by decide), fun line hline => ?_⟩,
      closes_card (by decide) (notMem_padded 0 files) (by decide)⟩
    obtain ⟨level, -, hlevel⟩ := mem_flatMap.mp hline
    exact closes_levelCard levels level line hlevel
  have hpage := closes_start
    |>.and (closes_of_notMem (isUnmarked_escape facts.path).1)
    |>.and (t := "</strong> on ") (m := 0) (closes_text (by decide))
    |>.and (closes_now facts.now)
    |>.and (t := "</p>\n\n  <div class=\"cards\">\n") (m := 0) (closes_text (by decide))
    |>.and hcards
    |>.and (t := "\n") (m := 0) (closes_text (by decide))
    |>.and closes_charts
    |>.and (closes_rowsMarkup htexts)
    |>.and closes_footer
    |>.and (closes_twoPlaces hduration)
    |>.and (t := "s &bull; ") (m := 0) (closes_text (by decide))
    |>.and (closes_nat (findings.map Value.obj).length)
    |>.and (t := " findings across ") (m := 0) (closes_text (by decide))
    |>.and (closes_nat files)
    |>.and closes_script
    |>.and (closes_levelChart levels)
    |>.and (t := ", ") (m := 0) (closes_text (by decide))
    |>.and (closes_colors levels)
    |>.and (t := ");\n  drawBar('fileChart', ") (m := 0) (closes_text (by decide))
    |>.and (closes_fileChart hnames)
    |>.and (t := ", '#3b82f6');\n  drawBar('typeChart', ") (m := 0) (closes_text (by decide))
    |>.and (closes_typeChart hall htypes)
    |>.and closes_finish
  refine hpage.closings_eq.trans ?_
  have hsum := (hlines.map fun s => closings s.toList).sum_eq
  simp only [map_map, Function.comp_def] at hsum
  omega

/-- The page has its own end of a script only, and cells without signs of markup, exactly when no line of a finding has
such signs and no shown type ends a script: neither is escaped. -/
theorem unbroken_iff {facts : Report.Facts} {findings : List Record} {files : Nat} {report : String}
    (hall : ∀ r ∈ findings, IsTextual r) (hfiles : facts.fileCount = .nat files)
    (h : write facts (findings.map .obj) = .ok report) :
    ∃ table types, rows (findings.map .obj) = .ok table ∧ typeChart (findings.map .obj) = .ok types ∧
      closings report.toList = 1 + (findings.map fun r => closings (lineText r).toList).sum + types.closings ∧
      (∀ row ∈ table, ∀ s ∈ row.texts, IsUnmarked s) ∧
      ((closings report.toList = 1 ∧ ∀ row ∈ table, ∀ cell ∈ row.cells, IsUnmarked cell) ↔
        (∀ r ∈ findings, IsUnmarked (lineText r)) ∧ ∀ label ∈ types.labels, closings label.text.toList = 0) := by
  obtain ⟨table, types, htable, htypes, hcount⟩ := closings_write hall hfiles h
  obtain ⟨hlines, htexts⟩ := lines_of_rows hall htable
  have hcells : (∀ row ∈ table, ∀ cell ∈ row.cells, IsUnmarked cell) ↔ ∀ r ∈ findings, IsUnmarked (lineText r) := by
    rw [← forall_mem_map (f := lineText) (P := IsUnmarked)]
    simp only [← hlines.mem_iff, forall_mem_map, Row.cells, forall_mem_cons]
    exact ⟨fun hboth row hrow => (hboth row hrow).1, fun hline row hrow => ⟨hline row hrow, htexts row hrow⟩⟩
  refine ⟨table, types, htable, htypes, hcount, htexts, ?_⟩
  rw [hcells, hcount, and_comm]
  refine and_congr_right fun hunmarked => ?_
  have hzero : (findings.map fun r => closings (lineText r).toList).sum = 0 := by
    rw [sum_eq_zero_iff]
    simp only [forall_mem_map]
    exact fun r hr => (hunmarked r hr).closings_eq
  rw [hzero, add_zero, add_eq_left]
  unfold Chart.closings
  rw [sum_eq_zero_iff, forall_mem_map]

/-- A finding with markup in its line, whose type ends a script. -/
def hostile : Record := [("line", .str "<b>"), ("type", .str "</script>")]

theorem hostile_breaks : (∀ r ∈ [hostile], IsTextual r) ∧ ∃ report table,
    write { duration := .float 0.0, fileCount := .nat 1, now := ⟨0, 0⟩ } [.obj hostile] = .ok report ∧
      closings report.toList = 2 ∧ rows [.obj hostile] = .ok table ∧ table.map (·.line) = ["<b>"] := by
  have htextual : ∀ r ∈ [hostile], IsTextual r :=
    forall_mem_singleton.mpr (forall_mem_cons.mpr ⟨⟨_, rfl⟩, forall_mem_singleton.mpr ⟨_, rfl⟩⟩)
  have hwritten : (write { duration := .float 0.0, fileCount := .nat 1, now := ⟨0, 0⟩ } [.obj hostile]).isOk = true := by
    decide +kernel
  obtain ⟨report, hreport⟩ := isOk_iff.mp hwritten
  obtain ⟨table, types, htable, htypes, hcount, -⟩ := unbroken_iff htextual rfl hreport
  have hshown : (typeChart [.obj hostile]).toOption.map Chart.closings = some 1 := by decide +kernel
  have htypes : types.closings = 1 := Option.some.inj ((congrArg (·.toOption.map Chart.closings) htypes).symm.trans hshown)
  have hlines : table.map (·.line) = [lineText hostile] := perm_singleton.mp (lines_of_rows htextual htable).1
  exact ⟨htextual, report, table, hreport, hcount.trans (by rw [htypes]; decide), htable, hlines⟩

end CodeAudit.HtmlReport

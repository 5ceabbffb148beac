import CodeAudit.Table.Csv
import Mathlib.Data.List.Basic
import Mathlib.Tactic.Lemma

/-!
# Written records

Records are read as they were written (`readFrom_records`): what needs no quotes is read character by character, what
stands between quotes up to the quote that is not doubled, and behind either the reader is where it would be behind a
field without quotes. A strict reader asks for lines that do not start with a gap; the other one reads whatever the
fields hold (`read_write`).
-/

namespace CodeAudit.Csv

open List

variable {strict : Bool} {c : Char} {ending field seen rest : List Char} {row fields : List (List Char)}

/-! ## Fields -/

/-- A field in which no line ends, unless it is written between quotes. -/
def IsInLine (ending field : List Char) : Prop := needsQuotes ending field = false → ∀ c ∈ field, isLineEnd c = false

lemma plain_of_needsQuotes (h : needsQuotes ending field = false) : ∀ c ∈ field, (c ≠ ',' ∧ c ≠ '"') ∧ c ∉ ending :=
  fun c hc => by simpa using any_eq_false.mp h c hc

lemma readFrom_bare (hplain : ∀ c ∈ field, c ≠ ',' ∧ c ≠ '"') (hline : ∀ c ∈ field, isLineEnd c = false) :
    readFrom strict .bare seen row (field ++ rest) = readFrom strict .bare (field.reverse ++ seen) row rest := by
  induction field generalizing seen with
  | nil => rfl
  | cons c cs ih =>
    obtain ⟨⟨hc, hcs⟩, hend, hends⟩ := And.intro (forall_mem_cons.mp hplain) (forall_mem_cons.mp hline)
    have hstep : readFrom strict .bare seen row (c :: (cs ++ rest)) =
        readFrom strict .bare (c :: seen) row (cs ++ rest) := by
      simp [readFrom, Place.isStart, hc, hend]
    rw [cons_append, hstep, ih hcs hends, reverse_cons, append_assoc]
    rfl

lemma readFrom_doubled : readFrom strict .quoted seen row (doubled field ++ rest) =
    readFrom strict .quoted (field.reverse ++ seen) row rest := by
  induction field generalizing seen with
  | nil => rfl
  | cons c cs ih =>
    rw [reverse_cons, append_assoc]
    unfold doubled
    by_cases hquote : c = '"'
    · subst hquote
      exact ih
    · rw [if_neg (by simpa using hquote), cons_append, readFrom]
      simp only [beq_iff_eq, hquote, if_true, if_false]
      exact ih

lemma readFrom_eq_bare {place : Place} (hplace : place = .fieldStart ∨ place = .afterQuote) (hc : c ≠ '"') :
    readFrom strict place seen row (c :: rest) = readFrom strict .bare seen row (c :: rest) := by
  rcases hplace with rfl | rfl <;> simp [readFrom, Place.isStart, hc]

/-- After a written field the reader goes on as after one without quotes. -/
lemma readFrom_writeField (hc : c ≠ '"') (hline : IsInLine ending field) :
    readFrom strict .fieldStart [] row (writeField ending field ++ c :: rest) =
      readFrom strict .bare field.reverse row (c :: rest) := by
  unfold writeField
  cases hquotes : needsQuotes ending field with
  | true =>
    rw [if_pos rfl, cons_append, append_assoc]
    change readFrom strict .quoted [] row (doubled field ++ '"' :: c :: rest) = _
    rw [readFrom_doubled, append_nil]
    exact readFrom_eq_bare (.inr rfl) hc
  | false =>
    have hplain := plain_of_needsQuotes hquotes
    rw [if_neg (by decide), ← append_nil field.reverse, ← readFrom_bare (fun c hc => (hplain c hc).1) (hline hquotes)]
    cases field with
    | nil => exact readFrom_eq_bare (.inl rfl) hc
    | cons d ds => exact readFrom_eq_bare (.inl rfl) (hplain d mem_cons_self).1.2

/-! ## Lines -/

/-- The line ends that records are written with. -/
def lineEnds : List (List Char) := [['\n'], ['\r', '\n']]

lemma readFrom_ending (hending : ending ∈ lineEnds) : readFrom strict .bare seen row (ending ++ rest) =
    (readFrom strict .recordStart [] [] rest).map ((seen.reverse :: row).reverse :: ·) := by
  rcases mem_pair.mp hending with rfl | rfl
  · rfl
  · cases strict <;> rfl

lemma readFrom_writeFields (hending : ending ∈ lineEnds) (hne : fields ≠ [])
    (hline : ∀ field ∈ fields, IsInLine ending field) :
    readFrom strict .fieldStart [] row (writeFields ending fields ++ (ending ++ rest)) =
      (readFrom strict .recordStart [] [] rest).map ((row.reverse ++ fields) :: ·) := by
  induction fields generalizing row with
  | nil => exact absurd rfl hne
  | cons field fields ih =>
    obtain ⟨hfield, hfields⟩ := forall_mem_cons.mp hline
    cases fields with
    | nil =>
      have hread : readFrom strict .fieldStart [] row (writeField ending field ++ (ending ++ rest)) =
          readFrom strict .bare field.reverse row (ending ++ rest) := by
        rcases mem_pair.mp hending with rfl | rfl <;> exact readFrom_writeField (by decide) hfield
      rw [writeFields, hread, readFrom_ending hending, reverse_reverse, reverse_cons]
    | cons next fields =>
      change readFrom strict _ [] row ((writeField _ field ++ ',' :: writeFields _ (next :: fields)) ++ _) = _
      rw [append_assoc, cons_append, readFrom_writeField (by decide) hfield]
      change readFrom strict .fieldStart [] (field.reverse.reverse :: row) _ = _
      rw [reverse_reverse, ih (cons_ne_nil _ _) hfields, reverse_cons, append_assoc]
      rfl

lemma exists_head_writeFields {P : Char → Prop} (hquote : P '"') (hcomma : P ',') (hne : fields ≠ [[]])
    (hfirst : ∃ field more, fields = field :: more ∧ (needsQuotes ending field = false → ∀ c ∈ field.head?, P c)) :
    ∃ c cs, writeFields ending fields = c :: cs ∧ P c := by
  obtain ⟨field, more, rfl, hfirst⟩ := hfirst
  have hfield : field = [] ∨ ∃ c cs, writeField ending field = c :: cs ∧ P c := by
    unfold writeField
    cases hquotes : needsQuotes ending field with
    | true => exact .inr ⟨'"', _, rfl, hquote⟩
    | false =>
      cases field with
      | nil => exact .inl rfl
      | cons d ds => exact .inr ⟨d, ds, rfl, hfirst hquotes d rfl⟩
  cases more with
  | nil => exact hfield.resolve_left fun h => hne (congrArg ([·]) h)
  | cons next more =>
    rcases hfield with rfl | ⟨c, cs, hwritten, hc⟩
    · exact ⟨',', _, rfl, hcomma⟩
    · exact ⟨c, _, congrArg (· ++ ',' :: writeFields _ (next :: more)) hwritten, hc⟩

/-- A record that stands on one line, which for a strict reader does not start with a gap. -/
structure IsRecord (strict : Bool) (ending : List Char) (fields : List (List Char)) : Prop where
  line : ∀ field ∈ fields, IsInLine ending field
  starts : ∃ field more, fields = field :: more ∧ (strict → ∀ c ∈ field.head?, isGap c = false)

lemma readFrom_writeRecord (hending : ending ∈ lineEnds) (h : IsRecord strict ending fields) :
    readFrom strict .recordStart [] [] (writeRecord ending fields ++ rest) =
      (readFrom strict .recordStart [] [] rest).map (fields :: ·) := by
  obtain ⟨field, more, rfl, hstarts⟩ := h.starts
  unfold writeRecord
  by_cases hblank : field :: more = [[]]
  · rw [hblank]
    rcases mem_pair.mp hending with rfl | rfl <;> cases strict <;> rfl
  · have hfirst : needsQuotes ending field = false → ∀ c ∈ field.head?,
        isLineEnd c = false ∧ (strict → isGap c = false) := fun hquotes c hc =>
      ⟨h.line field mem_cons_self hquotes c (mem_of_mem_head? hc), fun hstrict => hstarts hstrict c hc⟩
    obtain ⟨c, cs, hwritten, hc, hgap⟩ :=
      exists_head_writeFields (P := fun c => isLineEnd c = false ∧ (strict → isGap c = false))
        ⟨rfl, fun _ => rfl⟩ ⟨rfl, fun _ => rfl⟩ hblank ⟨field, more, rfl, hfirst⟩
    have hread := @readFrom_writeFields strict ending rest [] _ hending (cons_ne_nil _ _) h.line
    rw [if_neg (by simpa using hblank), append_assoc]
    rw [hwritten] at hread ⊢
    refine Eq.trans ?_ hread
    rw [cons_append, readFrom, readFrom]
    cases strict <;> simp_all [Place.isStart]

/-- **Records are read as they were written.** -/
lemma readFrom_records {records : List (List (List Char))} (hending : ending ∈ lineEnds)
    (h : ∀ r ∈ records, IsRecord strict ending r) :
    readFrom strict .recordStart [] [] (records.flatMap (writeRecord ending)) = some records := by
  induction records with
  | nil => rfl
  | cons r records ih =>
    obtain ⟨hr, hrest⟩ := forall_mem_cons.mp h
    rw [flatMap_cons, readFrom_writeRecord hending hr, ih hrest]
    rfl

/-- With both signs of a line end in it, records are read back whatever their fields hold. -/
lemma read_write {records : List (List String)} (h : ∀ r ∈ records, r ≠ []) : read (write "\r\n" records) = records := by
  have hrecords : ∀ r ∈ records.map (·.map String.toList), IsRecord false ['\r', '\n'] r := by
    refine forall_mem_map.mpr fun r hr => ⟨fun field _ hquotes => ?_, ?_⟩
    · exact fun c hc => by simpa [isLineEnd, and_comm] using (plain_of_needsQuotes hquotes c hc).2
    · obtain ⟨field, more, hfields⟩ := exists_cons_of_ne_nil (h r hr)
      exact ⟨field.toList, more.map String.toList, by rw [hfields, map_cons], nofun⟩
  have hread := readFrom_records (by decide) hrecords
  rw [flatMap_map] at hread
  unfold read write
  rw [String.toList_ofList]
  change ((readFrom false _ _ _ (records.flatMap fun r => writeRecord ['\r', '\n'] _)).getD []).map _ = _
  rw [hread]
  simp [map_map, Function.comp_def]

end CodeAudit.Csv

import CodeAudit.Proofs.Json.Document
import CodeAudit.Proofs.Table.Columns
import CodeAudit.Proofs.Table.Records
import CodeAudit.Table.Reader
import Mathlib.Data.List.Nodup
import Mathlib.Data.List.TakeWhile

/-!
# Lines of a written table

A table is written as records with a line feed after each, and read by a strict reader, which cuts fields at a zero
character. It finds the fields that were written, as long as none holds a carriage return or a zero character and no
line starts with a blank (`fieldsOf?_write`).
-/

namespace CodeAudit.Table

open Csv List Bool

def isKept (c : Char) : Bool := c != '\r' && c != '\x00'

/-- Whether a character leaves the start of a line as it is: no blank, and no mark of the order of bytes. -/
def startsLine (c : Char) : Bool := c != ' ' && c != '\t' && c != '\ufeff'

/-- A record that is written on a line which is not blank. -/
structure IsLine (fields : List (List Char)) : Prop where
  kept : ∀ field ∈ fields, field.all isKept
  starts : ∃ c cs more, fields = (c :: cs) :: more ∧ startsLine c

lemma IsLine.isRecord {fields : List (List Char)} (h : IsLine fields) : IsRecord true ['\n'] fields := by
  refine ⟨fun field hfield hquotes c hc => ?_, ?_⟩
  · have hkept := all_eq_true.mp (h.kept field hfield) c hc
    have hfeed := (plain_of_needsQuotes hquotes c hc).2
    simp_all [isKept, isLineEnd]
  · obtain ⟨c, cs, more, rfl, hstarts⟩ := h.starts
    exact ⟨_, more, rfl, fun _ d hd => by simp_all [startsLine, isGap]⟩

lemma fieldText_toList {field : String} (h : field.toList.all isKept) : fieldText field.toList = field := by
  have hall : field.toList.takeWhile (· != '\x00') = field.toList := by
    rw [takeWhile_eq_self_iff]
    intro c hc
    exact (and_eq_true_iff.mp (all_eq_true.mp h c hc)).2
  unfold fieldText
  rw [hall, String.ofList_toList]

lemma head?_written {lines : List (List (List Char))} (h : ∀ fields ∈ lines, IsLine fields) :
    (lines.flatMap (writeRecord ['\n'])).head? ≠ some '\ufeff' := by
  cases lines with
  | nil => exact (Option.some_ne_none _).symm
  | cons fields lines =>
    obtain ⟨c, cs, more, rfl, hstarts⟩ := (h _ mem_cons_self).starts
    obtain ⟨d, ds, hwritten, hd⟩ := @exists_head_writeFields ['\n'] ((c :: cs) :: more) (· ≠ '\ufeff') (by decide)
      (by decide) (by simp) ⟨_, more, rfl, fun _ d hd => by simp_all [startsLine]⟩
    rw [flatMap_cons, writeRecord, if_neg (by simp), hwritten]
    exact fun heq => hd (Option.some.inj heq)

/-- What is read of written records are their fields. -/
lemma fieldsOf?_write {records : List (List String)} (h : ∀ r ∈ records, IsLine (r.map String.toList)) :
    fieldsOf? (Csv.write "\n" records) = some records := by
  have hwritten : (Csv.write "\n" records).toList = (records.map (·.map String.toList)).flatMap (writeRecord ['\n']) := by
    unfold Csv.write
    rw [String.toList_ofList, flatMap_map]
    rfl
  have htexts : (records.map (·.map String.toList)).map (·.map fieldText) = records := by
    rw [map_map]
    refine (map_congr_left fun r hr => ?_).trans (map_id records)
    rw [Function.comp_apply, map_map]
    refine (map_congr_left fun field hfield => ?_).trans (map_id r)
    exact fieldText_toList ((h r hr).kept _ (mem_map_of_mem hfield))
  have hread := readFrom_records (by decide) (forall_mem_map.mpr fun r hr => (h r hr).isRecord)
  have hmark := head?_written (forall_mem_map.mpr h)
  unfold fieldsOf?
  dsimp only
  rw [hwritten]
  split
  · next hcs => exact absurd (congrArg head? hcs) hmark
  · rw [hread]
    exact congrArg some htexts

/-!
## Texts of cells

Cells are written in a form that is read back character by character. A text inside a list is quoted, which shows a
carriage return or a zero character by its escape, so the text of a list is kept; a text in a cell of its own stands as
it is.
-/

open Json Text Value

def keepsText (s : String) : Bool := s.toList.all isKept

lemma keepsText_append (s t : String) : keepsText (s ++ t) = (keepsText s && keepsText t) := by
  unfold keepsText
  rw [String.toList_append, all_append]

lemma keepsText_of_areShown (h : AreShown s.toList) : keepsText s := by
  refine all_eq_true.mpr fun c hc => ?_
  have hshown := h c hc
  unfold isKept
  rw [and_eq_true, bne_iff_ne, bne_iff_ne]
  constructor
  · rintro rfl
    exact absurd hshown (by decide)
  · rintro rfl
    exact absurd hshown (by decide)

lemma keepsText_toString (n : Int) : keepsText (toString n) :=
  keepsText_of_areShown (areShown_of_arePlain (arePlain_toString n))

lemma keepsText_plain (x : Float) : keepsText (Decimal.plain x) :=
  keepsText_of_areShown (areShown_of_arePlain (arePlain_plain x))

/-! ## Lists -/

lemma keepsText_list (h : ∀ v ∈ items, Text.AreShown v.quoted.toList) : keepsText (Value.list items).quoted := by
  rw [Value.quoted, keepsText_append, keepsText_append, keepsText_of_areShown (areShown_quotedItems h)]
  decide

lemma keepsText_texts (ts : List String) : keepsText (Value.texts ts).quoted := by
  refine keepsText_list fun v hv => ?_
  obtain ⟨s, -, rfl⟩ := mem_map.mp hv
  rw [Value.quoted]
  exact areShown_quoted s

lemma areShown_pair (n : Nat) (s : String) : AreShown (tuple [.nat n, .str s]).quoted.toList := by
  have hitems : AreShown (quotedItems [.nat n, .str s]).toList := by
    refine areShown_quotedItems fun v hv => ?_
    rcases mem_cons.mp hv with rfl | hv
    · exact areShown_of_arePlain (arePlain_toString n)
    · rw [mem_singleton.mp hv, Value.quoted]
      exact areShown_quoted s
  change AreShown ("(" ++ quotedItems [.nat n, .str s] ++ ")").toList
  rw [String.toList_append, String.toList_append]
  have hends : ArePlain "(".toList ∧ ArePlain ")".toList := ⟨arePlain_of_all (by decide), arePlain_of_all (by decide)⟩
  exact ((areShown_of_arePlain hends.1).append hitems).append (areShown_of_arePlain hends.2)

/-!
## Tables that are written and read back

What is read of a written table has the same names and rows, and each column is guessed from the texts of its cells
(`read_lines`). A column of lists and gaps comes back with the text of each list and the double that is not a number
for each gap (`columnOfFields_of_words`).
-/

open Proofs

/-! ## Names -/

/-- Names that are all different stay as they are: none has been asked for when its turn comes. -/
lemma distinctFrom_of_nodup (hdistinct : header.toList.Nodup) {order : List Nat} (horder : order.Nodup)
    (hbound : ∀ i ∈ order, i < header.size) (hfresh : ∀ i ∈ order, ∀ entry ∈ asked, entry.1 ≠ header[i]?.getD "") :
    distinctFrom header asked order = header := by
  induction order generalizing asked with
  | nil => rfl
  | cons i rest ih =>
    obtain ⟨hnew, hrest⟩ := nodup_cons.mp horder
    have hnone : asked.lookup (header[i]?.getD "") = none := by
      rw [lookup_eq_none_iff]
      intro entry hentry
      have hne := hfresh i mem_cons_self entry hentry
      simpa using hne.symm
    unfold distinctFrom
    dsimp only
    rw [hnone]
    refine ih hrest (fun j hj => hbound j (mem_cons_of_mem _ hj)) fun j hj entry hentry => ?_
    rcases mem_cons.mp hentry with rfl | hold
    · -- two places of the header have different names
      have hi : i < header.toList.length := hbound i mem_cons_self
      have hj' : j < header.toList.length := hbound j (mem_cons_of_mem _ hj)
      intro hsame
      rw [← Array.getElem?_toList, ← Array.getElem?_toList, getElem?_eq_getElem hi, getElem?_eq_getElem hj'] at hsame
      have heq : i = j := (Nodup.getElem_inj_iff hdistinct).mp hsame
      exact hnew (heq ▸ hj)
    · exact hfresh j (mem_cons_of_mem _ hj) entry (mem_filter.mp hold).1

lemma distinctNames_of_nodup {names : List String} (hdistinct : names.Nodup)
    (hnamed : ∀ name ∈ names, name.isEmpty = false) : distinctNames names = names := by
  have hnames : (names.zipIdx.map fun entry => if entry.1.isEmpty then s!"Unnamed: {entry.2}" else entry.1) = names := by
    refine (map_congr_left fun entry hentry => ?_).trans (zipIdx_map_fst 0 names)
    have hname := hnamed entry.1 (fst_mem_of_mem_zipIdx hentry)
    simp [hname]
  have hplaces : (names.zipIdx.map fun entry => (entry.1.isEmpty, entry.2)) =
      (range names.length).map fun i => (false, i) := by
    rw [range_eq_range', ← zipIdx_map_snd 0 names, map_map]
    refine map_congr_left fun entry hentry => ?_
    have hname := hnamed entry.1 (fst_mem_of_mem_zipIdx hentry)
    simp [hname]
  have hall : ((range names.length).map fun i => (false, i)).filter (fun p => !p.1) =
      (range names.length).map fun i => (false, i) := by
    rw [filter_eq_self]
    intro p hp
    obtain ⟨i, -, rfl⟩ := mem_map.mp hp
    rfl
  have hnone : ((range names.length).map fun i => (false, i)).filter (·.1) = [] := by
    rw [filter_eq_nil_iff]
    intro p hp
    obtain ⟨i, -, rfl⟩ := mem_map.mp hp
    exact false_ne_true
  unfold distinctNames
  dsimp only
  rw [hnames, hplaces, hall, hnone, append_nil, map_map]
  refine congrArg Array.toList (distinctFrom_of_nodup hdistinct ?_ ?_ fun _ _ entry hentry => absurd hentry not_mem_nil)
  · exact (map_id (range names.length)).symm ▸ nodup_range
  · intro i hi
    obtain ⟨j, hj, rfl⟩ := mem_map.mp hi
    exact mem_range.mp hj

/-! ## Rows -/

/-- The lines of a table as they are written: its names, and the texts of its cells row by row. -/
def textRows (t : Table) : List (List String) := t.names :: t.rows.map (·.map cellText)

/-- A table that can be read back: columns of one length with different names, and lines that are read as written. -/
structure IsReadable (t : Table) : Prop where
  even : ∀ column ∈ t.columns, column.2.cells.length = t.height
  distinct : t.names.Nodup
  named : ∀ name ∈ t.names, name.isEmpty = false
  lines : ∀ r ∈ t.textRows, IsLine (r.map String.toList)

lemma join_lines (t : Table) : String.join t.lines = Csv.write "\n" t.textRows := by
  rw [← String.toList_inj, String.toList_join]
  unfold lines Csv.write textRows
  dsimp only
  rw [flatMap_map, String.toList_ofList, String.toList_ofList]
  refine flatMap_congr fun r _ => ?_
  rw [String.toList_ofList, flatMap_cons, flatMap_nil, append_nil]

variable {t : Table} {column : String × Column}

lemma length_of_mem_rows {row : List Value} (h : row ∈ t.rows) : row.length = t.columns.length := by
  obtain ⟨i, -, rfl⟩ := mem_map.mp h
  rw [length_map, length_map]

lemma rows_eq (t : Table) : t.rows = (range t.height).map fun i =>
    t.columns.map fun column => column.2.cells[i]?.getD .null := by
  unfold rows
  simp only [map_map, Function.comp_def, getElem?_toArray]

lemma map_getElem?_rows {i : Nat} (hcolumn : t.columns[i]? = some column) (heven : column.2.cells.length = t.height) :
    t.rows.map (fun row => row[i]?.getD .null) = column.2.cells := by
  have hcell : ∀ k : Nat, ((t.columns.map fun column => column.2.cells[k]?.getD .null)[i]?).getD null =
      column.2.cells[k]?.getD .null := by
    intro k
    rw [getElem?_map, hcolumn]
    rfl
  rw [rows_eq, map_map, ← heven]
  refine ext_getElem (by rw [length_map, length_range]) fun k hk hk' => ?_
  rw [getElem_map, getElem_range, Function.comp_apply, hcell, getElem?_eq_getElem hk']
  rfl

lemma levelled_textRows (t : Table) : levelled t.names.length (t.rows.map (·.map cellText)) =
    .ok (t.names.length, t.rows.map (·.map cellText)) := by
  have hlengths : ∀ r ∈ t.rows.map (·.map cellText), r.length = t.names.length := by
    intro r hr
    obtain ⟨row, hrow, rfl⟩ := mem_map.mp hr
    unfold names
    rw [length_map, length_map, length_of_mem_rows hrow]
  generalize t.rows.map (·.map cellText) = rows at hlengths ⊢
  have hwidth : max t.names.length ((rows.head?.map length).getD 0) = t.names.length := by
    cases rows with
    | nil => exact Nat.max_eq_left (Nat.zero_le _)
    | cons r rest =>
      change max t.names.length r.length = _
      rw [hlengths r mem_cons_self, Nat.max_self]
  have hfits : ¬ (rows.any fun r => t.names.length < r.length) := by
    rw [any_eq_true]
    rintro ⟨r, hr, hlonger⟩
    rw [hlengths r hr] at hlonger
    exact absurd hlonger (by simp)
  unfold levelled
  dsimp only
  rw [hwidth, if_neg hfits]
  refine congrArg (fun filled => Except.ok (t.names.length, filled)) ?_
  refine (map_congr_left fun r hr => ?_).trans (map_id rows)
  rw [hlengths r hr, Nat.sub_self, replicate_zero, append_nil]
  rfl

/-- A table as it comes back: with its names and height, and each column guessed from the texts of its cells. -/
def reread (t : Table) : Table where
  columns := t.columns.map fun column => (column.1, columnOfFields (column.2.cells.map cellText))
  height := t.height

/-- A readable table comes back. -/
lemma read_lines (h : t.IsReadable) : read (String.join t.lines) = .ok t.reread := by
  have hfields : fieldsOf? (String.join t.lines) = some t.textRows := by
    rw [join_lines]
    exact fieldsOf?_write h.lines
  have hheight : (t.rows.map (·.map cellText)).length = t.height := by
    unfold rows
    rw [length_map, length_map, length_range]
  have hcolumns : t.names.zipIdx.map (fun entry => (entry.1, columnOfFields
      ((t.rows.map (·.map cellText)).map fun r => r[entry.2]?.getD ""))) =
        t.columns.map fun column => (column.1, columnOfFields (column.2.cells.map cellText)) := by
    have hzip : t.names.zipIdx = t.columns.zipIdx.map (Prod.map (·.1) id) := zipIdx_map
    have hcolumns : t.columns.map (fun column => (column.1, columnOfFields (column.2.cells.map cellText))) =
        t.columns.zipIdx.map fun entry => (entry.1.1, columnOfFields (entry.1.2.cells.map cellText)) := by
      conv => lhs; rw [← zipIdx_map_fst 0 t.columns, map_map]
      rfl
    rw [hzip, map_map, hcolumns]
    refine map_congr_left fun entry hentry => ?_
    have hcolumn : t.columns[entry.2]? = some entry.1 := mem_zipIdx_iff_getElem?.mp hentry
    have heven := h.even entry.1 (mem_of_getElem? hcolumn)
    change (entry.1.1, _) = (entry.1.1, _)
    rw [← map_getElem?_rows hcolumn heven, map_map, map_map]
    refine congrArg (fun fields => (entry.1.1, columnOfFields fields)) (map_congr_left fun row hrow => ?_)
    have hi : entry.2 < row.length := by
      rw [length_of_mem_rows hrow]
      exact List.getElem?_eq_some_iff.mp hcolumn |>.1
    change ((row.map cellText)[entry.2]?).getD "" = cellText ((row[entry.2]?).getD .null)
    rw [getElem?_map, getElem?_eq_getElem hi]
    rfl
  unfold read
  rw [hfields]
  unfold textRows
  dsimp only
  rw [levelled_textRows, ok_bind]
  dsimp only
  unfold reread
  rw [distinctNames_of_nodup h.distinct h.named, hheight, ← hcolumns, Nat.sub_self]
  simp only [drop_zero, map_map, Function.comp_def, getElem?_toArray]
  rfl

/-! ## Columns of words -/

/-- A field that is read as text whatever stands beside it: no gap, no number and no truth value. -/
structure IsWord (s : String) : Prop where
  present : gapWords.contains s = false
  numeral : ∀ low high, numeral low high s = .none
  finite : finite? s = none
  infinite : infinite? s = none
  truth : truth? s = none

section Words

variable {fields : List String} (hall : ∀ s ∈ fields, gapWords.contains s ∨ IsWord s)
  (hword : ∃ s ∈ fields, IsWord s)

include hall hword

lemma numerals_of_words (low high : Int) : numerals low high fields = .error .none := by
  induction fields with
  | nil =>
    obtain ⟨s, hs, -⟩ := hword
    cases hs
  | cons s rest ih =>
    unfold numerals
    rcases hall s mem_cons_self with hgap | hs
    · have hrest : ∃ s ∈ rest, IsWord s := by
        obtain ⟨w, hw, hisWord⟩ := hword
        rcases mem_cons.mp hw with rfl | hin
        · rw [hisWord.present] at hgap
          cases hgap
        · exact ⟨w, hin, hisWord⟩
      rw [if_pos hgap, ih (fun w hw => hall w (mem_cons_of_mem _ hw)) hrest]
      rfl
    · rw [hs.present, if_neg Bool.false_ne_true, hs.numeral]

omit hall in
lemma cellsBy_of_words {read : String → Option Value} (hread : ∀ s, IsWord s → read s = none) :
    cellsBy read fields = none := by
  unfold cellsBy
  induction fields with
  | nil =>
    obtain ⟨s, hs, -⟩ := hword
    cases hs
  | cons s rest ih =>
    rw [mapM_cons]
    obtain ⟨w, hw, hisWord⟩ := hword
    rcases mem_cons.mp hw with rfl | hin
    · rw [hisWord.present, if_neg Bool.false_ne_true, hread w hisWord]
      rfl
    · rw [ih ⟨w, hin, hisWord⟩]
      split
      · rfl
      · cases read s <;> rfl

/-- A column of words and gaps is one of text. -/
lemma columnOfFields_of_words : columnOfFields fields = textColumn true fields := by
  have hwhole : tryWhole fields = .unfit := by
    unfold tryWhole
    rw [numerals_of_words hall hword]
  have hdoubles := @cellsBy_of_words fields hword
    (fun s => ((finite? s).orElse fun _ => infinite? s).map .float) fun s hs => by rw [hs.finite, hs.infinite]; rfl
  have htruths := @cellsBy_of_words fields hword (fun s => (truth? s).map .bool) fun s hs => by rw [hs.truth]; rfl
  unfold columnOfFields
  rw [hwhole]
  dsimp only
  rw [hdoubles]
  dsimp only
  rw [htruths]

end Words

lemma contains_ofList_cons {words : List String} (h : (words.all fun w => w.toList.head? != some c))
    (cs : List Char) : words.contains (String.ofList (c :: cs)) = false := by
  rw [eq_false_iff]
  intro hcontains
  have hfirst := all_eq_true.mp h _ (contains_iff_mem.mp hcontains)
  rw [String.toList_ofList] at hfirst
  simp at hfirst

lemma isWord_bracket (cs : List Char) : IsWord (String.ofList ('[' :: cs)) := by
  have hword : (String.ofList ('[' :: cs)).toList.map Char.toLower = '[' :: cs.map Char.toLower := by
    rw [String.toList_ofList]
    rfl
  refine ⟨contains_ofList_cons (by decide) cs, fun low high => ?_, ?_, ?_, ?_⟩
  · unfold numeral
    rw [String.toList_ofList]
    rfl
  · unfold finite?
    rw [String.toList_ofList]
    rfl
  · unfold infinite?
    dsimp only
    rw [hword, contains_ofList_cons (by decide), contains_ofList_cons (by decide)]
    rfl
  · have hother : ∀ w : String, w.toList.head? ≠ some '[' → (String.ofList ('[' :: cs.map Char.toLower) == w) = false := by
      intro w hw
      rw [beq_eq_false_iff_ne]
      rintro rfl
      exact hw (by rw [String.toList_ofList]; rfl)
    unfold truth?
    dsimp only
    rw [hword, hother "true" (by decide), hother "false" (by decide)]
    rfl

/-! ## Records -/

lemma records_eq (t : Table) : t.records = (range t.height).map fun i =>
    t.columns.map fun column => (column.1, column.2.cells[i]?.getD .null) := by
  unfold records names
  rw [rows_eq, map_map]
  refine map_congr_left fun i _ => ?_
  exact zip_map'

lemma get?_map_columns {columns : List (String × Column)} (hdistinct : (columns.map (·.1)).Nodup)
    (h : column ∈ columns) (value : String × Column → Value) :
    Record.get? (columns.map fun column => (column.1, value column)) column.1 = some (value column) := by
  have hnames : Record.names (columns.map fun column => (column.1, value column)) = columns.map (·.1) := by
    unfold Record.names
    rw [map_map]
    rfl
  exact Record.get?_of_mem (hnames.symm ▸ hdistinct) (mem_map_of_mem (f := fun column => (column.1, value column)) h)

/-!
## Records in a stored table

Records that begin with a word under the same name make a table that can be read back (`isReadable_ofRecords`). A field
of texts or lists comes back as the text of each value, and as a gap where there is none (`mem_columns_reread`).
-/

open Decimal Column Record

/-! ## Cells -/

lemma keepsText_cellText_float (x : Float) : keepsText (float x).cellText := by
  change keepsText (if x.isNaN then "" else plain x)
  split
  · rfl
  · exact keepsText_plain x

/-- A column keeps what its cells keep: it has the cells, or doubles in their place. -/
lemma keepsText_ofCells {cells : List Value} (h : ofCells cells = .ok c)
    (hkept : ∀ v ∈ cells, keepsText v.cellText) (hv : v ∈ c.cells) : keepsText v.cellText := by
  rcases ofCells_cases h with hsame | hdoubles
  · rw [hsame] at hv
    exact hkept v hv
  · rw [hdoubles] at hv
    obtain ⟨x, -, rfl⟩ := mem_map.mp hv
    exact keepsText_cellText_float x

/-! ## Records that can be stored -/

def startsText (s : String) : Bool := s.toList.head?.any startsLine

/-- A record that begins with a word under the given name and holds only what a line keeps. -/
structure IsStorable (key : String) (r : Record) : Prop where
  first : ∃ word rest, r = (key, .str word) :: rest ∧ startsText word
  named : ∀ name ∈ r.names, name.isEmpty = false ∧ keepsText name
  cells : ∀ field ∈ r, keepsText field.2.cellText

variable {r : Record} {records : List Record} {t : Table}

lemma IsStorable.concat (h : IsStorable key r) {field : String × Value}
    (hname : field.1.isEmpty = false ∧ keepsText field.1) (hcell : keepsText field.2.cellText) :
    IsStorable key (r ++ [field]) := by
  obtain ⟨⟨word, rest, rfl, hword⟩, hnamed, hcells⟩ := h
  refine ⟨⟨word, rest ++ [field], rfl, hword⟩, ?_, ?_⟩
  · intro name hmem
    unfold Record.names at hmem
    rw [map_append, mem_append] at hmem
    rcases hmem with hold | hnew
    · exact hnamed name hold
    · rw [mem_singleton.mp hnew]
      exact hname
  · intro other hmem
    rcases mem_append.mp hmem with hold | hnew
    · exact hcells other hold
    · rw [mem_singleton.mp hnew]
      exact hcell

lemma isLine_of_starts (hstarts : startsText s)
    (hkept : ∀ field ∈ s :: more, keepsText field) : IsLine ((s :: more).map String.toList) := by
  refine ⟨fun field hfield => ?_, ?_⟩
  · obtain ⟨text, htext, rfl⟩ := mem_map.mp hfield
    exact hkept text htext
  · unfold startsText at hstarts
    obtain ⟨c, hc, hstarts⟩ := (Option.any_eq_true _ _).mp hstarts
    obtain ⟨cs, hcs⟩ := head?_eq_some_iff.mp hc
    exact ⟨c, cs, more.map String.toList, by rw [map_cons, hcs], hstarts⟩

section Storable

variable {key : String} {records : List Record} {t : Table} (hall : ∀ r ∈ records, IsStorable key r)
  (ht : ofRecords records = .ok t)

include hall

lemma getD_key (hr : r ∈ records) (default : Value) : ∃ word, getD r key default = .str word ∧ startsText word := by
  obtain ⟨word, rest, rfl, hword⟩ := (hall r hr).first
  refine ⟨word, ?_, hword⟩
  unfold Record.getD
  rw [get?_cons, if_pos rfl]
  rfl

include ht

lemma keepsText_of_mem_columns (hcolumn : column ∈ t.columns) (hv : v ∈ column.2.cells) : keepsText v.cellText := by
  obtain ⟨-, hcolumns⟩ := ofRecords_eq_ok.mp ht
  obtain ⟨name, -, -, hcells⟩ := exists_mem_of_forall₂ hcolumns hcolumn
  refine keepsText_ofCells hcells (fun cell hcell => ?_) hv
  obtain ⟨r, hr, rfl⟩ := mem_map.mp hcell
  unfold Record.getD
  cases hget : r.get? name with
  | none => exact keepsText_cellText_float _
  | some value => exact (hall r hr).cells _ (mem_of_get? hget)

variable (hne : records ≠ [])

include hne

lemma exists_key_column : ∃ more, t.columns =
    (key, .mixed (records.map fun r => Record.getD r key (.float gap))) :: more := by
  obtain ⟨-, hcolumns⟩ := ofRecords_eq_ok.mp ht
  obtain ⟨names, hnames⟩ : ∃ names, (records.flatMap Record.names).eraseDups = key :: names := by
    cases records with
    | nil => exact absurd rfl hne
    | cons r rest =>
      obtain ⟨word, fields, rfl, -⟩ := (hall r mem_cons_self).first
      exact ⟨_, eraseDups_cons⟩
  have hother : ∀ cell ∈ records.map fun r => Record.getD r key (.float gap), isOther cell := by
    intro cell hcell
    obtain ⟨r, hr, rfl⟩ := mem_map.mp hcell
    obtain ⟨word, hword, -⟩ := getD_key hall hr (.float gap)
    rw [hword]
    rfl
  obtain ⟨r, hr⟩ := exists_mem_of_ne_nil _ hne
  have hmixed := ofCells_of_other (fun cell hcell => .inr (hother cell hcell))
    ⟨_, mem_map_of_mem hr, hother _ (mem_map_of_mem hr)⟩
  rw [hnames] at hcolumns
  obtain ⟨column, more, ⟨hname, hcells⟩, -, heq⟩ := forall₂_cons_left_iff.mp hcolumns
  rw [hmixed] at hcells
  have hcolumn : column = (key, .mixed (records.map fun r => Record.getD r key (.float gap))) :=
    Prod.ext hname (Except.ok.inj hcells).symm
  exact ⟨more, hcolumn ▸ heq⟩

/-- Records that can be stored make a table that can be read back. -/
lemma isReadable_ofRecords (hkey : startsText key) : t.IsReadable := by
  obtain ⟨hheight, hcolumns⟩ := ofRecords_eq_ok.mp ht
  have hnames := names_ofRecords ht
  have hnamed : ∀ name ∈ t.names, name.isEmpty = false ∧ keepsText name := by
    intro name hname
    rw [hnames, mem_eraseDups] at hname
    obtain ⟨r, hr, hname⟩ := mem_flatMap.mp hname
    exact (hall r hr).named name hname
  obtain ⟨more, hfirst⟩ := exists_key_column hall ht hne
  refine ⟨fun column hcolumn => ?_, nodup_names_ofRecords ht, fun name hname => (hnamed name hname).1, fun r hr => ?_⟩
  · obtain ⟨name, -, -, hcells⟩ := exists_mem_of_forall₂ hcolumns hcolumn
    rw [length_ofCells hcells, length_map, hheight]
  rcases mem_cons.mp hr with rfl | hr
  · have hkept : ∀ name ∈ t.names, keepsText name := fun name hname => (hnamed name hname).2
    unfold names at hkept ⊢
    rw [hfirst] at hkept ⊢
    exact isLine_of_starts hkey hkept
  · obtain ⟨row, hrow, rfl⟩ := mem_map.mp hr
    rw [rows_eq] at hrow
    obtain ⟨i, hi, rfl⟩ := mem_map.mp hrow
    have hkept : ∀ text ∈ (t.columns.map fun column => column.2.cells[i]?.getD .null).map cellText, keepsText text := by
      intro text htext
      obtain ⟨cell, hcell, rfl⟩ := mem_map.mp htext
      obtain ⟨column, hcolumn, rfl⟩ := mem_map.mp hcell
      cases hget : column.2.cells[i]? with
      | none => rfl
      | some v => exact keepsText_of_mem_columns hall ht hcolumn (mem_of_getElem? hget)
    -- the row begins with the word of its record
    have hi' : i < records.length := by
      rw [← hheight]
      exact mem_range.mp hi
    obtain ⟨word, hword, hstarts⟩ := getD_key hall (getElem_mem hi') (.float gap)
    have hcell : (records.map fun r => getD r key (.float gap))[i]?.getD .null = .str word := by
      rw [getElem?_map, getElem?_eq_getElem hi']
      exact hword
    rw [hfirst] at hkept ⊢
    rw [map_cons, map_cons] at hkept ⊢
    change ∀ text ∈ cellText ((records.map fun r => getD r key (.float gap))[i]?.getD .null) :: _, _
      at hkept
    change IsLine ((cellText ((records.map fun r => getD r key (.float gap))[i]?.getD .null) :: _).map
      String.toList)
    rw [hcell] at hkept ⊢
    exact isLine_of_starts hstarts hkept

end Storable

/-! ## What comes back -/

/-- What comes back of a field that is a text, a list or absent. -/
def storedCell (value : Option Value) : Value := (value.map fun v => .str v.cellText).getD (.float gap)

/-- A field of words or lists comes back with the text of each value, and a gap from every other record. -/
lemma mem_columns_reread (ht : ofRecords records = .ok t)
    (hwords : ∀ r ∈ records, ∀ v, r.get? name = some v → isOther v ∧ IsWord v.cellText)
    (hsome : ∃ r ∈ records, ∃ v, r.get? name = some v) :
    (name, .mixed (records.map fun r => storedCell (r.get? name))) ∈ t.reread.columns := by
  obtain ⟨r, hr, v, hv⟩ := hsome
  have hname : name ∈ r.names := mem_map.mpr ⟨_, mem_of_get? hv, rfl⟩
  have hgap : (float gap).cellText = "" := by decide +kernel
  -- the value of a record, and the gap of one that has none
  have hcases : ∀ r ∈ records, (r.get? name = none ∧ getD r name (.float gap) = .float gap) ∨
      ∃ v, r.get? name = some v ∧ getD r name (.float gap) = v := by
    intro r _
    unfold Record.getD
    cases r.get? name with
    | none => exact .inl ⟨rfl, rfl⟩
    | some v => exact .inr ⟨v, rfl, rfl⟩
  have hgiven : getD r name (.float gap) = v := by
    unfold Record.getD
    rw [hv]
    rfl
  have hmixed : ofCells (records.map fun r => getD r name (.float gap)) =
      .ok (.mixed (records.map fun r => getD r name (.float gap))) := by
    refine ofCells_of_other (fun cell hcell => ?_) ⟨v, mem_map.mpr ⟨r, hr, hgiven⟩, (hwords r hr v hv).1⟩
    obtain ⟨r, hr, rfl⟩ := mem_map.mp hcell
    rcases hcases r hr with ⟨-, hcell⟩ | ⟨v, hv, hcell⟩
    · exact .inl hcell
    · rw [hcell]
      exact .inr (hwords r hr v hv).1
  have hfields : columnOfFields ((records.map fun r => getD r name (.float gap)).map cellText) =
      textColumn true ((records.map fun r => getD r name (.float gap)).map cellText) := by
    refine columnOfFields_of_words (fun s hs => ?_) ⟨v.cellText, ?_, (hwords r hr v hv).2⟩
    · obtain ⟨cell, hcell, rfl⟩ := mem_map.mp hs
      obtain ⟨r, hr, rfl⟩ := mem_map.mp hcell
      rcases hcases r hr with ⟨-, hcell⟩ | ⟨v, hv, hcell⟩
      · rw [hcell, hgap]
        exact .inl (by decide)
      · rw [hcell]
        exact .inr (hwords r hr v hv).2
    · exact mem_map.mpr ⟨v, mem_map.mpr ⟨r, hr, hgiven⟩, rfl⟩
  have hback : textColumn true ((records.map fun r => getD r name (.float gap)).map cellText) =
      .mixed (records.map fun r => storedCell (r.get? name)) := by
    unfold textColumn
    rw [map_map, map_map]
    refine congrArg mixed (map_congr_left fun r hr => ?_)
    change (if (true && gapWords.contains (getD r name (.float gap)).cellText) = true then
      float gap else .str (getD r name (.float gap)).cellText) = _
    rw [Bool.true_and]
    rcases hcases r hr with ⟨hnone, hcell⟩ | ⟨v, hv, hcell⟩
    · rw [hcell, hgap, hnone]
      rfl
    · rw [hcell, hv, (hwords r hr v hv).2.present, if_neg Bool.false_ne_true]
      rfl
  exact mem_map.mpr ⟨_, mem_columns_ofRecords ht hr hname hmixed, congrArg (Prod.mk name) (hfields.trans hback)⟩

lemma exists_record_erase (hdistinct : t.names.Nodup) (dropped : String) (hi : i < t.height) :
    ∃ r, (t.erase dropped).records[i]? = some r ∧ ∀ column ∈ t.columns, column.1 ≠ dropped →
      get? r column.1 = some (column.2.cells[i]?.getD .null) := by
  rw [records_eq, getElem?_map]
  change ∃ r, Option.map _ (range t.height)[i]? = some r ∧ _
  rw [getElem?_range hi]
  refine ⟨_, rfl, fun column hcolumn hother => ?_⟩
  have hkept : column ∈ (t.erase dropped).columns := mem_filter.mpr ⟨hcolumn, bne_iff_ne.mpr hother⟩
  have hdistinct' : ((t.erase dropped).columns.map (·.1)).Nodup := hdistinct.sublist (filter_sublist.map _)
  exact get?_map_columns hdistinct' hkept fun column => column.2.cells[i]?.getD .null

lemma names_reread (t : Table) : t.reread.names = t.names := by
  unfold reread names
  rw [map_map]
  rfl

/-- A record comes back with the text of each field that is a text or list in all records, but for the dropped column.
-/
lemma exists_stored_record (ht : ofRecords records = .ok t) (dropped : String)
    {i : Nat} (hi : records[i]? = some r) : ∃ e, (t.reread.erase dropped).records[i]? = some e ∧
      ∀ name, name ≠ dropped → (∃ other ∈ records, ∃ v, other.get? name = some v) →
        (∀ other ∈ records, ∀ v, other.get? name = some v → isOther v ∧ IsWord v.cellText) →
        get? e name = some (storedCell (r.get? name)) := by
  have hdistinct : t.reread.names.Nodup := by
    rw [names_reread]
    exact nodup_names_ofRecords ht
  have hheight : i < t.reread.height := by
    change i < t.height
    rw [(ofRecords_eq_ok.mp ht).1]
    exact (List.getElem?_eq_some_iff.mp hi).1
  obtain ⟨e, he, hcolumns⟩ := exists_record_erase hdistinct dropped hheight
  refine ⟨e, he, fun name hname hsome hwords => ?_⟩
  rw [hcolumns _ (mem_columns_reread ht hwords hsome) hname]
  change some ((records.map fun r => storedCell (r.get? name))[i]?.getD .null) = _
  rw [getElem?_map, hi]
  rfl

end CodeAudit.Table

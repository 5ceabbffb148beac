import Mathlib.Data.Set.List
import CodeAudit.Table.Column
import CodeAudit.Proofs.Dependencies.Shapes
import CodeAudit.Proofs.Record
import CodeAudit.Proofs.Text.SortedSet

/-!
# Columns of doubles and of whole numbers

A table of records has the names of all, and each column is made from one field of every record. Doubles make a column
of doubles; whole numbers make a column as long as each has a double near it, one of values where they fit no machine
word. Texts and lists stay what they are, with gaps or without.
-/

namespace CodeAudit

open Proofs List Value Record Decimal Except Column Seen

namespace Column

variable {s s' : Seen} {cells : List Value} {cell : Value} {c : Column} {ns : List Int}

/-! ## Doubles -/

lemma foldlM_after_floats (xs : List Float) (hother : s.other = false) :
    ∃ s', (xs.map float).foldlM after s = .ok s' ∧ s'.other = false ∧ s'.bool = s.bool ∧
      (s'.real || s'.gap) = (s.real || s.gap || !xs.isEmpty) := by
  induction xs generalizing s with
  | nil => exact ⟨s, rfl, hother, rfl, by simp⟩
  | cons x xs ih =>
    have hstep : s.after (.float x) = .ok (if x.isNaN then { s with gap := true } else { s with real := true }) := by
      unfold Seen.after
      rw [hother]
      rfl
    rw [map_cons, foldlM_cons, hstep, ok_bind]
    cases x.isNaN with
    | true =>
      obtain ⟨s', hrun, hother', hbool, hseen⟩ := @ih { s with gap := true } hother
      exact ⟨s', hrun, hother', hbool, by simp [hseen]⟩
    | false =>
      obtain ⟨s', hrun, hother', hbool, hseen⟩ := @ih { s with real := true } hother
      exact ⟨s', hrun, hother', hbool, by simp [hseen]⟩

lemma ofCells_floats (hne : xs ≠ []) : ofCells (xs.map .float) = .ok (.real xs) := by
  obtain ⟨s, hrun, hother, hbool, hseen⟩ := foldlM_after_floats xs (s := {}) rfl
  have hreal : (s.real || s.gap) := by
    rw [hseen]
    simp [hne]
  have hcells : (xs.map float).map cellDouble = xs := by
    rw [map_map]
    exact map_id' xs
  unfold ofCells
  rw [hrun, ok_bind, hother, hbool, hreal, hcells]
  rfl

/-! ## Whole numbers -/

lemma isOk_double (n : Int) : (Number.whole n).double.isOk = (Number.whole n).hasDouble := by
  change (if (ofInt n).isInf = true then error Fault.overflow else ok (ofInt n)).isOk = !(ofInt n).isInf
  cases (ofInt n).isInf <;> rfl

lemma afterWhole_cases (h : s.afterWhole n = .ok s') :
    s'.null = s.null ∧ s'.gap = s.gap ∧ s'.bool = s.bool ∧ s'.real = s.real := by
  obtain ⟨x, -, h⟩ := of_bind h
  split at h
  · cases ok.inj h
    exact ⟨rfl, rfl, rfl, rfl⟩
  · cases ok.inj h
    exact ⟨rfl, rfl, rfl, rfl⟩

/-- Nothing but whole numbers has been seen. -/
structure Seen.IsWhole (s : Seen) : Prop where
  null : s.null = false
  gap : s.gap = false
  bool : s.bool = false
  real : s.real = false
  other : s.other = false

/-- Where nothing but whole numbers has been seen, the last cell is one and so are those before it. -/
lemma isWhole_of_after (h : s.after cell = .ok s') (hwhole : s'.IsWhole) : s.IsWhole ∧ ∃ n, cell = .int n := by
  obtain ⟨hnull, hgap, hbool, hreal, hother⟩ := hwhole
  unfold Seen.after at h
  split at h
  · next hseen =>
    cases ok.inj h
    rw [hseen] at hother
    cases hother
  · next hseen =>
    split at h
    · cases ok.inj h
      cases hnull
    · cases ok.inj h
      cases hbool
    · obtain ⟨hnull', hgap', hbool', hreal'⟩ := afterWhole_cases h
      refine ⟨⟨?_, ?_, ?_, ?_, Bool.eq_false_iff.mpr hseen⟩, _, rfl⟩
      · rw [← hnull', hnull]
      · rw [← hgap', hgap]
      · rw [← hbool', hbool]
      · rw [← hreal', hreal]
    all_goals
      cases ok.inj h
      first
        | cases hother
        | (split at hgap
           · cases hgap
           · split at hreal
             · contradiction
             · cases hreal)

lemma forall_int_of_isWhole (h : cells.foldlM after s = .ok s')
    (hwhole : s'.IsWhole) : s.IsWhole ∧ ∀ cell ∈ cells, ∃ n, cell = .int n := by
  induction cells generalizing s with
  | nil =>
    cases ok.inj h
    exact ⟨hwhole, by simp⟩
  | cons cell cells ih =>
    rw [foldlM_cons] at h
    obtain ⟨between, hstep, hrest⟩ := of_bind h
    obtain ⟨hbetween, hcells⟩ := ih hrest
    obtain ⟨hs, hcell⟩ := isWhole_of_after hstep hbetween
    exact ⟨hs, forall_mem_cons.mpr ⟨hcell, hcells⟩⟩

/-- A column is the cells it is made from, or doubles in their place. -/
lemma ofCells_cases (h : ofCells cells = .ok c) : c.cells = cells ∨ c.cells = (cells.map cellDouble).map .float := by
  obtain ⟨s, hrun, h⟩ := of_bind h
  split at h
  · cases ok.inj h
    exact .inl rfl
  · next hmixed =>
    split at h
    · cases ok.inj h
      exact .inr rfl
    · next hreal =>
      split at h
      · next hwhole =>
        cases ok.inj h
        -- all cells are whole numbers, so none is left out
        have hints : ∀ cell ∈ cells, ∃ n, cell = .int n := by
          simp only [Bool.or_eq_true, not_or, Bool.not_eq_true, Bool.and_eq_false_imp] at hmixed hreal
          exact (forall_int_of_isWhole hrun ⟨hreal.2 hwhole, hreal.1.2, hmixed.2, hreal.1.1, hmixed.1⟩).2
        obtain ⟨ns, rfl⟩ : ∃ ns : List Int, ns.map int = cells :=
          (Set.range_list_map int).ge fun cell hcell => (hints cell hcell).imp fun n hn => hn.symm
        refine .inl ?_
        change (filterMap _ (ns.map int)).map int = _
        rw [filterMap_map]
        exact congrArg (map int) filterMap_some
      · cases ok.inj h
        exact .inl rfl

lemma length_ofCells (h : ofCells cells = .ok c) : c.cells.length = cells.length := by
  rcases ofCells_cases h with hsame | hdoubles
  · rw [hsame]
  · rw [hdoubles, length_map, length_map]

/-! ## Texts and lists -/

def isOther : Value → Bool
  | .null | .bool _ | .int _ | .float _ | .estimate _ => false
  | _ => true

lemma after_of_isOther (h : isOther cell) : ∃ s', s.after cell = .ok s' ∧ s'.other := by
  unfold Seen.after
  split
  · next hseen => exact ⟨s, rfl, hseen⟩
  · cases cell <;> first | exact absurd h Bool.false_ne_true | exact ⟨_, rfl, rfl⟩

lemma foldlM_after_of_other (cells : List Value) (h : s.other) : cells.foldlM after s = .ok s := by
  induction cells with
  | nil => rfl
  | cons cell cells ih =>
    have hstep : s.after cell = .ok s := by
      unfold Seen.after
      rw [h]
      rfl
    rw [foldlM_cons, hstep, ok_bind, ih]

lemma ofCells_of_other (hall : ∀ cell ∈ cells, cell = .float gap ∨ isOther cell)
    (hsome : ∃ cell ∈ cells, isOther cell) : ofCells cells = .ok (.mixed cells) := by
  have hseen : ∀ s : Seen, ∃ s', cells.foldlM after s = .ok s' ∧ s'.other := by
    induction cells with
    | nil =>
      obtain ⟨cell, hcell, -⟩ := hsome
      cases hcell
    | cons cell cells ih =>
      intro s
      rw [foldlM_cons]
      by_cases hother : isOther cell
      · obtain ⟨s', hstep, hs'⟩ := @after_of_isOther s cell hother
        exact ⟨s', by rw [hstep, ok_bind, foldlM_after_of_other cells hs'], hs'⟩
      · obtain rfl := (hall cell mem_cons_self).resolve_right hother
        have hstep : ∃ between, s.after (.float gap) = .ok between := by
          unfold Seen.after
          split
          · exact ⟨s, rfl⟩
          · exact ⟨_, rfl⟩
        obtain ⟨between, hstep⟩ := hstep
        rw [hstep, ok_bind]
        refine ih (fun c hc => hall c (mem_cons_of_mem _ hc)) ?_ between
        obtain ⟨c, hc, hisOther⟩ := hsome
        rcases mem_cons.mp hc with rfl | hin
        · exact absurd hisOther hother
        · exact ⟨c, hin, hisOther⟩
  obtain ⟨s, hrun, hs⟩ := hseen {}
  unfold ofCells
  rw [hrun, ok_bind, hs]
  rfl

/-! ## Whole numbers with doubles -/

/-- Whole numbers that all have a double near them make a column. -/
lemma exists_ofCells_ints (h : ∀ n ∈ ns, (Number.whole n).hasDouble) : ∃ c, ofCells (ns.map .int) = .ok c := by
  have hseen : ∀ s : Seen, ∃ s', (ns.map int).foldlM after s = .ok s' := by
    induction ns with
    | nil => exact fun s => ⟨s, rfl⟩
    | cons n ns ih =>
      intro s
      obtain ⟨between, hstep⟩ : ∃ between, s.after (.int n) = .ok between := by
        obtain ⟨x, hx⟩ := isOk_iff.mp ((isOk_double n).trans (h n mem_cons_self))
        unfold Seen.after
        split
        · exact ⟨s, rfl⟩
        · dsimp only
          unfold afterWhole
          rw [hx, ok_bind]
          split
          · exact ⟨_, rfl⟩
          · exact ⟨_, rfl⟩
      rw [map_cons, foldlM_cons, hstep, ok_bind]
      exact ih (fun m hm => h m (mem_cons_of_mem _ hm)) between
  obtain ⟨s, hs⟩ := hseen {}
  unfold ofCells
  rw [hs, ok_bind]
  split
  · exact ⟨_, rfl⟩
  · split
    · exact ⟨_, rfl⟩
    · split
      · exact ⟨_, rfl⟩
      · exact ⟨_, rfl⟩

/-- Whole numbers from zero up that fit a machine word stay whole. -/
lemma ofCells_small (hne : ns ≠ [])
    (h : ∀ n ∈ ns, (0 ≤ n ∧ n < 2 ^ 63) ∧ (Number.whole n).hasDouble) : ofCells (ns.map .int) = .ok (.whole ns) := by
  have hstep : ∀ n ∈ ns, ∀ whole, after { whole } (.int n) = .ok { whole := true } := by
    intro n hn whole
    obtain ⟨⟨hlow, hhigh⟩, hdouble⟩ := h n hn
    obtain ⟨x, hx⟩ := isOk_iff.mp ((isOk_double n).trans hdouble)
    have hneg : ¬ n < 0 := by omega
    have hlarge : ¬ 2 ^ 63 ≤ n := by omega
    have hbelow : ¬ n < -(2 ^ 63) := by omega
    have habove : ¬ 2 ^ 64 ≤ n := by omega
    change afterWhole { whole } n = _
    unfold afterWhole
    rw [hx, ok_bind]
    simp only [hneg, hlarge, hbelow, habove, Bool.false_eq_true, if_false, decide_false, Bool.and_false,
      Bool.false_and, Bool.or_false]
    rfl
  have hseen : (ns.map int).foldlM after {} = .ok { whole := true } := by
    cases ns with
    | nil => exact absurd rfl hne
    | cons first rest =>
      rw [map_cons, foldlM_cons, hstep first mem_cons_self, ok_bind]
      have hrest : ∀ n ∈ rest, after { whole := true } (.int n) = .ok { whole := true } :=
        fun n hn => hstep n (mem_cons_of_mem _ hn) true
      clear hstep h hne
      induction rest with
      | nil => rfl
      | cons n rest ih =>
        rw [map_cons, foldlM_cons, hrest n mem_cons_self, ok_bind]
        exact ih fun m hm => hrest m (mem_cons_of_mem _ hm)
  unfold ofCells
  rw [hseen, ok_bind]
  change ok (whole (filterMap _ (ns.map int))) = _
  rw [filterMap_map]
  exact congrArg (fun ns => ok (whole ns)) filterMap_some

lemma length_cells_finite (c : Column) : c.finite.cells.length = c.cells.length := by
  cases c with
  | whole ns => rfl
  | real xs => simp [finite, cells]
  | mixed vs => rfl

end Column

/-! ## Tables of records with the same names -/

namespace Table

variable {names : List String}

lemma eraseDups_of_nodup (h : names.Nodup) : names.eraseDups = names := by
  induction names with
  | nil => rfl
  | cons name names ih =>
    obtain ⟨hfresh, hrest⟩ := nodup_cons.mp h
    have hkept : names.filter (fun other => !other == name) = names := by
      rw [filter_eq_self]
      intro other hother
      have hne : other ≠ name := fun heq => hfresh (heq ▸ hother)
      simpa using hne
    rw [eraseDups_cons, hkept, ih hrest]

lemma eraseDups_append_of_subset (h : names.Nodup) (hmore : ∀ name ∈ more, name ∈ names) :
    (names ++ more).eraseDups = names := by
  have hremoved : more.removeAll names = [] := by
    unfold removeAll
    rw [filter_eq_nil_iff]
    intro name hname
    simp [hmore name hname]
  rw [eraseDups_append, hremoved, eraseDups_of_nodup h]
  simp

/-- The table of records has a column for each name, if these columns can be made. -/
lemma ofRecords_eq_ok {records : List Record} : ofRecords records = .ok t ↔
    t.height = records.length ∧ Forall₂ (fun name column => column.1 = name ∧
      ofCells (records.map fun r => Record.getD r name (.float gap)) = .ok column.2)
        (records.flatMap Record.names).eraseDups t.columns := by
  unfold ofRecords
  dsimp only
  constructor
  · intro h
    obtain ⟨columns, hcolumns, h⟩ := of_bind h
    cases ok.inj h
    refine ⟨rfl, (mapM_eq_ok_iff.mp hcolumns).imp fun name column hcolumn => ?_⟩
    obtain ⟨c, hc, hcolumn⟩ := of_bind hcolumn
    cases ok.inj hcolumn
    exact ⟨rfl, hc⟩
  · rintro ⟨hheight, hcolumns⟩
    refine bind_eq_ok_iff.mpr ⟨t.columns, mapM_eq_ok_iff.mpr (hcolumns.imp fun name column hcolumn => ?_), ?_⟩
    · obtain ⟨rfl, hc⟩ := hcolumn
      exact bind_eq_ok_iff.mpr ⟨column.2, hc, rfl⟩
    · rw [← hheight]
      rfl

section Names

variable {records : List Record} {t : Table} (h : ofRecords records = .ok t)

include h

lemma names_ofRecords : t.names = (records.flatMap Record.names).eraseDups := by
  obtain ⟨-, hcolumns⟩ := ofRecords_eq_ok.mp h
  have hnames : Forall₂ Eq (records.flatMap Record.names).eraseDups (t.columns.map (·.1)) :=
    forall₂_map_right_iff.mpr (hcolumns.imp fun name column hcolumn => hcolumn.1.symm)
  rw [forall₂_eq_eq_eq] at hnames
  exact hnames.symm

lemma nodup_names_ofRecords : t.names.Nodup := by
  rw [names_ofRecords h]
  exact Text.nodup_eraseDups _

lemma mem_columns_ofRecords (hr : r ∈ records) (hname : name ∈ r.names)
    (hc : ofCells (records.map fun r => getD r name (.float gap)) = .ok c) : (name, c) ∈ t.columns := by
  obtain ⟨-, hcolumns⟩ := ofRecords_eq_ok.mp h
  have hin : name ∈ (records.flatMap Record.names).eraseDups := by
    rw [mem_eraseDups]
    exact mem_flatMap.mpr ⟨r, hr, hname⟩
  obtain ⟨column, hcolumn, hnamed, hcells⟩ := exists_mem_of_forall₂ hcolumns.flip hin
  rw [hc] at hcells
  have heq : column = (name, c) := Prod.ext hnamed (ok.inj hcells).symm
  exact heq ▸ hcolumn

end Names

section Uniform

variable {records : List Record} {names : List String} (hne : records ≠ []) (hnames : ∀ r ∈ records, r.names = names)
  (hnodup : names.Nodup)

include hne hnames hnodup

lemma eraseDups_flatMap_names : (records.flatMap Record.names).eraseDups = names := by
  cases records with
  | nil => exact absurd rfl hne
  | cons r rest =>
    rw [flatMap_cons, hnames r mem_cons_self]
    refine eraseDups_append_of_subset hnodup fun name hname => ?_
    obtain ⟨other, hother, hin⟩ := mem_flatMap.mp hname
    rwa [hnames other (mem_cons_of_mem _ hother)] at hin

/-- The table of records with the same names has a column for each of them, if these columns can be made. -/
lemma ofRecords_eq_ok_iff : ofRecords records = .ok t ↔
    t.height = records.length ∧ Forall₂ (fun name column => column.1 = name ∧
      ofCells (records.map fun r => Record.getD r name (.float gap)) = .ok column.2) names t.columns := by
  rw [ofRecords_eq_ok, eraseDups_flatMap_names hne hnames hnodup]

lemma exists_ofRecords_iff : (∃ t, ofRecords records = .ok t) ↔ ∀ name ∈ names,
    ∃ c, ofCells (records.map fun r => getD r name (.float gap)) = .ok c := by
  constructor
  · rintro ⟨t, ht⟩ name hname
    obtain ⟨-, hcolumns⟩ := (ofRecords_eq_ok_iff hne hnames hnodup).mp ht
    obtain ⟨column, -, -, hc⟩ := exists_mem_of_forall₂ hcolumns.flip hname
    exact ⟨column.2, hc⟩
  · intro h
    unfold ofRecords
    rw [eraseDups_flatMap_names hne hnames hnodup]
    have hstep : ∀ name ∈ names, ∃ column, (do
        return (name, ← ofCells (records.map fun r => getD r name (.float gap))) :
          Except Fault (String × Column)) = .ok column := by
      intro name hname
      obtain ⟨c, hc⟩ := h name hname
      exact ⟨(name, c), bind_eq_ok_iff.mpr ⟨c, hc, rfl⟩⟩
    obtain ⟨columns, hcolumns⟩ := exists_mapM_eq_ok hstep
    exact ⟨_, bind_eq_ok_iff.mpr ⟨columns, hcolumns, rfl⟩⟩

end Uniform

end Table

end CodeAudit

import CodeAudit.Config.Settings
import CodeAudit.Proofs.Record

/-!
# Laying settings over others

Laying one record over another descends where both hold a record and takes the upper value elsewhere. What stands under
each name (`get?_mergeFields`) and the order of the names (`names_mergeFields`) say all about a record; the laws follow
by going down a value. All of it is copied, so records that are too deep cannot be laid over others
(`nest_not_merged`).
-/

namespace CodeAudit

open List Record Value Bool

namespace Record

variable {r : Record} {name : String}

lemma get?_eq_none_iff : get? r name = none ↔ name ∉ r.names := by
  unfold get? names
  rw [Option.map_eq_none_iff, find?_eq_none, mem_map]
  constructor
  · rintro h ⟨field, hfield, rfl⟩
    exact h field hfield (beq_self_eq_true field.1)
  · intro h field hfield heq
    exact h ⟨field, hfield, beq_iff_eq.mp heq⟩

lemma names_put (r : Record) (name : String) (value : Value) :
    (r.put name value).names = if name ∈ r.names then r.names else r.names ++ [name] := by
  have hhas : r.has name ↔ name ∈ r.names := by simp [has, names]
  unfold put
  by_cases h : name ∈ r.names
  · rw [if_pos h, if_pos (hhas.mpr h)]
    unfold names
    rw [map_map]
    refine map_congr_left fun field _ => ?_
    by_cases hname : field.1 = name <;> simp [hname]
  · rw [if_neg h, if_neg (mt hhas.mp h)]
    exact map_append

/-- Two records are the same if they have the same names, each once, and the same under each name. -/
lemma eq_of_get? (hnames : r.names = s.names) (hdistinct : r.names.Nodup)
    (h : ∀ name ∈ r.names, get? r name = get? s name) : r = s := by
  induction r generalizing s with
  | nil => exact (map_eq_nil_iff.mp hnames.symm).symm
  | cons field r ih =>
    obtain ⟨other, s, rfl, hname, hrest⟩ := map_eq_cons_iff.mp hnames.symm
    obtain ⟨hnew, hdistinct⟩ := nodup_cons.mp hdistinct
    have hvalue := h field.1 mem_cons_self
    rw [get?_cons, get?_cons, if_pos rfl, if_pos hname] at hvalue
    rw [Prod.ext hname.symm (Option.some.inj hvalue), ih hrest.symm hdistinct]
    intro name hin
    have hne : field.1 ≠ name := by
      rintro rfl
      exact hnew hin
    have hsame := h name (mem_cons_of_mem _ hin)
    rwa [get?_cons, get?_cons, if_neg hne, if_neg (hname ▸ hne)] at hsame

end Record

namespace Config

/-- A value all of whose records have texts as names, each of them once. -/
inductive IsNested : Value → Prop where
  | leaf {v : Value} (h : v.isRecord = false) : IsNested v
  | record {fields : Record} (hnames : fields.names.Nodup) (hfields : ∀ field ∈ fields, IsNested field.2) :
      IsNested (.obj fields)

variable {b o fields : Record} {old : Option Value} {v w : Value} {name : String}

lemma IsNested.nodup (h : IsNested (.obj fields)) : fields.names.Nodup := by
  cases h with
  | leaf h => cases h
  | record hnames _ => exact hnames

lemma IsNested.get? (h : IsNested (.obj fields)) (hget : fields.get? name = some v) : IsNested v := by
  cases h with
  | leaf h => cases h
  | record _ hfields => exact hfields _ (mem_of_get? hget)

/-! ## What stands where after laying over -/

lemma mergeValue_leaf (old : Option Value) (h : v.isRecord = false) : mergeValue old v = v := by
  cases v with
  | obj fields => cases h
  | map entries => cases h
  | _ => rfl

/-- A record is laid over the fields of another, and over all else it comes as it is. -/
lemma mergeValue_obj_cases (hold : ∀ w ∈ old, IsNested w) :
    (∃ b : Record, old = some (.obj b) ∧ b.names.Nodup ∧ ∀ name, ∀ w ∈ b.get? name, IsNested w) ∨
      ∀ o, mergeValue old (.obj o) = .obj o := by
  cases old with
  | none => exact .inr fun o => rfl
  | some w =>
    cases hold w rfl with
    | record hnames hfields => exact .inl ⟨_, rfl, hnames, fun name w hw => hfields _ (mem_of_get? hw)⟩
    | leaf h =>
      refine .inr fun o => ?_
      cases w with
      | obj base => cases h
      | map base => cases h
      | _ => rfl

lemma mergeValue_none (h : IsNested v) : mergeValue none v = v := by
  cases h with
  | leaf h => exact mergeValue_leaf none h
  | record _ _ => rfl

lemma get?_mergeFields (b : Record) (ho : o.names.Nodup) (name : String) :
    (mergeFields b o).get? name = ((o.get? name).map (mergeValue (b.get? name))).or (b.get? name) := by
  induction o generalizing b with
  | nil => rfl
  | cons field o ih =>
    obtain ⟨hnew, ho⟩ := nodup_cons.mp ho
    rw [mergeFields, ih _ ho, get?_cons, get?_put]
    by_cases hname : name = field.1
    · rw [if_pos hname, if_pos hname.symm, hname, get?_eq_none_iff.mpr hnew]
      rfl
    · rw [if_neg hname, if_neg (Ne.symm hname)]

/-- The names below keep their places, and the new ones follow in their own order. -/
lemma names_mergeFields (b : Record) (ho : o.names.Nodup) :
    (mergeFields b o).names = b.names ++ o.names.filter (· ∉ b.names) := by
  induction o generalizing b with
  | nil => exact (append_nil b.names).symm
  | cons field o ih =>
    obtain ⟨hnew, ho⟩ := nodup_cons.mp ho
    rw [mergeFields, ih _ ho, names_put]
    change _ = b.names ++ filter _ (field.1 :: names o)
    by_cases hin : field.1 ∈ b.names
    · rw [if_pos hin, filter_cons_of_neg (by simpa using hin)]
    · rw [if_neg hin, filter_cons_of_pos (by simpa using hin), append_assoc, singleton_append]
      congr 2
      refine filter_congr fun other hother => ?_
      have hne : other ≠ field.1 := by
        rintro rfl
        exact hnew hother
      simp [hne]

lemma mem_names_mergeFields (ho : o.names.Nodup) :
    name ∈ (mergeFields b o).names ↔ name ∈ b.names ∨ name ∈ o.names := by
  rw [names_mergeFields b ho, mem_append, mem_filter, decide_eq_true_eq]
  tauto

lemma nodup_mergeFields (hb : b.names.Nodup) (ho : o.names.Nodup) : (mergeFields b o).names.Nodup := by
  rw [names_mergeFields b ho, nodup_append]
  refine ⟨hb, ho.filter _, fun name hbelow other hnew heq => ?_⟩
  have hother : other ∉ b.names := by simpa using (mem_filter.mp hnew).2
  exact hother (heq ▸ hbelow)

/-! ## Laying over again -/

lemma mergeValue_self (h : IsNested v) : mergeValue (some v) v = v := by
  induction h with
  | leaf h => exact mergeValue_leaf _ h
  | @record fields hnames _ ih =>
    refine congrArg obj (eq_of_get? ?_ (nodup_mergeFields hnames hnames) fun name _ => ?_)
    · rw [names_mergeFields fields hnames]
      simp
    · rw [get?_mergeFields fields hnames]
      cases hget : fields.get? name with
      | none => rfl
      | some v => exact congrArg some (ih _ (mem_of_get? hget))

/-- Laying a value over a second time changes nothing. -/
lemma mergeValue_mergeValue (hv : IsNested v) (hold : ∀ w ∈ old, IsNested w) :
    mergeValue (some (mergeValue old v)) v = mergeValue old v := by
  induction hv generalizing old with
  | leaf h => rw [mergeValue_leaf _ h, mergeValue_leaf _ h]
  | @record o hnames hfields ih =>
    rcases mergeValue_obj_cases hold with ⟨b, rfl, hbelow, hparts⟩ | hover
    · have hmerged := nodup_mergeFields hbelow hnames
      refine congrArg obj (eq_of_get? ?_ (nodup_mergeFields hmerged hnames) fun name _ => ?_)
      · rw [names_mergeFields _ hnames, filter_eq_nil_iff.mpr, append_nil]
        intro name hname
        simpa using (mem_names_mergeFields hnames).mpr (.inr hname)
      · rw [get?_mergeFields _ hnames, get?_mergeFields _ hnames]
        cases hupper : o.get? name with
        | none => rfl
        | some u => exact congrArg some (ih _ (mem_of_get? hupper) (hparts _))
    · rw [hover, mergeValue_self (.record hnames hfields)]

/-- What comes of laying a value over another can be laid over that other. -/
lemma mergeValue_below (hv : IsNested v) (hold : ∀ w ∈ old, IsNested w) :
    mergeValue old (mergeValue old v) = mergeValue old v := by
  induction hv generalizing old with
  | leaf h => rw [mergeValue_leaf _ h, mergeValue_leaf _ h]
  | @record o hnames hfields ih =>
    rcases mergeValue_obj_cases hold with ⟨b, rfl, hbelow, hparts⟩ | hover
    · have hmerged := nodup_mergeFields hbelow hnames
      refine congrArg obj (eq_of_get? ?_ (nodup_mergeFields hbelow hmerged) fun name _ => ?_)
      · rw [names_mergeFields b hmerged, names_mergeFields b hnames, filter_append, filter_eq_nil_iff.mpr (by simp),
          nil_append, filter_filter]
        simp
      · rw [get?_mergeFields b hmerged, get?_mergeFields b hnames]
        cases hupper : o.get? name with
        | none =>
          cases hlower : b.get? name with
          | none => rfl
          | some w => exact congrArg some (mergeValue_self (hparts _ w hlower))
        | some u => exact congrArg some (ih _ (mem_of_get? hupper) (hparts _))
    · rw [hover, hover]

lemma mergeFields_nil (ho : IsNested (.obj o)) : mergeFields [] o = o := by
  refine eq_of_get? ?_ (nodup_mergeFields nodup_nil ho.nodup) fun name _ => ?_
  · rw [names_mergeFields [] ho.nodup]
    simp [names]
  · rw [get?_mergeFields [] ho.nodup]
    cases hget : o.get? name with
    | none => rfl
    | some v => exact congrArg some (mergeValue_none (ho.get? hget))

lemma inRoom_eq_ok_iff {α : Type} {x y : α} : inRoom room places x = .ok y ↔ places ≤ room ∧ x = y := by
  unfold inRoom
  split
  · next h => exact ⟨nofun, fun hle => absurd hle.1 (Nat.not_le.mpr h)⟩
  · next h => simp [Nat.not_lt.mp h]

/-! ## Values along paths -/

/-- The value to which names lead from a value, each taken from the record before. -/
def valueAt? (v : Value) : List String → Option Value
  | [] => some v
  | name :: path => (v.namedFields.bind (·.get? name)).bind (valueAt? · path)

lemma valueAt?_obj (fields : Record) (name : String) (path : List String) :
    valueAt? (.obj fields) (name :: path) = (fields.get? name).bind (valueAt? · path) := rfl

/-- What is no record in the upper value stays in its place. -/
lemma valueAt?_of_upper (hw : w.isRecord = false) (hv : IsNested v) (hold : ∀ u ∈ old, IsNested u)
    (h : valueAt? v path = some w) : valueAt? (mergeValue old v) path = some w := by
  induction path generalizing v old with
  | nil =>
    cases h
    rw [mergeValue_leaf old hw]
    rfl
  | cons name path ih =>
    cases hv with
    | leaf hleaf =>
      rw [mergeValue_leaf old hleaf]
      exact h
    | @record o hnames hfields =>
      rcases mergeValue_obj_cases hold with ⟨b, rfl, -, hparts⟩ | hover
      · rw [valueAt?_obj] at h
        obtain ⟨u, hu, h⟩ := Option.bind_eq_some_iff.mp h
        change valueAt? (.obj (mergeFields b o)) _ = _
        rw [valueAt?_obj, get?_mergeFields b hnames, hu]
        exact ih (hfields _ (mem_of_get? hu)) (hparts name) h
      · rw [hover]
        exact h

/-- What is no record comes from the same place above or below. -/
lemma upper_or_lower_of_valueAt? (hw : w.isRecord = false) (hv : IsNested v)
    (hold : ∀ u ∈ old, IsNested u) (h : valueAt? (mergeValue old v) path = some w) :
    valueAt? v path = some w ∨ ∃ u ∈ old, valueAt? u path = some w := by
  induction path generalizing v old with
  | nil =>
    cases hv with
    | leaf hleaf =>
      rw [mergeValue_leaf old hleaf] at h
      exact .inl h
    | record hnames hfields =>
      rcases mergeValue_obj_cases hold with ⟨b, rfl, -, -⟩ | hover
      · cases h
        cases hw
      · rw [hover] at h
        exact .inl h
  | cons name path ih =>
    cases hv with
    | leaf hleaf =>
      rw [mergeValue_leaf old hleaf] at h
      exact .inl h
    | @record o hnames hfields =>
      rcases mergeValue_obj_cases hold with ⟨b, rfl, -, hparts⟩ | hover
      · change valueAt? (.obj (mergeFields b o)) _ = _ at h
        rw [valueAt?_obj, get?_mergeFields b hnames] at h
        cases hu : o.get? name with
        | none =>
          rw [hu] at h
          exact .inr ⟨_, rfl, h⟩
        | some u =>
          rw [hu] at h
          rcases ih (hfields _ (mem_of_get? hu)) (hparts name) h with habove | ⟨l, hl, hbelow⟩
          · left
            rw [valueAt?_obj, hu]
            exact habove
          · right
            refine ⟨_, rfl, ?_⟩
            rw [valueAt?_obj, hl]
            exact hbelow
      · rw [hover] at h
        exact .inl h

lemma isNested_flat (hnames : fields.names.Nodup) (h : fields.all (!·.2.isRecord)) : IsNested (.obj fields) := by
  refine .record hnames fun field hfield => .leaf ?_
  simpa using all_eq_true.mp h field hfield

lemma isNested_defaults : IsNested (.obj defaults) := by
  refine .record (by decide) ?_
  simp only [defaults, forall_mem_cons]
  exact ⟨.leaf rfl, isNested_flat (by decide) rfl, isNested_flat (by decide) rfl, isNested_flat (by decide) rfl,
    isNested_flat (by decide) rfl, isNested_flat (by decide) rfl, forall_mem_nil _⟩

def strictFields : Record := [("rules", .null), ("severity", .obj [("minimum", .str "high")])]

/-- A record in a record, and so on. -/
def nest : Nat → Record
  | 0 => []
  | n + 1 => [("a", .obj (nest n))]

lemma isNested_nest (n : Nat) : IsNested (.obj (nest n)) := by
  induction n with
  | zero => exact .record nodup_nil (forall_mem_nil _)
  | succ n ih => exact .record (by simp [nest, names]) (forall_mem_singleton.mpr ih)

lemma le_copyDepth_nest (n : Nat) : 2 * n ≤ (obj (nest n)).copyDepth := by
  induction n with
  | zero => exact Nat.zero_le _
  | succ n ih =>
    rw [nest, copyDepth, copyDepthFields]
    omega

lemma merge_nest (h : room < 2 * n) : merge (nest n) [] room = .error .tooDeep := by
  have hcopy := le_copyDepth_nest n
  have hdepth : room < mergeDepth (some (.obj (nest n))) (.obj []) := by
    change room < 1 + max (obj (nest n)).copyDepth 0
    omega
  exact if_pos hdepth

end Config

end CodeAudit
